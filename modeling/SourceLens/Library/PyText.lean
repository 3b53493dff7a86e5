import Mathlib.Init

/-! Text primitives of the source language on code points: white space, line
boundaries, stripping, and the integers its `int` constructor reads. -/

namespace SourceLens.PyText

/-- `str.isspace` on one code point. -/
def isSpace (c : Char) : Bool :=
  let n := c.toNat
  (9 ≤ n && n ≤ 13) || (28 ≤ n && n ≤ 32) || n == 133 || n == 160 || n == 5760 ||
    (8192 ≤ n && n ≤ 8202) || n == 8232 || n == 8233 || n == 8239 || n == 8287 || n == 12288

/-- The line boundaries of `str.splitlines`. -/
def isLineBreak (c : Char) : Bool :=
  let n := c.toNat
  (10 ≤ n && n ≤ 13) || (28 ≤ n && n ≤ 30) || n == 133 || n == 8232 || n == 8233

def stripLeft (drop : Char → Bool) (text : List Char) : List Char := text.dropWhile drop

def stripRight (drop : Char → Bool) (text : List Char) : List Char :=
  (text.reverse.dropWhile drop).reverse

/-- `str.strip`. -/
def strip (drop : Char → Bool) (text : List Char) : List Char :=
  stripRight drop (stripLeft drop text)

def decimalDigit (c : Char) : Option Nat :=
  if '0'.toNat ≤ c.toNat ∧ c.toNat ≤ '9'.toNat then some (c.toNat - '0'.toNat) else none

def hexDigit (c : Char) : Option Nat :=
  if 'a'.toNat ≤ c.toNat ∧ c.toNat ≤ 'f'.toNat then some (c.toNat - 'a'.toNat + 10)
  else if 'A'.toNat ≤ c.toNat ∧ c.toNat ≤ 'F'.toNat then some (c.toNat - 'A'.toNat + 10)
  else decimalDigit c

def readDigits (digit : Char → Option Nat) (base : Nat) : List Char → Nat → Option Nat
  | [], total => some total
  | c :: rest, total =>
    match digit c with
    | some value => readDigits digit base rest (total * base + value)
    | none => none

def dropUnderscores : List Char → Option (List Char)
  | [] => none
  | [c] => if c = '_' then none else some [c]
  | c :: d :: rest =>
    if c = '_' then none
    else if d = '_' then (dropUnderscores rest).map (c :: ·)
    else (dropUnderscores (d :: rest)).map (c :: ·)

def readUnsigned (text : List Char) : Option Nat :=
  match dropUnderscores text with
  | some digits => readDigits decimalDigit 10 digits 0
  | none => none

/-- `int(text)` for a string, on the digits 0 to 9. -/
def intOfStr (text : String) : Option Int :=
  match strip isSpace text.toList with
  | '-' :: digits => (readUnsigned digits).map fun value => -(value : Int)
  | '+' :: digits => (readUnsigned digits).map fun value => (value : Int)
  | digits => (readUnsigned digits).map fun value => (value : Int)

example : intOfStr " 1_024\n" = some 1024 := by decide

/-- Remove every occurrence of a nonempty word, scanning from the left. -/
def removeWord (word : List Char) : Nat → List Char → List Char
  | 0, text => text
  | _ + 1, [] => []
  | fuel + 1, c :: rest =>
    if word.isPrefixOf (c :: rest) then removeWord word fuel ((c :: rest).drop word.length)
    else c :: removeWord word fuel rest

/-- `uuid.UUID(text).int`: 32 hexadecimal digits; the URN prefix, braces and
hyphens are optional. -/
def uuidOfStr (text : String) : Option Nat :=
  let chars := text.toList
  let bare := removeWord "uuid:".toList chars.length (removeWord "urn:".toList chars.length chars)
  let digits := (strip (fun c => c = '{' || c = '}') bare).filter (· ≠ '-')
  if digits.length = 32 then readDigits hexDigit 16 digits 0 else none

example : uuidOfStr "urn:uuid:{00000000-0000-0000-0000-0000000000ff}" = some 255 := by decide

section Strip

variable {drop : Char → Bool} {text : List Char}

theorem stripRight_begins (drop : Char → Bool) (text : List Char) : stripRight drop text <+: text := by
  have cut := List.reverse_prefix.mpr (List.dropWhile_suffix (l := text.reverse) drop)
  rwa [List.reverse_reverse] at cut

theorem strip_within (drop : Char → Bool) (text : List Char) : strip drop text <:+: text :=
  (stripRight_begins drop _).isInfix.trans (List.dropWhile_suffix drop).isInfix

theorem strip_opens : ∀ c ∈ (strip drop text).head?, drop c = false := by
  intro c first
  obtain ⟨rest, shape⟩ := List.head?_eq_some_iff.mp first
  obtain ⟨tail, whole⟩ := stripRight_begins drop (stripLeft drop text)
  have kept := List.head?_dropWhile_not drop text
  rw [strip] at shape
  rw [shape, stripLeft] at whole
  rw [← whole] at kept
  simpa using kept

theorem stripRight_closes : ∀ c ∈ (stripRight drop text).getLast?, drop c = false := by
  intro c last
  rw [stripRight, List.getLast?_reverse] at last
  have kept := List.head?_dropWhile_not drop text.reverse
  rw [last] at kept
  simpa using kept

theorem strip_self (opens : ∀ c ∈ text.head?, drop c = false)
    (closes : ∀ c ∈ text.getLast?, drop c = false) : strip drop text = text := by
  have keeps (text : List Char) (opens : ∀ c ∈ text.head?, drop c = false) :
      text.dropWhile drop = text := by
    cases text with
    | nil => rfl
    | cons c rest => exact List.dropWhile_cons_of_neg (by simp [opens c rfl])
  rw [strip, stripLeft, keeps text opens, stripRight, keeps, List.reverse_reverse]
  intro c first
  rw [List.head?_reverse] at first
  exact closes c first

end Strip

/-- `text.split(mark, 1)[0]`. -/
def beforeFirst (mark : Char) (text : String) : String :=
  String.ofList (text.toList.takeWhile (· ≠ mark))

/-- `text.rsplit(mark, 1)[-1]`. -/
def afterLast (mark : Char) (text : String) : String :=
  String.ofList (text.toList.reverse.takeWhile (· ≠ mark)).reverse

/-- `text.rsplit(mark, 1)[0]`. -/
def beforeLast (mark : Char) (text : String) : String :=
  if mark ∈ text.toList then
    String.ofList ((text.toList.reverse.dropWhile (· ≠ mark)).drop 1).reverse
  else text

end SourceLens.PyText
