import SourceLens.Library.JsonText
import SourceLens.Library.TextSub

/-! The JSON object in a model's reply (`agent_runtime/routing.py`): think blocks and one
fence are taken off the whole text before braces are counted. -/

namespace SourceLens.ReplyObject

open List
open JsonText (dumps dumpsFields dumpsItems escapeChar hexPair isMark)
open PyText (isSpace strip)
open TextSub (Matcher Occurs Text literal sub)

/-- What `re.IGNORECASE` takes for a letter of the patterns, the letters outside ASCII
among it. -/
def sameLetter (p c : Char) : Bool :=
  c == p || c == p.toUpper || (p == 'i' && (c == 'İ' || c == 'ı')) || (p == 'k' && c == '\u212a')

variable (isWord : Char → Bool)

/-- `_OPEN_THINK_PATTERN` at the start of a text: what stands behind it. -/
def openThink (text : Text) : Option Text :=
  (literal sameLetter ['<', 't', 'h', 'i', 'n', 'k'] text).bind fun rest =>
    if rest.head?.any isWord then none
    else
      match rest.dropWhile (· ≠ '>') with
      | [] => none
      | _ :: behind => some behind

/-- `</think\s*>` -/
def closeThink (text : Text) : Option Text :=
  (literal sameLetter ['<', '/', 't', 'h', 'i', 'n', 'k'] text).bind fun rest =>
    match rest.dropWhile isSpace with
    | [] => none
    | c :: behind => if c = '>' then some behind else none

/-- `.*?</think\s*>` -/
def throughClose : Text → Option Text
  | [] => none
  | c :: rest => (closeThink (c :: rest)).or (throughClose rest)

/-- `_THINK_BLOCK_PATTERN` -/
def thinkBlock : Matcher := fun text =>
  (openThink isWord text).bind fun rest =>
    (throughClose rest).map fun behind => ([], text.length - behind.length)

/-- `_OPEN_THINK_PATTERN.search` -/
def hasOpen : Text → Bool
  | [] => false
  | c :: rest => (openThink isWord (c :: rest)).isSome || hasOpen rest

def beforeOpen : Text → Text
  | [] => []
  | c :: rest => if (openThink isWord (c :: rest)).isSome then [] else c :: beforeOpen rest

/-! ### `_FENCED_BLOCK_PATTERN` -/

def ticks : Text := ['`', '`', '`']

/-- Where `(?:json)?` may end, in the order in which it is tried. -/
def behindJson (text : Text) : List Text :=
  match literal (· == ·) ['j', 's', 'o', 'n'] text with
  | some rest => [rest, text]
  | none => [text]

/-- Where `\s*` may end. -/
def behindSpace : Text → List Text
  | [] => [[]]
  | c :: rest => if isSpace c then behindSpace rest ++ [c :: rest] else [c :: rest]

/-- Where `\n?` may end. -/
def behindBreak : Text → List Text
  | [] => [[]]
  | c :: rest => if c = '\n' then [rest, c :: rest] else [c :: rest]

/-- `\n?\s*` and the closing ticks, where the text ends or its last line does. -/
def fenceEnd (text : Text) : Bool :=
  let rest := text.dropWhile isSpace
  rest == ticks || rest == ticks ++ ['\n']

/-- The shortest group before the end of the fence. -/
def fenceGroup : Text → Option Text
  | [] => none
  | c :: rest => if fenceEnd (c :: rest) then some [] else (fenceGroup rest).map (c :: ·)

def fenceMatch (text : Text) : Option Text :=
  (literal (· == ·) ticks text).bind fun rest =>
    (((behindJson rest).flatMap behindSpace).flatMap behindBreak).findSome? fenceGroup

/-- `_strip_reasoning_and_fences` -/
def stripReasoningAndFences (text : Text) : Text :=
  let text := strip isSpace (beforeOpen isWord (sub (thinkBlock isWord) text))
  if !ticks.isPrefixOf text then text
  else
    match fenceMatch text with
    | some group => strip isSpace group
    | none => text

/-- The scan of a text: what it passes up to the brace that brings the depth to zero. -/
def balanced : Nat → Bool → Bool → Text → Option Text
  | _, _, _, [] => none
  | depth, inString, true, c :: rest => (balanced depth inString false rest).map (c :: ·)
  | depth, inString, false, c :: rest =>
    if c = '\\' then (balanced depth inString true rest).map (c :: ·)
    else if c = '"' then (balanced depth (!inString) false rest).map (c :: ·)
    else if inString then (balanced depth inString false rest).map (c :: ·)
    else if c = '{' then (balanced (depth + 1) inString false rest).map (c :: ·)
    else if c = '}' then
      if depth = 1 then some [c] else (balanced (depth - 1) inString false rest).map (c :: ·)
    else (balanced depth inString false rest).map (c :: ·)

/-- How `json.loads` fails; only the first is caught. -/
inductive LoadError
  | decodeError
  | otherError
deriving DecidableEq

/-- `_extract_json_object` -/
def extractJsonObject (loads : Text → Except LoadError Json) (text : Text) :
    Except LoadError (Option (List (String × Json))) :=
  match balanced 0 false false ((stripReasoningAndFences isWord text).dropWhile (· ≠ '{')) with
  | none => .ok none
  | some piece =>
    match loads piece with
    | .ok (.obj fields) => .ok (some fields)
    | .ok _ => .ok none
    | .error .decodeError => .ok none
    | .error .otherError => .error .otherError

/-! ### `json.dumps` -/

def hexUnit (n : Nat) : Text := ['\\', 'u'] ++ hexPair (n / 256) ++ hexPair (n % 256)

/-- A code point of the text as the encoder writes it with `ensure_ascii`. -/
def asciiChar (c : Char) : Text :=
  if c.toNat < 127 then [c]
  else if c.toNat < 65536 then hexUnit c.toNat
  else
    hexUnit (55296 + (c.toNat - 65536) / 1024) ++ hexUnit (56320 + (c.toNat - 65536) % 1024)

def ascii (text : Text) : Text := text.flatMap asciiChar

/-- `json.dumps(value)`, given the text of a float. -/
def jsonDumps (floatText : ℚ → Text) (value : Json) : Text := ascii (dumps floatText value)

/-- What the text of an integer and of a finite float is made of. -/
def isNumeral (c : Char) : Bool := c.isDigit || c == '.' || c == 'e' || c == '+' || c == '-'

/-- A text that the pattern takes for one block, whatever follows. -/
def ClosedBlock (block : Text) : Prop :=
  block ≠ [] ∧ ∀ rest, thinkBlock isWord (block ++ rest) = some ([], block.length)

variable {isWord}

theorem beforeOpen_self (text : Text) (clean : hasOpen isWord text = false) :
    beforeOpen isWord text = text := by
  induction text with
  | nil => rfl
  | cons c rest ih =>
    rw [hasOpen, Bool.or_eq_false_iff] at clean
    rw [beforeOpen, clean.1, ih clean.2]
    rfl

theorem no_block (text : Text) (clean : hasOpen isWord text = false) :
    ¬Occurs (thinkBlock isWord) text := by
  induction text with
  | nil => exact TextSub.not_occurs_nil rfl
  | cons c rest ih =>
    rw [hasOpen, Bool.or_eq_false_iff, Option.isSome_eq_false_iff, Option.isNone_iff_eq_none] at clean
    rw [TextSub.occurs_cons, thinkBlock, clean.1]
    exact not_or.mpr ⟨Bool.false_ne_true, ih clean.2⟩

theorem subFrom_skip (find : Matcher) (part rest : Text) :
    TextSub.subFrom find part.length (part ++ rest) = TextSub.subFrom find 0 rest := by
  induction part with
  | nil => rfl
  | cons c part ih => exact ih

theorem sub_behind (block text : Text) (closed : block = [] ∨ ClosedBlock isWord block) :
    sub (thinkBlock isWord) (block ++ text) = sub (thinkBlock isWord) text := by
  rcases closed with rfl | ⟨filled, takes⟩
  · rfl
  · cases block with
    | nil => exact absurd rfl filled
    | cons c block =>
      have first : TextSub.subFrom (thinkBlock isWord) 0 (c :: (block ++ text)) =
          [] ++ TextSub.subFrom (thinkBlock isWord) block.length (block ++ text) :=
        TextSub.subFrom_some (takes text)
      rw [sub, cons_append, first]
      exact subFrom_skip _ block text

theorem throughClose_body (body rest : Text) (plain : '<' ∉ body) :
    throughClose (body ++ ("</think>".toList ++ rest)) = some rest := by
  induction body with
  | nil => rfl
  | cons c body ih =>
    rw [mem_cons, not_or] at plain
    have other : sameLetter '<' c = false := by
      simp [sameLetter, Ne.symm plain.1, show '<'.toUpper = '<' from rfl]
    rw [cons_append, throughClose, closeThink, literal, other]
    exact ih plain.2

theorem openThink_tag (behind : Text) (bare : isWord '>' = false) :
    openThink isWord ("<think>".toList ++ behind) = some behind := by
  have named : literal sameLetter ['<', 't', 'h', 'i', 'n', 'k'] ("<think>".toList ++ behind) =
      some ('>' :: behind) := rfl
  have stops : ('>' :: behind).dropWhile (· ≠ '>') = '>' :: behind := rfl
  rw [openThink, named, Option.bind_some, stops, head?_cons, Option.any_some, bare]
  rfl

theorem closedBlock_plain (body : Text) (plain : '<' ∉ body) (bare : isWord '>' = false) :
    ClosedBlock isWord ("<think>".toList ++ (body ++ "</think>".toList)) := by
  refine ⟨append_ne_nil_of_left_ne_nil (by decide) _, fun rest => ?_⟩
  rw [append_assoc, append_assoc, thinkBlock, openThink_tag _ bare, Option.bind_some,
    throughClose_body body rest plain]
  generalize "<think>".toList = opening
  generalize "</think>".toList = closing
  simp only [Option.map_some, length_append, Option.some.injEq, Prod.mk.injEq, true_and]
  omega

/-- The text holds an object's text, and no brace opens before it. -/
def Holds (inner text : Text) : Prop :=
  ∃ front back, text = front ++ '{' :: inner ++ '}' :: back ∧ '{' ∉ front

variable {inner text : Text}

theorem dropWhile_upto (drop : Char → Bool) (front : Text) (c : Char) (rest : Text)
    (stays : drop c = false) :
    (front ++ c :: rest).dropWhile drop = front.dropWhile drop ++ c :: rest := by
  rw [dropWhile_append]
  split
  · rename_i gone
    rw [isEmpty_iff.mp gone, dropWhile_cons_of_neg (by simp [stays])]
    rfl
  · rfl

theorem holds_strip (holds : Holds inner text) : Holds inner (strip isSpace text) := by
  rcases holds with ⟨front, back, rfl, closed⟩
  refine ⟨front.dropWhile isSpace, (back.reverse.dropWhile isSpace).reverse, ?_,
    fun member => closed ((dropWhile_suffix _).subset member)⟩
  rw [strip, PyText.stripLeft, append_assoc, cons_append,
    dropWhile_upto _ _ _ _ (by decide), PyText.stripRight]
  simp only [reverse_append, reverse_cons, append_assoc, cons_append,
    nil_append]
  rw [dropWhile_upto _ _ _ _ (by decide)]
  simp

theorem holds_tail (c : Char) (rest : Text) (other : c ≠ '{') (holds : Holds inner (c :: rest)) :
    Holds inner rest := by
  rcases holds with ⟨front, back, whole, closed⟩
  cases front with
  | nil => exact absurd (List.cons.inj whole).1 other
  | cons d front =>
    exact ⟨front, back, (List.cons.inj whole).2, fun member => closed (mem_cons_of_mem d member)⟩

theorem holds_behind (pattern : Text) (plain : '{' ∉ pattern) :
    ∀ text rest, literal (· == ·) pattern text = some rest → Holds inner text → Holds inner rest := by
  induction pattern with
  | nil =>
    intro text rest taken holds
    cases taken
    exact holds
  | cons p pattern ih =>
    intro text rest taken holds
    cases text with
    | nil => cases taken
    | cons c text =>
      rw [mem_cons, not_or] at plain
      rw [literal] at taken
      split at taken
      · rename_i same
        have other : c ≠ '{' := fun brace => plain.1 (by rw [← brace]; exact (beq_iff_eq.mp same).symm)
        exact ih plain.2 text rest taken (holds_tail c text other holds)
      · cases taken

theorem holds_behindSpace (text : Text) (holds : Holds inner text) :
    ∀ rest ∈ behindSpace text, Holds inner rest := by
  induction text with
  | nil =>
    intro rest member
    rwa [mem_singleton.mp member]
  | cons c text ih =>
    intro rest member
    rw [behindSpace] at member
    split at member
    · rename_i space
      rcases mem_append.mp member with later | here
      · refine ih (holds_tail c text ?_ holds) rest later
        rintro rfl
        exact absurd space (by decide)
      · rwa [mem_singleton.mp here]
    · rwa [mem_singleton.mp member]

theorem holds_behindBreak (text : Text) (holds : Holds inner text) :
    ∀ rest ∈ behindBreak text, Holds inner rest := by
  intro rest member
  cases text with
  | nil => rwa [mem_singleton.mp member]
  | cons c text =>
    rw [behindBreak] at member
    split at member
    · rename_i lineFeed
      rcases mem_cons.mp member with rfl | here
      · exact holds_tail c rest (by rw [lineFeed]; decide) holds
      · rwa [mem_singleton.mp here]
    · rwa [mem_singleton.mp member]

theorem fenceEnd_brace (text : Text) (member : '}' ∈ text) : fenceEnd text = false := by
  have kept : '}' ∈ text.dropWhile isSpace := by
    rw [← takeWhile_append_dropWhile (p := isSpace) (l := text), mem_append] at member
    rcases member with skipped | kept
    · exact absurd (mem_takeWhile_imp skipped) (by decide)
    · exact kept
  rw [fenceEnd, Bool.or_eq_false_iff, beq_eq_false_iff_ne, beq_eq_false_iff_ne]
  constructor
  · intro same
    rw [same] at kept
    exact absurd kept (by decide)
  · intro same
    rw [same] at kept
    exact absurd kept (by decide)

/-- The group goes on to the last brace at least: behind it alone the fence can end. -/
theorem fenceGroup_through (front back group : Text)
    (found : fenceGroup (front ++ '}' :: back) = some group) :
    ∃ rest, group = front ++ '}' :: rest := by
  induction front generalizing group with
  | nil =>
    rw [nil_append, fenceGroup, fenceEnd_brace _ mem_cons_self, if_neg Bool.false_ne_true,
      Option.map_eq_some_iff] at found
    rcases found with ⟨rest, -, rfl⟩
    exact ⟨rest, rfl⟩
  | cons c front ih =>
    rw [cons_append, fenceGroup, fenceEnd_brace _ (by simp), if_neg Bool.false_ne_true,
      Option.map_eq_some_iff] at found
    rcases found with ⟨later, found, rfl⟩
    rcases ih later found with ⟨rest, rfl⟩
    exact ⟨rest, rfl⟩

theorem holds_fenceMatch (group : Text) (found : fenceMatch text = some group)
    (holds : Holds inner text) : Holds inner group := by
  rcases Option.bind_eq_some_iff.mp found with ⟨rest, opened, found⟩
  have behind := holds_behind ticks (by decide) _ _ opened holds
  rcases exists_of_findSome?_eq_some found with ⟨start, member, taken⟩
  rcases mem_flatMap.mp member with ⟨spaced, member, broken⟩
  rcases mem_flatMap.mp member with ⟨named, member, spaces⟩
  have named : Holds inner named := by
    rw [behindJson] at member
    split at member
    · rename_i word
      rcases mem_cons.mp member with rfl | here
      · exact holds_behind _ (by decide) _ _ word behind
      · rwa [mem_singleton.mp here]
    · rwa [mem_singleton.mp member]
  rcases holds_behindBreak _ (holds_behindSpace _ named _ spaces) _ broken with
    ⟨front, back, rfl, closed⟩
  rcases fenceGroup_through _ back group taken with ⟨after, rfl⟩
  exact ⟨front, after, rfl, closed⟩

theorem holds_stripped (block : Text) (closed : block = [] ∨ ClosedBlock isWord block)
    (clean : hasOpen isWord text = false) (holds : Holds inner text) :
    Holds inner (stripReasoningAndFences isWord (block ++ text)) := by
  rw [stripReasoningAndFences, sub_behind block text closed,
    TextSub.sub_of_clean (no_block text clean), beforeOpen_self text clean]
  have stripped := holds_strip holds
  split
  · exact stripped
  · split
    · rename_i group found
      exact holds_strip (holds_fenceMatch group found stripped)
    · exact stripped

/-- The scan passes the piece and stands behind it as before it. -/
def Passes (inString : Bool) (piece : Text) : Prop :=
  ∀ depth rest, balanced (depth + 1) inString false (piece ++ rest) =
    (balanced (depth + 1) inString false rest).map (piece ++ ·)

variable {inString : Bool} {left right : Text}

theorem passes_append (first : Passes inString left) (second : Passes inString right) :
    Passes inString (left ++ right) := by
  intro depth rest
  rw [append_assoc, first, second, Option.map_map]
  simp only [Function.comp_def, append_assoc]

theorem passes_plain (piece : Text)
    (plain : ∀ c ∈ piece, c ≠ '\\' ∧ c ≠ '"' ∧ (inString = true ∨ c ≠ '{' ∧ c ≠ '}')) :
    Passes inString piece := by
  induction piece with
  | nil =>
    intro depth rest
    simp
  | cons c piece ih =>
    intro depth rest
    rcases plain c mem_cons_self with ⟨slash, quote, other⟩
    rw [cons_append, balanced, if_neg slash, if_neg quote]
    have later := ih (fun d member => plain d (mem_cons_of_mem c member)) depth rest
    rcases other with inside | ⟨opening, closing⟩
    · rw [if_pos inside, later, Option.map_map]
      rfl
    · rw [if_neg opening, if_neg closing, ite_self, later, Option.map_map]
      rfl

theorem passes_escape (c : Char) (marks : Text) (plain : Passes inString marks) :
    Passes inString ('\\' :: c :: marks) := by
  intro depth rest
  rw [cons_append, cons_append, balanced, if_pos rfl, balanced, plain, Option.map_map,
    Option.map_map]
  rfl

theorem passes_marks (marks : Text) (plain : ∀ c ∈ marks, isMark c = true) : Passes true marks := by
  apply passes_plain
  intro c member
  have facts := JsonText.isMark_facts c (plain c member)
  exact ⟨facts.2.1, facts.1, .inl rfl⟩

theorem passes_object (piece : Text) (passes : Passes false piece) :
    Passes false ('{' :: piece ++ ['}']) := by
  intro depth rest
  have opening : balanced (depth + 1) false false ('{' :: (piece ++ '}' :: rest)) =
      (balanced (depth + 1 + 1) false false (piece ++ '}' :: rest)).map ('{' :: ·) := rfl
  have closing : balanced (depth + 1 + 1) false false ('}' :: rest) =
      (balanced (depth + 1) false false rest).map ('}' :: ·) := rfl
  simp only [cons_append, append_assoc, nil_append]
  rw [opening, passes, closing, Option.map_map, Option.map_map]
  simp only [Function.comp_def]

theorem hexUnit_passes (n : Nat) (small : n < 65536) : Passes true (hexUnit n) := by
  apply passes_escape
  apply passes_marks
  intro c member
  have digits : c ∈ [n / 256 / 16, n / 256 % 16, n % 256 / 16, n % 256 % 16].map Nat.digitChar :=
    member
  rcases mem_map.mp digits with ⟨digit, among, rfl⟩
  apply JsonText.digitChar_mark
  simp only [mem_cons, not_mem_nil, or_false] at among
  omega

theorem ascii_low (piece : Text) (low : ∀ c ∈ piece, c.toNat < 127) : ascii piece = piece := by
  induction piece with
  | nil => rfl
  | cons c piece ih =>
    rw [ascii, flatMap_cons, asciiChar, if_pos (low c mem_cons_self)]
    exact congrArg (c :: ·) (ih fun d member => low d (mem_cons_of_mem c member))

theorem escapeChar_passes (c : Char) : Passes true (ascii (escapeChar c)) := by
  by_cases low : c.toNat < 32
  · rcases JsonText.escapeChar_control c low with ⟨marks, same, filled, plain⟩
    cases marks with
    | nil => exact absurd rfl filled
    | cons d marks =>
      have written : ascii ('\\' :: d :: marks) = '\\' :: d :: marks :=
        congrArg ('\\' :: ·)
          (ascii_low _ fun e member => (JsonText.isMark_facts e (plain e member)).2.2.2.2)
      rw [same, written]
      exact passes_escape d marks (passes_marks marks fun e member =>
        plain e (mem_cons_of_mem d member))
  · by_cases quote : c = '"'
    · subst quote
      exact passes_escape '"' [] (passes_marks [] nofun)
    · by_cases slash : c = '\\'
      · subst slash
        exact passes_escape '\\' [] (passes_marks [] nofun)
      · rw [JsonText.escapeChar_printable c (by omega) quote slash, ascii, flatMap_singleton,
          asciiChar]
        split
        · apply passes_plain
          intro d member
          rw [mem_singleton.mp member]
          exact ⟨slash, quote, .inl rfl⟩
        · split
          · exact hexUnit_passes _ (by assumption)
          · have top : c.toNat < 1114112 := by
              have := c.valid
              simp only [UInt32.isValidChar, Nat.isValidChar] at this
              simp only [Char.toNat]
              omega
            exact passes_append (hexUnit_passes _ (by omega)) (hexUnit_passes _ (by omega))

theorem literal_passes (text : String) : Passes false (ascii (JsonText.literal text)) := by
  have inner : ∀ chars : Text, Passes true (ascii (chars.flatMap escapeChar)) := by
    intro chars
    induction chars with
    | nil => exact passes_marks [] nofun
    | cons c chars ih =>
      rw [flatMap_cons, ascii, flatMap_append]
      exact passes_append (escapeChar_passes c) ih
  intro depth rest
  have whole : ascii (JsonText.literal text) =
      '"' :: (ascii (text.toList.flatMap escapeChar) ++ ['"']) := by
    rw [JsonText.literal, ascii, cons_append, flatMap_cons, flatMap_append]
    rfl
  have opening : ∀ more, balanced (depth + 1) false false ('"' :: more) =
      (balanced (depth + 1) true false more).map ('"' :: ·) := fun _ => rfl
  have closing : balanced (depth + 1) true false ('"' :: rest) =
      (balanced (depth + 1) false false rest).map ('"' :: ·) := rfl
  rw [whole, cons_append, append_assoc, cons_append, nil_append, opening, inner,
    closing, Option.map_map, Option.map_map]
  simp only [Function.comp_def, cons_append, append_assoc, nil_append]

/-- What stands outside the strings of a text, without its braces. -/
def isPlain (c : Char) : Bool :=
  c != '\\' && c != '"' && c != '{' && c != '}' && decide (c.toNat < 127)

theorem plain_passes (piece : Text) (plain : piece.all isPlain = true) :
    Passes false (ascii piece) := by
  simp only [all_eq_true, isPlain, Bool.and_eq_true, bne_iff_ne, decide_eq_true_eq] at plain
  rw [ascii_low piece fun c member => (plain c member).2]
  apply passes_plain
  intro c member
  rcases plain c member with ⟨⟨⟨⟨slash, quote⟩, opening⟩, closing⟩, -⟩
  exact ⟨slash, quote, .inr ⟨opening, closing⟩⟩

theorem numeral_plain (c : Char) (digit : isNumeral c = true) : isPlain c = true := by
  simp only [isNumeral, Char.isDigit, Bool.or_eq_true, Bool.and_eq_true, decide_eq_true_eq,
    beq_iff_eq] at digit
  rcases digit with (((⟨low, high⟩ | rfl) | rfl) | rfl) | rfl
  · have high : c.toNat ≤ 57 := high
    have low : 48 ≤ c.toNat := low
    have other (d : Char) (beyond : d.toNat < 48 ∨ 57 < d.toNat) : c ≠ d := by
      rintro rfl
      omega
    simp only [isPlain, Bool.and_eq_true, bne_iff_ne, decide_eq_true_eq]
    exact ⟨⟨⟨⟨other _ (by decide), other _ (by decide)⟩, other _ (by decide)⟩, other _ (by decide)⟩,
      by omega⟩
  all_goals decide

theorem numeral_passes (piece : Text) (numeral : ∀ c ∈ piece, isNumeral c = true) :
    Passes false (ascii piece) :=
  plain_passes piece (all_eq_true.mpr fun c member => numeral_plain c (numeral c member))

theorem int_passes (value : Int) : Passes false (ascii (toString value).toList) := by
  apply numeral_passes
  intro c member
  rcases JsonText.int_chars value c member with rfl | digit
  · decide
  · simp only [isNumeral, digit, Bool.true_or]

theorem nonFinite_passes (name : String) : Passes false (ascii (JsonText.nonFiniteText name)) := by
  apply plain_passes
  unfold JsonText.nonFiniteText
  split_ifs <;> rfl

section Values

variable (floatText : ℚ → Text)

mutual
theorem dumps_passes (floats : ∀ value, ∀ c ∈ floatText value, isNumeral c = true) :
    ∀ value, Passes false (ascii (dumps floatText value))
  | .null => plain_passes ['n', 'u', 'l', 'l'] rfl
  | .bool true => plain_passes ['t', 'r', 'u', 'e'] rfl
  | .bool false => plain_passes ['f', 'a', 'l', 's', 'e'] rfl
  | .int value => int_passes value
  | .float value => numeral_passes _ (floats value)
  | .nonFinite name => nonFinite_passes name
  | .str value => literal_passes value
  | .arr items => by
    rw [dumps, cons_append, ← singleton_append, ascii, flatMap_append,
      flatMap_append]
    exact passes_append (plain_passes _ rfl)
      (passes_append (dumpsItems_passes floats items) (plain_passes _ rfl))
  | .obj fields => by
    rw [dumps, ascii, flatMap_append]
    exact passes_object _ (dumpsFields_passes floats fields)

theorem dumpsItems_passes (floats : ∀ value, ∀ c ∈ floatText value, isNumeral c = true) :
    ∀ items, Passes false (ascii (dumpsItems floatText items))
  | [] => plain_passes [] rfl
  | [item] => dumps_passes floats item
  | item :: next :: rest => by
    rw [dumpsItems, ascii, flatMap_append, flatMap_append]
    · exact passes_append (passes_append (dumps_passes floats item) (plain_passes _ rfl))
        (dumpsItems_passes floats (next :: rest))
    · simp

theorem dumpsFields_passes (floats : ∀ value, ∀ c ∈ floatText value, isNumeral c = true) :
    ∀ fields, Passes false (ascii (dumpsFields floatText fields))
  | [] => plain_passes [] rfl
  | [(key, value)] => by
    rw [dumpsFields, ascii, flatMap_append, flatMap_append]
    exact passes_append (passes_append (literal_passes key) (plain_passes _ rfl))
      (dumps_passes floats value)
  | (key, value) :: next :: rest => by
    rw [dumpsFields, ascii, flatMap_append, flatMap_append, flatMap_append,
      flatMap_append]
    · exact passes_append (passes_append (passes_append (passes_append (literal_passes key)
        (plain_passes _ rfl)) (dumps_passes floats value)) (plain_passes _ rfl))
        (dumpsFields_passes floats (next :: rest))
    · simp
end

variable (floats : ∀ value, ∀ c ∈ floatText value, isNumeral c = true)

include floats

theorem balanced_found (fields : List (String × Json)) (text : Text)
    (holds : Holds (ascii (dumpsFields floatText fields)) text) :
    balanced 0 false false (text.dropWhile (· ≠ '{')) = some (jsonDumps floatText (.obj fields)) := by
  rcases holds with ⟨front, back, rfl, closed⟩
  have found : (front ++ '{' :: ascii (dumpsFields floatText fields) ++ '}' :: back).dropWhile
      (· ≠ '{') = '{' :: (ascii (dumpsFields floatText fields) ++ '}' :: back) := by
    rw [append_assoc, dropWhile_append_of_pos]
    · rfl
    · intro c member
      exact decide_eq_true fun brace => closed (brace ▸ member)
  have opening : ∀ more, balanced 0 false false ('{' :: more) =
      (balanced (0 + 1) false false more).map ('{' :: ·) := fun _ => rfl
  have closing : balanced (0 + 1) false false ('}' :: back) = some ['}'] := rfl
  have whole : jsonDumps floatText (.obj fields) =
      '{' :: (ascii (dumpsFields floatText fields) ++ ['}']) := by
    rw [jsonDumps, dumps, ascii, flatMap_append]
    rfl
  rw [found, opening, dumpsFields_passes floatText floats fields, closing, whole]
  rfl

end Values

section Samples

def sampleWord (c : Char) : Bool := c.isAlphanum || c == '_'

def sampleObject (text : String) : List (String × Json) := [("a", .str text)]

def sampleText (text : String) : Text :=
  jsonDumps (fun _ => ['0', '.', '0']) (.obj (sampleObject text))

def sampleLoads (text : String) (piece : Text) : Except LoadError Json :=
  if piece = sampleText text then .ok (.obj (sampleObject text)) else .error .decodeError

end Samples

end SourceLens.ReplyObject
