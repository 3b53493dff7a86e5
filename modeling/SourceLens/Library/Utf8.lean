import Mathlib.Init

/-! UTF-8 on lists of bytes: the encoding of a text, and the decoding that puts a fixed text, or
nothing, for each malformed sequence. -/

namespace SourceLens.Utf8

open List

abbrev Bytes := List UInt8

def encode (text : List Char) : Bytes := text.flatMap String.utf8EncodeChar

def nextChar (bytes : Bytes) : Option Char := bytes.toByteArray.utf8DecodeChar? 0

/-- The range of the second byte of a longer character, and the number of bytes after the first. -/
def lead (first : UInt8) : Option (UInt8 × UInt8 × Nat) :=
  if 0xC2 ≤ first ∧ first ≤ 0xDF then some (0x80, 0xBF, 1)
  else if first = 0xE0 then some (0xA0, 0xBF, 2)
  else if first = 0xED then some (0x80, 0x9F, 2)
  else if 0xE1 ≤ first ∧ first ≤ 0xEF then some (0x80, 0xBF, 2)
  else if first = 0xF0 then some (0x90, 0xBF, 3)
  else if 0xF1 ≤ first ∧ first ≤ 0xF3 then some (0x80, 0xBF, 3)
  else if first = 0xF4 then some (0x80, 0x8F, 3)
  else none

def isContinuation (byte : UInt8) : Bool := 0x80 ≤ byte && byte ≤ 0xBF

/-- How many bytes after the first one go with a malformed beginning of a character. -/
def brokenTail (first : UInt8) (rest : Bytes) : Nat :=
  match lead first, rest with
  | some (lower, upper, more), second :: rest =>
    if lower ≤ second ∧ second ≤ upper then
      1 + ((rest.takeWhile isContinuation).take (more - 1)).length
    else 0
  | _, _ => 0

/-- The decoding from where as many bytes are still to be skipped. -/
def decodeFrom (malformed : List Char) : Nat → Bytes → List Char
  | _, [] => []
  | skip + 1, _ :: rest => decodeFrom malformed skip rest
  | 0, first :: rest =>
    match nextChar (first :: rest) with
    | some c => c :: decodeFrom malformed (c.utf8Size - 1) rest
    | none => malformed ++ decodeFrom malformed (brokenTail first rest) rest

/-- `bytes.decode(errors="replace")` -/
def decodeReplace (bytes : Bytes) : List Char := decodeFrom ['\uFFFD'] 0 bytes

def WellFormed (bytes : Bytes) : Prop := ∃ text, bytes = encode text

variable {malformed : List Char}

theorem decodeFrom_skip (skip : Nat) (bytes : Bytes) :
    decodeFrom malformed skip bytes = decodeFrom malformed 0 (bytes.drop skip) := by
  induction skip generalizing bytes with
  | zero => rw [drop_zero]
  | succ skip ih =>
    cases bytes with
    | nil => rw [decodeFrom, drop_nil, decodeFrom]
    | cons first rest => rw [decodeFrom, drop_succ_cons, ih]

theorem nextChar_encode (c : Char) (rest : Bytes) :
    nextChar (String.utf8EncodeChar c ++ rest) = some c := by
  rw [nextChar, toByteArray_append]
  exact ByteArray.utf8DecodeChar?_utf8EncodeChar_append

theorem decodeFrom_char (c : Char) (rest : Bytes) :
    decodeFrom malformed 0 (String.utf8EncodeChar c ++ rest) = c :: decodeFrom malformed 0 rest := by
  have next := nextChar_encode c rest
  have size := String.length_utf8EncodeChar c
  have positive := c.utf8Size_pos
  cases bytes : String.utf8EncodeChar c with
  | nil =>
    rw [bytes, length_nil] at size
    omega
  | cons first more =>
    rw [bytes] at next size
    rw [cons_append] at next ⊢
    rw [decodeFrom, next]
    dsimp only
    rw [decodeFrom_skip, ← size, length_cons, Nat.add_sub_cancel, drop_left]

theorem decodeFrom_encode (text : List Char) (rest : Bytes) :
    decodeFrom malformed 0 (encode text ++ rest) = text ++ decodeFrom malformed 0 rest := by
  induction text with
  | nil => rfl
  | cons c text ih =>
    calc decodeFrom malformed 0 (encode (c :: text) ++ rest)
        = decodeFrom malformed 0 (String.utf8EncodeChar c ++ (encode text ++ rest)) := by
          rw [encode, flatMap_cons, append_assoc, ← encode]
      _ = c :: (text ++ decodeFrom malformed 0 rest) := by rw [decodeFrom_char, ih]
      _ = c :: text ++ decodeFrom malformed 0 rest := rfl

theorem decode_encode (text : List Char) : decodeReplace (encode text) = text := by
  have decoded : decodeFrom ['\uFFFD'] 0 (encode text ++ []) = _ := decodeFrom_encode text []
  rwa [append_nil, decodeFrom, append_nil] at decoded

/-- Decoding loses nothing of well-formed bytes, and of no others. -/
theorem encode_decode_iff (bytes : Bytes) : encode (decodeReplace bytes) = bytes ↔ WellFormed bytes := by
  constructor
  · intro kept
    exact ⟨_, kept.symm⟩
  · rintro ⟨text, rfl⟩
    rw [decode_encode]

/-- `bytes.decode(errors="ignore")` -/
def decodeIgnore (bytes : Bytes) : List Char := decodeFrom [] 0 bytes

theorem nextChar_some {bytes : Bytes} {c : Char} (next : nextChar bytes = some c) :
    ∃ rest, bytes = String.utf8EncodeChar c ++ rest := by
  have whole := ByteArray.eq_of_utf8DecodeChar?_eq_some next
  have lists := congrArg (fun array => array.data.toList) whole
  rw [ByteArray.data_append, Array.toList_append, data_toByteArray, data_toByteArray] at lists
  exact ⟨_, lists⟩

theorem decodeFrom_none {bytes : Bytes} (none : ∀ index, nextChar (bytes.drop index) = none) (skip : Nat) :
    decodeFrom [] skip bytes = [] := by
  induction bytes generalizing skip with
  | nil => rw [decodeFrom]
  | cons first rest ih =>
    have later : ∀ index, nextChar (rest.drop index) = Option.none := fun index => none (index + 1)
    cases skip with
    | zero =>
      have next : nextChar (first :: rest) = Option.none := none 0
      rw [decodeFrom, next]
      exact ih later _
    | succ skip => rw [decodeFrom, ih later]

/-- A character that is cut off decodes to nothing, from no byte on. -/
theorem nextChar_cut {c : Char} {count : Nat} (cut : count < c.utf8Size) (index : Nat) :
    nextChar (((String.utf8EncodeChar c).take count).drop index) = none := by
  cases next : nextChar (((String.utf8EncodeChar c).take count).drop index) with
  | none => rfl
  | some d =>
    obtain ⟨rest, begins⟩ := nextChar_some next
    have positive := d.utf8Size_pos
    have size : (String.utf8EncodeChar c).length = c.utf8Size := String.length_utf8EncodeChar c
    have other : (String.utf8EncodeChar d).length = d.utf8Size := String.length_utf8EncodeChar d
    have lengths := congrArg List.length begins
    rw [length_drop, length_take, length_append] at lengths
    have inside : index < (String.utf8EncodeChar c).length := by omega
    have filled : 0 < (String.utf8EncodeChar d).length := by omega
    have first : (String.utf8EncodeChar c)[index] = (String.utf8EncodeChar d)[0] := by
      have head := congrArg (fun bytes : Bytes => bytes[0]?) begins
      rw [List.getElem?_drop, List.getElem?_take_of_lt (by omega), List.getElem?_append_left (by omega),
        List.getElem?_eq_getElem (by omega), List.getElem?_eq_getElem (by omega)] at head
      exact Option.some.inj head
    have start : ((String.utf8EncodeChar d)[0]).IsUTF8FirstByte :=
      UInt8.isUTF8FirstByte_getElem_utf8EncodeChar.mpr rfl
    rw [← first, UInt8.isUTF8FirstByte_getElem_utf8EncodeChar] at start
    subst start
    have whole : String.utf8EncodeChar c =
        String.utf8EncodeChar d ++ (rest ++ (String.utf8EncodeChar c).drop count) := by
      rw [← append_assoc, ← begins, drop_zero, take_append_drop]
    have own := nextChar_encode c []
    rw [append_nil, whole, nextChar_encode] at own
    cases own
    omega

/-- The characters that fit in so many bytes. -/
theorem decodeIgnore_take (text : List Char) (count : Nat) : ∃ front back, text = front ++ back ∧
    decodeIgnore ((encode text).take count) = front ∧ (encode front).length ≤ count ∧
    ∀ c ∈ back.head?, count < (encode front).length + c.utf8Size := by
  induction text generalizing count with
  | nil => exact ⟨[], [], rfl, by simp [encode, decodeIgnore, decodeFrom], Nat.zero_le _, by rintro _ ⟨⟩⟩
  | cons c text ih =>
    have size : (String.utf8EncodeChar c).length = c.utf8Size := String.length_utf8EncodeChar c
    have whole : encode (c :: text) = String.utf8EncodeChar c ++ encode text := rfl
    by_cases fits : c.utf8Size ≤ count
    · obtain ⟨front, back, rfl, decoded, short, full⟩ := ih (count - c.utf8Size)
      have grown : (encode (c :: front)).length = c.utf8Size + (encode front).length := by
        rw [encode, flatMap_cons, length_append, size, ← encode]
      refine ⟨c :: front, back, rfl, ?_, by omega, ?_⟩
      · rw [whole, take_append, take_of_length_le (by omega), size, decodeIgnore,
          decodeFrom_char]
        exact congrArg (c :: ·) decoded
      · intro d next
        have beyond := full d next
        omega
    · refine ⟨[], c :: text, rfl, ?_, Nat.zero_le _, ?_⟩
      · rw [whole, take_append_of_le_length (by omega)]
        exact decodeFrom_none (nextChar_cut (by omega)) 0
      · intro d next
        cases next
        simpa [encode] using fits

end SourceLens.Utf8
