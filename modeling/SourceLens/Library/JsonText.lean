import SourceLens.Library.Json
import SourceLens.Library.TextLines

/-! The text of a JSON value as an encoder writes it that leaves Unicode as it is, and
what a decoder can find in a piece of such a text. -/

namespace SourceLens.JsonText

open TextLines PyText List

def hexPair (n : Nat) : List Char := [Nat.digitChar (n / 16), Nat.digitChar (n % 16)]

def escapeChar (c : Char) : List Char :=
  if c = '"' then ['\\', '"']
  else if c = '\\' then ['\\', '\\']
  else if c.toNat = 8 then ['\\', 'b']
  else if c = '\t' then ['\\', 't']
  else if c = '\n' then ['\\', 'n']
  else if c.toNat = 12 then ['\\', 'f']
  else if c = '\r' then ['\\', 'r']
  else if c.toNat < 32 then ['\\', 'u', '0', '0'] ++ hexPair c.toNat
  else [c]

def literal (text : String) : List Char := '"' :: text.toList.flatMap escapeChar ++ ['"']

/-- The names the encoder gives to the three floats that are not finite. -/
def nonFiniteText (name : String) : List Char :=
  if name = "NaN" then ['N', 'a', 'N']
  else if name = "Infinity" then ['I', 'n', 'f', 'i', 'n', 'i', 't', 'y']
  else ['-', 'I', 'n', 'f', 'i', 'n', 'i', 't', 'y']

mutual
/-- `json.dumps(value, ensure_ascii=False)`, given the text of a float. -/
def dumps (floatText : ℚ → List Char) : Json → List Char
  | .null => ['n', 'u', 'l', 'l']
  | .bool value => if value then ['t', 'r', 'u', 'e'] else ['f', 'a', 'l', 's', 'e']
  | .int value => (toString value).toList
  | .float value => floatText value
  | .nonFinite name => nonFiniteText name
  | .str value => literal value
  | .arr items => '[' :: dumpsItems floatText items ++ [']']
  | .obj fields => '\x7b' :: dumpsFields floatText fields ++ ['\x7d']

def dumpsItems (floatText : ℚ → List Char) : List Json → List Char
  | [] => []
  | [item] => dumps floatText item
  | item :: rest => dumps floatText item ++ [',', ' '] ++ dumpsItems floatText rest

def dumpsFields (floatText : ℚ → List Char) : List (String × Json) → List Char
  | [] => []
  | [(key, value)] => literal key ++ [':', ' '] ++ dumps floatText value
  | (key, value) :: rest =>
    literal key ++ [':', ' '] ++ dumps floatText value ++ [',', ' '] ++ dumpsFields floatText rest
end

def isMark (c : Char) : Bool :=
  32 ≤ c.toNat && c.toNat < 127 && c != '"' && c != '\\' && c != 'p'

/-- A code point that an encoder writes as it is and that ends a line. -/
def splitsLine (c : Char) : Bool := c.toNat == 133 || c.toNat == 8232 || c.toNat == 8233

mutual
/-- No string of the value holds a code point that ends a line of its text. -/
def oneLine : Json → Bool
  | .str value => value.toList.all fun c => !splitsLine c
  | .arr items => oneLineItems items
  | .obj fields => oneLineFields fields
  | _ => true

def oneLineItems : List Json → Bool
  | [] => true
  | item :: rest => oneLine item && oneLineItems rest

def oneLineFields : List (String × Json) → Bool
  | [] => true
  | (key, value) :: rest =>
    (key.toList.all fun c => !splitsLine c) && oneLine value && oneLineFields rest
end

/-- A text an encoder may still have to write, from outside or from inside a string
literal. -/
inductive Encoded : Bool → List Char → Prop
  | done : Encoded false []
  | mark (c : Char) (rest : List Char) : isMark c = true → Encoded false rest →
      Encoded false (c :: rest)
  | opens (rest : List Char) : Encoded true rest → Encoded false ('"' :: rest)
  | plain (c : Char) (rest : List Char) : c ≠ '"' → c ≠ '\\' → 32 ≤ c.toNat → Encoded true rest →
      Encoded true (c :: rest)
  | escaped (c : Char) (rest : List Char) : 32 ≤ c.toNat → c.toNat < 127 → Encoded true rest →
      Encoded true ('\\' :: c :: rest)
  | closes (rest : List Char) : Encoded false rest → Encoded true ('"' :: rest)

/-- Where a reader of a text stands, with what it has read of an open literal. -/
inductive Place
  | outside
  | inside (read : List Char)
  | escaping (read : List Char)

/-- The string literals of a text, as they stand between their quotes; `none` where a
literal stays open or a backslash stands outside. -/
def literals : Place → List Char → Option (List (List Char))
  | .outside, [] => some []
  | _, [] => none
  | .outside, c :: rest =>
    if c = '"' then literals (.inside []) rest
    else if c = '\\' then none
    else literals .outside rest
  | .inside read, c :: rest =>
    if c = '\\' then literals (.escaping (read ++ [c])) rest
    else if c = '"' then (literals .outside rest).map (read :: ·)
    else literals (.inside (read ++ [c])) rest
  | .escaping read, c :: rest => literals (.inside (read ++ [c])) rest

/-- A key of a decoded object is read from a literal of the text, as it stands there or
through an escape. -/
def keysRead (text : List Char) : Json → Bool
  | .obj fields =>
    match literals .outside text with
    | some raws => fields.all fun field =>
      raws.any fun raw => raw.contains '\\' || raw == field.1.toList
    | none => false
  | _ => (literals .outside text).isSome

/-- What any decoder of the format keeps to: it accepts a text only where every literal
is closed, and makes up no key. -/
def Lexical (loads : List Char → Option Json) : Prop :=
  ∀ text value, loads text = some value → keysRead text value = true

variable (inside : Bool) (c : Char) (text : List Char) (rest : List Char)

theorem mark_keeps_line (mark : isMark c = true) : isLineBreak c = false := by
  simp only [isMark, isLineBreak, Bool.and_eq_true, decide_eq_true_eq] at mark ⊢
  have low := mark.1.1.1.1
  have high := mark.1.1.1.2
  simp only [Bool.or_eq_false_iff, Bool.and_eq_false_iff, decide_eq_false_iff_not,
    beq_eq_false_iff_ne, ne_eq]
  omega

theorem marks_unbroken (marks : ∀ c ∈ text, isMark c = true) :
    Unbroken text := by
  intro c member
  exact mark_keeps_line c (marks c member)

theorem all_marks (all : text.all isMark = true) : ∀ c ∈ text, isMark c = true :=
  all_eq_true.mp all

theorem digit_mark (digit : c.isDigit = true) : isMark c = true := by
  simp only [Char.isDigit, Bool.and_eq_true, decide_eq_true_eq] at digit
  have low : 48 ≤ c.toNat := digit.1
  have high : c.toNat ≤ 57 := digit.2
  have quote : c ≠ '"' := by
    rintro rfl
    exact absurd low (by decide)
  have slash : c ≠ '\\' := by
    rintro rfl
    exact absurd high (by decide)
  have letter : c ≠ 'p' := by
    rintro rfl
    exact absurd high (by decide)
  simp only [isMark, Bool.and_eq_true, decide_eq_true_eq, bne_iff_ne]
  exact ⟨⟨⟨⟨by omega, by omega⟩, quote⟩, slash⟩, letter⟩

theorem int_chars (value : Int) : ∀ c ∈ (toString value).toList, c = '-' ∨ c.isDigit = true := by
  intro c member
  rw [Int.toString_eq_repr, Int.repr_eq_if] at member
  split at member
  · rw [Nat.toList_repr] at member
    exact .inr (Nat.isDigit_of_mem_toDigits (by decide) (by decide) member)
  · simp only [String.toList_append, Nat.toList_repr, mem_append] at member
    rcases member with sign | digits
    · exact .inl (by simpa using sign)
    · exact .inr (Nat.isDigit_of_mem_toDigits (by decide) (by decide) digits)

theorem int_marks (value : Int) : ∀ c ∈ (toString value).toList, isMark c = true := by
  intro c member
  rcases int_chars value c member with rfl | digit
  · decide
  · exact digit_mark c digit

theorem nonFinite_marks (name : String) : ∀ c ∈ nonFiniteText name, isMark c = true := by
  unfold nonFiniteText
  split
  · exact all_marks _ (by decide)
  · split
    · exact all_marks _ (by decide)
    · exact all_marks _ (by decide)

theorem digitChar_mark : ∀ n, n < 16 → isMark (Nat.digitChar n) = true := by decide

theorem escapeChar_printable (high : 32 ≤ c.toNat) (quote : c ≠ '"')
    (slash : c ≠ '\\') : escapeChar c = [c] := by
  have other : ∀ d : Char, d.toNat < 32 → c ≠ d := by
    intro d low same
    subst same
    omega
  unfold escapeChar
  rw [if_neg quote, if_neg slash, if_neg (by omega), if_neg (other '\t' (by decide)),
    if_neg (other '\n' (by decide)), if_neg (by omega), if_neg (other '\r' (by decide)),
    if_neg (by omega)]

theorem escapeChar_control (low : c.toNat < 32) :
    ∃ marks, escapeChar c = '\\' :: marks ∧ marks ≠ [] ∧ ∀ d ∈ marks, isMark d = true := by
  have quote : c ≠ '"' := by
    rintro rfl
    exact absurd low (by decide)
  have slash : c ≠ '\\' := by
    rintro rfl
    exact absurd low (by decide)
  unfold escapeChar
  rw [if_neg quote, if_neg slash]
  split_ifs
  · exact ⟨['b'], rfl, by simp, all_marks _ (by decide)⟩
  · exact ⟨['t'], rfl, by simp, all_marks _ (by decide)⟩
  · exact ⟨['n'], rfl, by simp, all_marks _ (by decide)⟩
  · exact ⟨['f'], rfl, by simp, all_marks _ (by decide)⟩
  · exact ⟨['r'], rfl, by simp, all_marks _ (by decide)⟩
  · refine ⟨['u', '0', '0'] ++ hexPair c.toNat, rfl, by simp, ?_⟩
    intro d member
    simp only [hexPair, cons_append, nil_append, mem_cons, not_mem_nil,
      or_false] at member
    rcases member with rfl | rfl | rfl | rfl | rfl
    · decide
    · decide
    · decide
    · exact digitChar_mark _ (by omega)
    · exact digitChar_mark _ (by omega)

theorem escapeChar_unbroken : Unbroken (escapeChar c) ↔ splitsLine c = false := by
  by_cases low : c.toNat < 32
  · have kept : splitsLine c = false := by
      simp only [splitsLine, Bool.or_eq_false_iff, beq_eq_false_iff_ne]
      omega
    rcases escapeChar_control c low with ⟨marks, text, _, plain⟩
    have slash : isLineBreak '\\' = false := by decide
    simp [text, kept, unbroken_cons, slash, marks_unbroken marks plain]
  · by_cases quote : c = '"'
    · subst quote
      decide
    · by_cases slash : c = '\\'
      · subst slash
        decide
      · rw [escapeChar_printable c (by omega) quote slash]
        have high : 32 ≤ c.toNat := by omega
        simp [Unbroken, splitsLine, isLineBreak]
        omega

theorem literal_unbroken (text : String) :
    Unbroken (literal text) ↔ (text.toList.all fun c => !splitsLine c) = true := by
  have quote : isLineBreak '"' = false := by decide
  have inner : ∀ chars : List Char,
      Unbroken (chars.flatMap escapeChar) ↔ (chars.all fun c => !splitsLine c) = true := by
    intro chars
    induction chars with
    | nil => simp [Unbroken]
    | cons c chars ih => simp [unbroken_append, escapeChar_unbroken, ih]
  have last : Unbroken ['"'] := by decide
  rw [literal, cons_append, unbroken_cons, unbroken_append, inner]
  simp [quote, last]

section Values

variable (floatText : ℚ → List Char)

mutual
theorem dumps_unbroken (floats : ∀ value, ∀ c ∈ floatText value, isMark c = true) :
    ∀ value : Json, Unbroken (dumps floatText value) ↔ oneLine value = true
  | .null => by simp only [dumps, oneLine]; decide
  | .bool value => by cases value <;> simp only [dumps, oneLine] <;> decide
  | .int value => by simp only [dumps, oneLine, marks_unbroken _ (int_marks value)]
  | .float value => by simp [dumps, oneLine, marks_unbroken _ (floats value)]
  | .nonFinite name => by simp [dumps, oneLine, marks_unbroken _ (nonFinite_marks name)]
  | .str value => by simp [dumps, oneLine, literal_unbroken]
  | .arr items => by
    have opening : isLineBreak '[' = false := by decide
    have closing : Unbroken [']'] := by decide
    rw [dumps, oneLine, cons_append, unbroken_cons, unbroken_append,
      dumpsItems_unbroken floats items]
    simp [opening, closing]
  | .obj fields => by
    have opening : isLineBreak '\x7b' = false := by decide
    have closing : Unbroken ['\x7d'] := by decide
    rw [dumps, oneLine, cons_append, unbroken_cons, unbroken_append,
      dumpsFields_unbroken floats fields]
    simp [opening, closing]

theorem dumpsItems_unbroken (floats : ∀ value, ∀ c ∈ floatText value, isMark c = true) :
    ∀ items : List Json, Unbroken (dumpsItems floatText items) ↔ oneLineItems items = true
  | [] => by simp [dumpsItems, oneLineItems, Unbroken]
  | [item] => by simp [dumpsItems, oneLineItems, dumps_unbroken floats item]
  | item :: next :: rest => by
    have comma : Unbroken [',', ' '] := by decide
    rw [dumpsItems, oneLineItems, unbroken_append, unbroken_append, dumps_unbroken floats item,
      dumpsItems_unbroken floats (next :: rest)]
    · simp [comma]
    · simp

theorem dumpsFields_unbroken (floats : ∀ value, ∀ c ∈ floatText value, isMark c = true) :
    ∀ fields : List (String × Json),
      Unbroken (dumpsFields floatText fields) ↔ oneLineFields fields = true
  | [] => by simp [dumpsFields, oneLineFields, Unbroken]
  | [(key, value)] => by
    have colon : Unbroken [':', ' '] := by decide
    rw [dumpsFields, oneLineFields, unbroken_append, unbroken_append, literal_unbroken,
      dumps_unbroken floats value]
    simp [colon, oneLineFields]
  | (key, value) :: next :: rest => by
    have colon : Unbroken [':', ' '] := by decide
    have comma : Unbroken [',', ' '] := by decide
    rw [dumpsFields, oneLineFields, unbroken_append, unbroken_append, unbroken_append,
      unbroken_append, literal_unbroken, dumps_unbroken floats value,
      dumpsFields_unbroken floats (next :: rest)]
    · simp [colon, comma, and_assoc]
    · simp
end

theorem encoded_marks (marks rest : List Char) (plain : ∀ c ∈ marks, isMark c = true)
    (later : Encoded false rest) : Encoded false (marks ++ rest) := by
  induction marks with
  | nil => exact later
  | cons c marks ih =>
    have head := plain c mem_cons_self
    exact .mark c _ head (ih fun d member => plain d (mem_cons_of_mem _ member))

theorem isMark_facts (mark : isMark c = true) :
    c ≠ '"' ∧ c ≠ '\\' ∧ c ≠ 'p' ∧ 32 ≤ c.toNat ∧ c.toNat < 127 := by
  simp only [isMark, Bool.and_eq_true, decide_eq_true_eq, bne_iff_ne] at mark
  exact ⟨mark.1.1.2, mark.1.2, mark.2, mark.1.1.1.1, mark.1.1.1.2⟩

theorem encoded_inside_marks (marks rest : List Char) (plain : ∀ c ∈ marks, isMark c = true)
    (later : Encoded true rest) : Encoded true (marks ++ rest) := by
  induction marks with
  | nil => exact later
  | cons c marks ih =>
    rcases isMark_facts c (plain c mem_cons_self) with ⟨quote, slash, _, low, _⟩
    exact .plain c _ quote slash low (ih fun d member => plain d (mem_cons_of_mem _ member))

theorem encoded_inside_tail (quote : c ≠ '"') (slash : c ≠ '\\')
    (whole : Encoded true (c :: rest)) : Encoded true rest := by
  cases whole with
  | plain _ _ _ _ _ later => exact later
  | escaped _ _ _ _ _ => exact absurd rfl slash
  | closes _ _ => exact absurd rfl quote

theorem encoded_inside_drop (marks rest : List Char) (plain : ∀ c ∈ marks, isMark c = true)
    (whole : Encoded true (marks ++ rest)) : Encoded true rest := by
  induction marks with
  | nil => exact whole
  | cons c marks ih =>
    rcases isMark_facts c (plain c mem_cons_self) with ⟨quote, slash, _⟩
    have tail := encoded_inside_tail c (marks ++ rest) quote slash whole
    exact ih (fun d member => plain d (mem_cons_of_mem _ member)) tail

theorem encoded_escapeChar (later : Encoded true rest) :
    Encoded true (escapeChar c ++ rest) := by
  by_cases low : c.toNat < 32
  · rcases escapeChar_control c low with ⟨marks, text, filled, plain⟩
    rw [text]
    cases marks with
    | nil => exact absurd rfl filled
    | cons d marks =>
      rcases isMark_facts d (plain d mem_cons_self) with ⟨_, _, _, least, most⟩
      have inner := encoded_inside_marks marks rest
        (fun e member => plain e (mem_cons_of_mem _ member)) later
      exact .escaped d _ least most inner
  · by_cases quote : c = '"'
    · subst quote
      exact .escaped '"' rest (by decide) (by decide) later
    · by_cases slash : c = '\\'
      · subst slash
        exact .escaped '\\' rest (by decide) (by decide) later
      · rw [escapeChar_printable c (by omega) quote slash]
        exact .plain c rest quote slash (by omega) later

theorem encoded_literal (text : String) (rest : List Char) (later : Encoded false rest) :
    Encoded false (literal text ++ rest) := by
  have inner : ∀ chars : List Char,
      Encoded true (chars.flatMap escapeChar ++ '"' :: rest) := by
    intro chars
    induction chars with
    | nil => exact .closes rest later
    | cons c chars ih =>
      rw [flatMap_cons, append_assoc]
      exact encoded_escapeChar c _ ih
  have whole := Encoded.opens _ (inner text.toList)
  simpa [literal] using whole

mutual
theorem encoded_dumps (floats : ∀ value, ∀ c ∈ floatText value, isMark c = true) :
    ∀ (value : Json) (rest : List Char), Encoded false rest →
      Encoded false (dumps floatText value ++ rest)
  | .null, rest, later => encoded_marks ['n', 'u', 'l', 'l'] rest (all_marks _ (by decide)) later
  | .bool value, rest, later => by
    cases value with
    | true => exact encoded_marks ['t', 'r', 'u', 'e'] rest (all_marks _ (by decide)) later
    | false => exact encoded_marks ['f', 'a', 'l', 's', 'e'] rest (all_marks _ (by decide)) later
  | .int value, rest, later => encoded_marks _ rest (int_marks value) later
  | .float value, rest, later => encoded_marks _ rest (floats value) later
  | .nonFinite name, rest, later => encoded_marks _ rest (nonFinite_marks name) later
  | .str value, rest, later => encoded_literal value rest later
  | .arr items, rest, later => by
    have inner := encoded_dumpsItems floats items (']' :: rest) (.mark ']' rest (by decide) later)
    simpa [dumps] using Encoded.mark '[' _ (by decide) inner
  | .obj fields, rest, later => by
    have inner := encoded_dumpsFields floats fields ('\x7d' :: rest)
      (.mark '\x7d' rest (by decide) later)
    simpa [dumps] using Encoded.mark '\x7b' _ (by decide) inner

theorem encoded_dumpsItems (floats : ∀ value, ∀ c ∈ floatText value, isMark c = true) :
    ∀ (items : List Json) (rest : List Char), Encoded false rest →
      Encoded false (dumpsItems floatText items ++ rest)
  | [], rest, later => later
  | [item], rest, later => by
    rw [dumpsItems]
    exact encoded_dumps floats item rest later
  | item :: next :: others, rest, later => by
    have inner := encoded_dumpsItems floats (next :: others) rest later
    have comma := encoded_marks [',', ' '] _ (all_marks _ (by decide)) inner
    rw [dumpsItems, append_assoc, append_assoc]
    · exact encoded_dumps floats item _ comma
    · simp

theorem encoded_dumpsFields (floats : ∀ value, ∀ c ∈ floatText value, isMark c = true) :
    ∀ (fields : List (String × Json)) (rest : List Char), Encoded false rest →
      Encoded false (dumpsFields floatText fields ++ rest)
  | [], rest, later => later
  | [(key, value)], rest, later => by
    have inner := encoded_dumps floats value rest later
    have colon := encoded_marks [':', ' '] _ (all_marks _ (by decide)) inner
    rw [dumpsFields, append_assoc, append_assoc]
    exact encoded_literal key _ colon
  | (key, value) :: next :: others, rest, later => by
    have inner := encoded_dumpsFields floats (next :: others) rest later
    have comma := encoded_marks [',', ' '] _ (all_marks _ (by decide)) inner
    have colon := encoded_marks [':', ' '] _ (all_marks _ (by decide)) (encoded_dumps floats value _ comma)
    rw [dumpsFields, append_assoc, append_assoc, append_assoc, append_assoc]
    · exact encoded_literal key _ colon
    · simp
end

end Values

/-- The place of a reader that stands inside a literal, or outside of all. -/
inductive Standing : Bool → Place → Prop
  | outside : Standing false .outside
  | inside (read : List Char) : Standing true (.inside read)

section Steps

attribute [local simp] literals

theorem literals_outside_plain (quote : c ≠ '"') (slash : c ≠ '\\') :
    literals .outside (c :: rest) = literals .outside rest := by
  simp [quote, slash]

theorem literals_outside_quote :
    literals .outside ('"' :: rest) = literals (.inside []) rest := by
  simp

theorem literals_outside_slash : literals .outside ('\\' :: rest) = none := by
  simp

theorem literals_inside_plain (read : List Char) (c : Char) (rest : List Char) (quote : c ≠ '"')
    (slash : c ≠ '\\') :
    literals (.inside read) (c :: rest) = literals (.inside (read ++ [c])) rest := by
  simp [quote, slash]

theorem literals_inside_quote (read rest : List Char) :
    literals (.inside read) ('"' :: rest) = (literals .outside rest).map (read :: ·) := by
  simp

theorem literals_inside_slash (read : List Char) (c : Char) (rest : List Char) :
    literals (.inside read) ('\\' :: c :: rest) =
      literals (.inside (read ++ ['\\'] ++ [c])) rest := by
  simp

end Steps

theorem lineBreak_not_ascii (ends : isLineBreak c = true) (low : 32 ≤ c.toNat) :
    127 ≤ c.toNat := by
  simp only [isLineBreak, Bool.or_eq_true, Bool.and_eq_true, decide_eq_true_eq, beq_iff_eq] at ends
  omega

theorem encoded_break (before after : List Char) (c : Char)
    (ends : isLineBreak c = true) (text : Encoded inside (before ++ c :: after)) :
    Encoded true after ∧ ∀ place, Standing inside place → literals place before = none := by
  generalize shape : before ++ c :: after = whole at text
  induction text generalizing before with
  | done => simp at shape
  | mark d rest marked later ih =>
    rcases isMark_facts d marked with ⟨quote, slash, _⟩
    cases before with
    | nil =>
      cases shape
      rw [mark_keeps_line c marked] at ends
      cases ends
    | cons e before =>
      cases shape
      refine ⟨(ih before rfl).1, ?_⟩
      rintro _ ⟨⟩
      rw [literals_outside_plain d before quote slash]
      exact (ih before rfl).2 .outside .outside
  | opens rest later ih =>
    cases before with
    | nil =>
      cases shape
      exact absurd ends (by decide)
    | cons e before =>
      cases shape
      refine ⟨(ih before rfl).1, ?_⟩
      rintro _ ⟨⟩
      rw [literals_outside_quote]
      exact (ih before rfl).2 (.inside []) (.inside [])
  | plain d rest quote slash high later ih =>
    cases before with
    | nil =>
      cases shape
      exact ⟨later, by rintro _ ⟨⟩; rfl⟩
    | cons e before =>
      cases shape
      refine ⟨(ih before rfl).1, ?_⟩
      rintro _ ⟨⟩
      rw [literals_inside_plain _ d before quote slash]
      exact (ih before rfl).2 (.inside _) (.inside _)
  | escaped d rest low high later ih =>
    cases before with
    | nil =>
      cases shape
      exact absurd ends (by decide)
    | cons e before =>
      cases before with
      | nil =>
        cases shape
        have far := lineBreak_not_ascii c ends low
        omega
      | cons f before =>
        cases shape
        refine ⟨(ih before rfl).1, ?_⟩
        rintro _ ⟨⟩
        rw [literals_inside_slash]
        exact (ih before rfl).2 (.inside _) (.inside _)
  | closes rest later ih =>
    cases before with
    | nil =>
      cases shape
      exact absurd ends (by decide)
    | cons e before =>
      cases shape
      refine ⟨(ih before rfl).1, ?_⟩
      rintro _ ⟨⟩
      rw [literals_inside_quote, (ih before rfl).2 .outside .outside]
      rfl

def Between (raw : List Char) : Prop := ∀ c ∈ raw, isMark c = true

theorem literals_swapped (text piece : List Char) (whole : Encoded inside text)
    (start : piece <+: text) (place : Place) (standing : Standing (!inside) place)
    (fresh : ∀ read, place = .inside read → Between read) (raws : List (List Char))
    (found : literals place piece = some raws) : ∀ raw ∈ raws, Between raw := by
  induction whole generalizing piece place raws with
  | done =>
    rw [prefix_nil.mp start] at found
    cases standing with
    | inside read => exact absurd found (by simp [literals])
  | mark d rest marked later ih =>
    rcases isMark_facts d marked with ⟨quote, slash, _⟩
    cases standing with
    | inside read =>
      cases piece with
      | nil => exact absurd found (by simp [literals])
      | cons e piece =>
        rw [cons_prefix_cons] at start
        rw [start.1, literals_inside_plain read d piece quote slash] at found
        apply ih piece start.2 _ (.inside _) _ raws found
        intro other same c member
        rw [← Place.inside.inj same, mem_append, mem_singleton] at member
        rcases member with before | last
        · exact fresh read rfl c before
        · rw [last]
          exact marked
  | opens rest later ih =>
    cases standing with
    | inside read =>
      cases piece with
      | nil => exact absurd found (by simp [literals])
      | cons e piece =>
        rw [cons_prefix_cons] at start
        rw [start.1, literals_inside_quote] at found
        rcases Option.map_eq_some_iff.mp found with ⟨others, tail, same⟩
        have rest := ih piece start.2 .outside .outside (by simp) others tail
        intro raw member
        rw [← same, mem_cons] at member
        rcases member with here | further
        · rw [here]
          exact fresh read rfl
        · exact rest raw further
  | plain d rest quote slash high later ih =>
    cases standing with
    | outside =>
      cases piece with
      | nil =>
        rw [literals, Option.some.injEq] at found
        simp [← found]
      | cons e piece =>
        rw [cons_prefix_cons] at start
        rw [start.1, literals_outside_plain d piece quote slash] at found
        exact ih piece start.2 .outside .outside (by simp) raws found
  | escaped d rest low high later ih =>
    cases standing with
    | outside =>
      cases piece with
      | nil =>
        rw [literals, Option.some.injEq] at found
        simp [← found]
      | cons e piece =>
        rw [cons_prefix_cons] at start
        rw [start.1, literals_outside_slash] at found
        exact absurd found (by simp)
  | closes rest later ih =>
    cases standing with
    | outside =>
      cases piece with
      | nil =>
        rw [literals, Option.some.injEq] at found
        simp [← found]
      | cons e piece =>
        rw [cons_prefix_cons] at start
        rw [start.1, literals_outside_quote] at found
        apply ih piece start.2 (.inside []) (.inside []) _ raws found
        intro read same c member
        rw [← Place.inside.inj same] at member
        exact absurd member not_mem_nil

theorem encoded_printable (whole : Encoded inside text) :
    ∀ c ∈ text, 32 ≤ c.toNat := by
  induction whole with
  | done => nofun
  | mark d rest marked _ ih => exact forall_mem_cons.mpr ⟨(isMark_facts d marked).2.2.2.1, ih⟩
  | plain d rest _ _ high _ ih => exact forall_mem_cons.mpr ⟨high, ih⟩
  | escaped d rest low _ _ ih =>
    exact forall_mem_cons.mpr ⟨by decide, forall_mem_cons.mpr ⟨low, ih⟩⟩
  | opens rest _ ih | closes rest _ ih => exact forall_mem_cons.mpr ⟨by decide, ih⟩

theorem encoded_splitlines (before after : List Char) (c : Char)
    (unbroken : Unbroken before) (ends : isLineBreak c = true)
    (text : Encoded inside (before ++ c :: after)) :
    splitlines (before ++ c :: after) = before :: splitlines after := by
  apply splitlines_break before after c unbroken ends
  rintro rfl
  have high := encoded_printable inside _ text '\r' (by simp)
  exact absurd high (by decide)

theorem inner_lines (whole : Encoded true text) :
    ∀ line ∈ splitlines text, ∃ later, Encoded true later ∧ line <+: later := by
  induction size : text.length using Nat.strongRecOn generalizing text with
  | ind bound ih =>
    intro line member
    by_cases unbroken : Unbroken text
    · by_cases filled : text = []
      · subst filled
        simp [splitlines] at member
      · rw [splitlines_last text unbroken filled, mem_singleton] at member
        exact ⟨text, whole, member ▸ prefix_refl text⟩
    · rcases first_break text unbroken with ⟨before, c, after, rfl, plain, ends⟩
      rw [encoded_splitlines true before after c plain ends whole] at member
      rcases mem_cons.mp member with rfl | later
      · exact ⟨_, whole, prefix_append _ _⟩
      · have inner := (encoded_break true before after c ends whole).1
        have shorter : after.length < bound := by
          rw [← size, length_append, length_cons]
          omega
        exact ih after.length shorter after inner rfl line later

section Decoding

variable (loads : List Char → Option Json) (lexical : Lexical loads)

include lexical

theorem loads_cut (before after : List Char) (c : Char) (ends : isLineBreak c = true)
    (text : Encoded false (before ++ c :: after)) : loads before = none := by
  have open' := (encoded_break false before after c ends text).2 .outside .outside
  cases found : loads before with
  | none => rfl
  | some value =>
    have read := lexical before value found
    cases value <;> simp [keysRead, open'] at read

theorem loads_inner (text piece : List Char) (whole : Encoded true text) (start : piece <+: text)
    (fields : List (String × Json)) (found : loads piece = some (.obj fields)) :
    ∀ field ∈ fields, 'p' ∉ field.1.toList := by
  intro field member letter
  have read := lexical piece _ found
  cases parsed : literals .outside piece with
  | none => simp [keysRead, parsed] at read
  | some raws =>
    simp only [keysRead, parsed, all_eq_true, any_eq_true] at read
    rcases read field member with ⟨raw, held, same⟩
    have between := literals_swapped true text piece whole start .outside .outside (by simp)
      raws parsed raw held
    simp only [Bool.or_eq_true, contains_eq_mem, decide_eq_true_eq, beq_iff_eq] at same
    rcases same with slash | same
    · exact absurd (between _ slash) (by decide)
    · rw [← same] at letter
      exact absurd (between _ letter) (by decide)

end Decoding

end SourceLens.JsonText
