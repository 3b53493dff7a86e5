import Mathlib.Data.List.Infix
import Mathlib.Data.List.TakeWhile

/-! Substitution of the matches of a pattern in a text, from left to right, and when no match
is left behind. -/

namespace SourceLens.TextSub

open List

abbrev Text := List Char

/-- At the start of a text: what replaces the match, and its length. -/
abbrev Matcher := Text → Option (Text × Nat)

/-- The scan behind `skip` characters that belong to the last match. -/
def subFrom (find : Matcher) : Nat → Text → Text
  | _, [] => []
  | skip + 1, _ :: rest => subFrom find skip rest
  | 0, c :: rest =>
    match find (c :: rest) with
    | some (replacement, length) => replacement ++ subFrom find (length - 1) rest
    | none => c :: subFrom find 0 rest

def sub (find : Matcher) (text : Text) : Text := subFrom find 0 text

def Occurs (find : Matcher) (text : Text) : Prop :=
  ∃ before after, text = before ++ after ∧ (find after).isSome = true

variable {find : Matcher} {text rest : Text} {c : Char} {skip : Nat}

theorem occurs_cons : Occurs find (c :: text) ↔
    (find (c :: text)).isSome = true ∨ Occurs find text := by
  constructor
  · rintro ⟨before, after, whole, found⟩
    cases before with
    | nil => exact .inl (by rwa [whole])
    | cons head before => exact .inr ⟨before, after, (List.cons.inj whole).2, found⟩
  · rintro (found | ⟨before, after, rfl, found⟩)
    · exact ⟨[], c :: text, rfl, found⟩
    · exact ⟨c :: before, after, rfl, found⟩

theorem not_occurs_nil (empty : find [] = none) : ¬ Occurs find [] := by
  rintro ⟨before, after, whole, found⟩
  obtain ⟨-, rfl⟩ := append_eq_nil_iff.mp whole.symm
  rw [empty] at found
  cases found

theorem not_occurs_append {part : Text} (clean : ¬ Occurs find text)
    (inert : ∀ c ∈ part, ∀ more, find (c :: more) = none) : ¬ Occurs find (part ++ text) := by
  induction part with
  | nil => exact clean
  | cons c part ih =>
    rw [cons_append, occurs_cons, inert c mem_cons_self]
    rintro (no | later)
    · cases no
    · exact ih (fun d member => inert d (mem_cons_of_mem _ member)) later

theorem subFrom_none (missing : find (c :: rest) = none) :
    subFrom find 0 (c :: rest) = c :: subFrom find 0 rest := by
  rw [subFrom, missing]

theorem subFrom_some {replacement : Text} {length : Nat}
    (found : find (c :: rest) = some (replacement, length)) :
    subFrom find 0 (c :: rest) = replacement ++ subFrom find (length - 1) rest := by
  rw [subFrom, found]

theorem sub_of_clean (clean : ¬ Occurs find text) : sub find text = text := by
  rw [sub]
  induction text with
  | nil => rfl
  | cons c rest ih =>
    rw [occurs_cons, not_or] at clean
    have missing : find (c :: rest) = none :=
      Option.isNone_iff_eq_none.mp (Option.isSome_eq_false_iff.mp (Bool.eq_false_iff.mpr clean.1))
    rw [subFrom_none missing, ih clean.2]

theorem sub_clean (empty : find [] = none)
    (inert : ∀ text replacement length, find text = some (replacement, length) →
      ∀ c ∈ replacement, ∀ more, find (c :: more) = none)
    (kept : ∀ c rest, find (c :: rest) = none → find (c :: subFrom find 0 rest) = none)
    (text : Text) : ¬ Occurs find (sub find text) := by
  have clean : ∀ skip, ¬ Occurs find (subFrom find skip text) := by
    induction text with
    | nil =>
      intro skip
      cases skip <;> exact not_occurs_nil empty
    | cons c rest ih =>
      intro skip
      cases skip with
      | succ skip => exact ih skip
      | zero =>
        cases found : find (c :: rest) with
        | none =>
          rw [subFrom_none found, occurs_cons, kept c rest found]
          rintro (no | later)
          · cases no
          · exact ih 0 later
        | some pair =>
          obtain ⟨replacement, length⟩ := pair
          rw [subFrom_some found]
          exact not_occurs_append (ih _) (inert _ _ _ found)
  exact clean 0

theorem mem_subFrom {d : Char} (member : d ∈ subFrom find skip text) :
    d ∈ text ∨ ∃ part replacement length,
      find part = some (replacement, length) ∧ d ∈ replacement := by
  induction text generalizing skip with
  | nil => cases skip <;> cases member
  | cons c rest ih =>
    have later : ∀ skip, d ∈ subFrom find skip rest → d ∈ c :: rest ∨ ∃ part replacement length,
        find part = some (replacement, length) ∧ d ∈ replacement :=
      fun skip inside => (ih inside).imp_left (mem_cons_of_mem c)
    cases skip with
    | succ skip => exact later skip member
    | zero =>
      cases found : find (c :: rest) with
      | none =>
        rw [subFrom_none found] at member
        cases mem_cons.mp member with
        | inl same => exact .inl (same ▸ mem_cons_self)
        | inr inside => exact later 0 inside
      | some pair =>
        obtain ⟨replacement, length⟩ := pair
        rw [subFrom_some found] at member
        cases mem_append.mp member with
        | inl inside => exact .inr ⟨_, replacement, length, found, inside⟩
        | inr inside => exact later _ inside

/-- The reader takes a prefix of allowed characters, whatever follows it. -/
def Reads (read : Text → Option Text) (allowed : Char → Bool) : Prop :=
  ∀ text rest, read text = some rest → ∃ word, text = word ++ rest ∧
    (∀ c ∈ word, allowed c = true) ∧ ∀ other, read (word ++ other) = some other

variable {read next : Text → Option Text} {allowed : Char → Bool}

theorem Reads.bind (one : Reads read allowed) (two : Reads next allowed) :
    Reads (fun text => (read text).bind next) allowed := by
  intro text rest taken
  obtain ⟨middle, first, second⟩ := Option.bind_eq_some_iff.mp taken
  obtain ⟨word, rfl, wordAllowed, steady⟩ := one text middle first
  obtain ⟨more, rfl, moreAllowed, steadyToo⟩ := two middle rest second
  refine ⟨word ++ more, (append_assoc ..).symm, ?_, ?_⟩
  · intro c member
    cases mem_append.mp member with
    | inl here => exact wordAllowed c here
    | inr there => exact moreAllowed c there
  · intro other
    simp only [append_assoc, steady, Option.bind_some, steadyToo]

def literal (same : Char → Char → Bool) : List Char → Text → Option Text
  | [], text => some text
  | _ :: _, [] => none
  | p :: pattern, c :: text => if same p c then literal same pattern text else none

variable {same : Char → Char → Bool} {pattern : List Char}

theorem literal_reads (fits : ∀ p ∈ pattern, ∀ c, same p c = true → allowed c = true) :
    Reads (literal same pattern) allowed := by
  induction pattern with
  | nil => exact fun text rest taken => ⟨[], Option.some.inj taken, fun _ no => (nomatch no), fun _ => rfl⟩
  | cons p pattern ih =>
    intro text rest taken
    cases text with
    | nil => cases taken
    | cons c text =>
      rw [literal] at taken
      split at taken
      · rename_i agrees
        obtain ⟨word, rfl, wordAllowed, steady⟩ :=
          ih (fun q member => fits q (mem_cons_of_mem _ member)) text rest taken
        refine ⟨c :: word, rfl, ?_, ?_⟩
        · intro d member
          cases mem_cons.mp member with
          | inl here => exact here ▸ fits p mem_cons_self c agrees
          | inr there => exact wordAllowed d there
        · intro other
          rw [cons_append, literal, if_pos agrees, steady]
      · cases taken

theorem Reads.dropWhile {skip : Char → Bool} (reads : Reads read allowed)
    (skips : ∀ c, skip c = true → allowed c = true)
    (starts : ∀ text rest, read text = some rest → ∃ c more, text = c :: more ∧ skip c = false) :
    Reads (fun text => read (text.dropWhile skip)) allowed := by
  intro text rest taken
  obtain ⟨word, whole, wordAllowed, steady⟩ := reads _ rest taken
  obtain ⟨c, more, begins, stops⟩ := starts _ [] (append_nil word ▸ steady [])
  refine ⟨text.takeWhile skip ++ word, ?_, ?_, ?_⟩
  · rw [append_assoc, ← whole, takeWhile_append_dropWhile]
  · intro d member
    cases mem_append.mp member with
    | inl skipped => exact skips d (mem_takeWhile_imp skipped)
    | inr here => exact wordAllowed d here
  · intro other
    have dropped : ((text.takeWhile skip ++ word) ++ other).dropWhile skip = word ++ other := by
      rw [append_assoc, dropWhile_append_of_pos fun d => mem_takeWhile_imp, begins,
        cons_append, dropWhile_cons_of_neg (by rw [stops]; exact Bool.false_ne_true)]
    simp only [dropped, steady]

theorem subFrom_leading (marked : ∀ text replacement length,
      find text = some (replacement, length) → ∃ c more, replacement = c :: more ∧ allowed c = false)
    {word rest : Text} (wordAllowed : ∀ c ∈ word, allowed c = true)
    (whole : subFrom find 0 text = word ++ rest) : ∃ other, text = word ++ other := by
  induction text generalizing word with
  | nil =>
    obtain ⟨rfl, -⟩ := append_eq_nil_iff.mp whole.symm
    exact ⟨[], rfl⟩
  | cons c text ih =>
    cases word with
    | nil => exact ⟨c :: text, rfl⟩
    | cons head word =>
      cases found : find (c :: text) with
      | none =>
        rw [subFrom_none found] at whole
        obtain ⟨rfl, later⟩ := List.cons.inj whole
        obtain ⟨other, rfl⟩ := ih (fun d member => wordAllowed d (mem_cons_of_mem _ member)) later
        exact ⟨other, rfl⟩
      | some pair =>
        obtain ⟨replacement, length⟩ := pair
        obtain ⟨mark, more, rfl, other⟩ := marked _ _ _ found
        rw [subFrom_some found] at whole
        obtain ⟨rfl, -⟩ := List.cons.inj whole
        rw [wordAllowed mark mem_cons_self] at other
        cases other

end SourceLens.TextSub
