import Mathlib.Data.List.Infix
import Mathlib.Logic.Relation

/-! Substitution of the delimited occurrences of a word, from left to right: an occurrence counts
where no item of the alphabet stands on either side of it. -/

namespace SourceLens.DelimitedSub

open List Option

variable {Item : Type} [DecidableEq Item]

def outside (inside : Item → Bool) (item : Option Item) : Bool := item.all fun other => !inside other

def matchesAt (inside : Item → Bool) (word : List Item) (before : Option Item) (text : List Item) :
    Bool :=
  outside inside before && word.isPrefixOf text && outside inside (text.drop word.length).head?

/-- The scan behind an item; `skip` items belong to the last match. -/
def replaceFrom (inside : Item → Bool) (word mark : List Item) :
    Option Item → Nat → List Item → List Item
  | _, _, [] => []
  | _, skip + 1, item :: rest => replaceFrom inside word mark (some item) skip rest
  | before, 0, item :: rest =>
    if matchesAt inside word before (item :: rest) then
      mark ++ replaceFrom inside word mark (some item) (word.length - 1) rest
    else item :: replaceFrom inside word mark (some item) 0 rest

def replace (inside : Item → Bool) (word mark text : List Item) : List Item :=
  replaceFrom inside word mark none 0 text

def Delimited (inside : Item → Bool) (word text : List Item) : Prop :=
  ∃ before after, text = before ++ (word ++ after) ∧ outside inside before.getLast? = true ∧
    outside inside after.head? = true

def occursFrom (inside : Item → Bool) (word : List Item) : Option Item → List Item → Bool
  | before, [] => matchesAt inside word before []
  | before, item :: rest =>
    matchesAt inside word before (item :: rest) || occursFrom inside word (some item) rest

inductive Step (inside : Item → Bool) (word mark : List Item) : List Item → List Item → Prop
  | one (before after : List Item) : outside inside before.getLast? = true →
      outside inside after.head? = true →
      Step inside word mark (before ++ (word ++ after)) (before ++ (mark ++ after))

variable {inside : Item → Bool} {word mark text rest part : List Item} {item : Item}
  {before : Option Item}

omit [DecidableEq Item] in
theorem Delimited.within (delimited : Delimited inside word text) : word <:+: text := by
  obtain ⟨front, back, whole, -, -⟩ := delimited
  exact ⟨front, back, by rw [whole, append_assoc]⟩

omit [DecidableEq Item] in
theorem delimited_self (text : List Item) : Delimited inside text text :=
  ⟨[], [], by simp, rfl, rfl⟩

theorem replaceFrom_skip (before : Option Item) (skip : Nat) (text : List Item)
    (within : skip ≤ text.length) :
    replaceFrom inside word mark before skip text =
      replaceFrom inside word mark ((text.take skip).getLast?.or before) 0 (text.drop skip) := by
  induction skip generalizing before text with
  | zero => simp
  | succ skip ih =>
    cases text with
    | nil => exact absurd within (by simp)
    | cons item rest =>
      rw [replaceFrom, ih (some item) rest (by simpa using within), take_succ_cons,
        drop_succ_cons, List.getLast?_cons]
      cases (rest.take skip).getLast? <;> rfl

theorem matchesAt_iff : matchesAt inside word before text = true ↔
    outside inside before = true ∧ ∃ after, text = word ++ after ∧ outside inside after.head? = true := by
  simp only [matchesAt, Bool.and_eq_true, isPrefixOf_iff_prefix]
  constructor
  · intro found
    obtain ⟨⟨left, after, rfl⟩, right⟩ := found
    rw [drop_left] at right
    exact ⟨left, after, rfl, right⟩
  · intro found
    obtain ⟨left, after, rfl, right⟩ := found
    rw [drop_left]
    exact ⟨⟨left, prefix_append word after⟩, right⟩

theorem replaceFrom_match (filled : word ≠ []) (found : matchesAt inside word before (word ++ rest) = true) :
    replaceFrom inside word mark before 0 (word ++ rest) =
      mark ++ replaceFrom inside word mark word.getLast? 0 rest := by
  cases word with
  | nil => exact absurd rfl filled
  | cons item word =>
    rw [cons_append] at found ⊢
    rw [replaceFrom, if_pos found, replaceFrom_skip _ _ _ (by simp)]
    simp only [length_cons, Nat.add_sub_cancel, take_left, drop_left,
      List.getLast?_cons]
    cases word.getLast? <;> rfl

theorem replaceFrom_keep (missing : matchesAt inside word before (item :: rest) = false) :
    replaceFrom inside word mark before 0 (item :: rest) =
      item :: replaceFrom inside word mark (some item) 0 rest := by
  rw [replaceFrom, if_neg (by simp [missing])]

omit [DecidableEq Item] in
theorem getLast?_cons_or (front : List Item) (item : Item) (before : Option Item) :
    (item :: front).getLast?.or before = front.getLast?.or (some item) := by
  rw [List.getLast?_cons]
  cases front.getLast? <;> rfl

omit [DecidableEq Item] in
theorem getLast?_append_or (front back : List Item) (before : Option Item) :
    (front ++ back).getLast?.or before = back.getLast?.or (front.getLast?.or before) := by
  rw [List.getLast?_append, Option.or_assoc]

theorem replaceFrom_clean (before : Option Item) (text : List Item)
    (clean : ∀ front back, text = front ++ back →
      matchesAt inside word (front.getLast?.or before) back = false) :
    replaceFrom inside word mark before 0 text = text := by
  induction text generalizing before with
  | nil => rfl
  | cons item rest ih =>
    have missing : matchesAt inside word before (item :: rest) = false := clean [] (item :: rest) rfl
    rw [replaceFrom_keep missing, ih]
    intro front back whole
    have later := clean (item :: front) back (by rw [whole]; rfl)
    rwa [getLast?_cons_or] at later

theorem replace_clean (mark : List Item) (clean : ¬Delimited inside word text) :
    replace inside word mark text = text := by
  apply replaceFrom_clean
  intro front back whole
  rw [Bool.eq_false_iff]
  intro found
  rw [or_none] at found
  obtain ⟨left, after, rfl, right⟩ := matchesAt_iff.mp found
  exact clean ⟨front, after, whole, left, right⟩

theorem occursFrom_iff : ∀ (before : Option Item) (text : List Item),
    occursFrom inside word before text = true ↔
      ∃ front back, text = front ++ back ∧ matchesAt inside word (front.getLast?.or before) back = true := by
  intro before text
  induction text generalizing before with
  | nil =>
    constructor
    · exact fun found => ⟨[], [], rfl, found⟩
    · intro found
      obtain ⟨front, back, whole, found⟩ := found
      obtain ⟨rfl, rfl⟩ := append_eq_nil_iff.mp whole.symm
      exact found
  | cons item rest ih =>
    rw [occursFrom, Bool.or_eq_true, ih]
    constructor
    · intro either
      rcases either with here | ⟨front, back, whole, later⟩
      · exact ⟨[], item :: rest, rfl, here⟩
      · exact ⟨item :: front, back, by rw [whole]; rfl, by rwa [getLast?_cons_or]⟩
    · intro found
      obtain ⟨front, back, whole, found⟩ := found
      cases front with
      | nil =>
        rw [nil_append] at whole
        rw [← whole] at found
        exact .inl found
      | cons first front =>
        obtain ⟨rfl, later⟩ := List.cons.inj whole
        rw [getLast?_cons_or] at found
        exact .inr ⟨front, back, later, found⟩

theorem occursFrom_delimited (text : List Item) :
    occursFrom inside word none text = true ↔ Delimited inside word text := by
  rw [occursFrom_iff]
  constructor
  · intro found
    obtain ⟨front, back, whole, found⟩ := found
    rw [or_none] at found
    obtain ⟨left, after, shape, right⟩ := matchesAt_iff.mp found
    exact ⟨front, after, by rw [whole, shape], left, right⟩
  · intro delimited
    obtain ⟨front, after, whole, left, right⟩ := delimited
    refine ⟨front, word ++ after, whole, ?_⟩
    rw [or_none]
    exact matchesAt_iff.mpr ⟨left, after, rfl, right⟩

instance decidableDelimited (inside : Item → Bool) (word text : List Item) :
    Decidable (Delimited inside word text) :=
  decidable_of_iff _ (occursFrom_delimited text)

/-- Where a part of the result stood in the text: it was no match, and next to it stood what stands
there now, or the word. -/
structure Kept (inside : Item → Bool) (word : List Item) (before : Option Item)
    (part front back shownFront shownBack : List Item) : Prop where
  missing : matchesAt inside word (front.getLast?.or before) (part ++ back) = false
  first : shownFront = [] → front = []
  left : front.getLast?.or before = shownFront.getLast?.or before ∨
    (∃ other, front = other ++ word) ∧ outside inside part.head? = true
  right : back.head? = shownBack.head? ∨
    (∃ other, back = word ++ other) ∧ outside inside part.getLast? = true

theorem replaceFrom_head (before : Option Item) (text : List Item) :
    text.head? = (replaceFrom inside word mark before 0 text).head? ∨
      (∃ other, text = word ++ other) ∧ outside inside before = true := by
  cases text with
  | nil => exact .inl rfl
  | cons item rest =>
    cases found : matchesAt inside word before (item :: rest) with
    | false =>
      rw [replaceFrom_keep found]
      exact .inl rfl
    | true =>
      obtain ⟨left, after, whole, -⟩ := matchesAt_iff.mp found
      exact .inr ⟨⟨after, whole⟩, left⟩

omit [DecidableEq Item] in
theorem behind_mark {shownFront shownBack later : List Item} (filled : part ≠ [])
    (fresh : ∀ item ∈ part, item ∉ mark) (shown : mark ++ later = shownFront ++ (part ++ shownBack)) :
    ∃ behind, shownFront = mark ++ behind ∧ later = behind ++ (part ++ shownBack) := by
  rcases append_eq_append_iff.mp shown with ⟨behind, front, rest⟩ | ⟨excess, split, rest⟩
  · exact ⟨behind, front, rest⟩
  · cases excess with
    | nil => exact ⟨[], by simpa using split.symm, by simpa using rest.symm⟩
    | cons first excess =>
      cases part with
      | nil => exact absurd rfl filled
      | cons item part =>
        have same : item = first := (List.cons.inj rest).1
        exact absurd (by rw [split, same]; simp) (fresh item mem_cons_self)

theorem Kept.behind_word {front back shownBack behind : List Item} (filled : word ≠ [])
    (marked : mark ≠ []) (some_ : part ≠ [])
    (right : outside inside (front ++ (part ++ back)).head? = true)
    (kept : Kept inside word word.getLast? part front back behind shownBack) :
    Kept inside word before part (word ++ front) back (mark ++ behind) shownBack where
  missing := by
    have missing := kept.missing
    rwa [getLast?_append_or, List.getLast?_eq_some_getLast filled, some_or,
      ← List.getLast?_eq_some_getLast filled]
  first := fun none => absurd (append_eq_nil_iff.mp none).1 marked
  left := by
    rcases kept.left with same | ⟨⟨other, shape⟩, outer⟩
    · cases behind with
      | nil =>
        have empty := kept.first rfl
        subst empty
        have head : outside inside part.head? = true := by
          cases part with
          | nil => exact absurd rfl some_
          | cons item part => exact right
        exact .inr ⟨⟨[], by simp⟩, head⟩
      | cons item behind =>
        refine .inl ?_
        rw [getLast?_append_or, getLast?_append_or, List.getLast?_eq_some_getLast filled,
          some_or, ← List.getLast?_eq_some_getLast filled, same, List.getLast?_cons]
        rfl
    · exact .inr ⟨⟨word ++ other, by rw [shape, append_assoc]⟩, outer⟩
  right := kept.right

theorem Kept.behind_item {front back shownFront shownBack : List Item}
    (kept : Kept inside word (some item) part front back shownFront shownBack) :
    Kept inside word before part (item :: front) back (item :: shownFront) shownBack where
  missing := by
    rw [getLast?_cons_or]
    exact kept.missing
  first := nofun
  left := by
    rcases kept.left with same | ⟨⟨other, shape⟩, outer⟩
    · exact .inl (by rw [getLast?_cons_or, getLast?_cons_or, same])
    · exact .inr ⟨⟨item :: other, by rw [shape]; rfl⟩, outer⟩
  right := kept.right

theorem replaceFrom_kept (filled : word ≠ []) (marked : mark ≠ []) :
    ∀ (size : Nat) (before : Option Item) (text part shownFront shownBack : List Item),
      text.length ≤ size → part ≠ [] → (∀ item ∈ part, item ∉ mark) →
      replaceFrom inside word mark before 0 text = shownFront ++ (part ++ shownBack) →
      ∃ front back, text = front ++ (part ++ back) ∧
        Kept inside word before part front back shownFront shownBack := by
  intro size
  induction size with
  | zero =>
    intro before text part shownFront shownBack within some_ _ shown
    rw [length_eq_zero_iff.mp (Nat.le_zero.mp within)] at shown
    exact absurd (append_eq_nil_iff.mp shown.symm).2 (by simp [some_])
  | succ size ih =>
    intro before text part shownFront shownBack within some_ fresh shown
    cases text with
    | nil => exact absurd (append_eq_nil_iff.mp shown.symm).2 (by simp [some_])
    | cons item rest =>
      have shorter : rest.length ≤ size := by simpa using within
      cases found : matchesAt inside word before (item :: rest) with
      | true =>
        obtain ⟨-, after, whole, right⟩ := matchesAt_iff.mp found
        have smaller : after.length ≤ size := by
          have lengths := congrArg List.length whole
          have positive := length_pos_of_ne_nil filled
          simp only [length_cons, length_append] at lengths
          omega
        rw [whole] at found
        rw [whole, replaceFrom_match filled found] at shown
        obtain ⟨behind, rfl, later⟩ := behind_mark some_ fresh shown
        obtain ⟨front, back, place, kept⟩ := ih _ after part behind shownBack smaller some_ fresh later
        rw [place] at right
        exact ⟨word ++ front, back, by rw [whole, place, append_assoc],
          kept.behind_word filled marked some_ right⟩
      | false =>
        rw [replaceFrom_keep found] at shown
        cases shownFront with
        | cons first shownFront =>
          obtain ⟨rfl, later⟩ := List.cons.inj shown
          obtain ⟨front, back, place, kept⟩ :=
            ih (some item) rest part shownFront shownBack shorter some_ fresh later
          exact ⟨item :: front, back, by rw [place]; rfl, kept.behind_item⟩
        | nil =>
          cases part with
          | nil => exact absurd rfl some_
          | cons first part =>
            obtain ⟨rfl, later⟩ := List.cons.inj shown
            cases part with
            | nil =>
              refine ⟨[], rest, rfl, found, fun _ => rfl, .inl rfl, ?_⟩
              rw [← show _ = shownBack from later]
              exact replaceFrom_head (some item) rest
            | cons second part =>
              obtain ⟨front, back, place, kept⟩ :=
                ih (some item) rest (second :: part) [] shownBack shorter (cons_ne_nil _ _)
                  (fun other member => fresh other (mem_cons_of_mem _ member)) later
              have empty := kept.first rfl
              subst empty
              subst place
              exact ⟨[], back, rfl, found, fun _ => rfl, .inl rfl, kept.right⟩

def Bounded (inside : Item → Bool) (word : List Item) : Prop :=
  outside inside word.head? = false ∧ outside inside word.getLast? = false

theorem infix_of_replace (filled : word ≠ []) (marked : mark ≠ []) (some_ : part ≠ [])
    (fresh : ∀ item ∈ part, item ∉ mark) (shown : part <:+: replace inside word mark text) :
    part <:+: text := by
  obtain ⟨front, back, whole⟩ := shown
  rw [append_assoc] at whole
  obtain ⟨before, after, place, -⟩ :=
    replaceFrom_kept filled marked text.length none text part front back le_rfl some_ fresh whole.symm
  exact ⟨before, after, by rw [place, append_assoc]⟩

theorem delimited_of_replace (filled : word ≠ []) (marked : mark ≠ []) (some_ : part ≠ [])
    (fresh : ∀ item ∈ part, item ∉ mark) (bounded : Bounded inside part)
    (delimited : Delimited inside part (replace inside word mark text)) :
    Delimited inside part text ∧ part ≠ word := by
  obtain ⟨shownFront, shownBack, shown, left, right⟩ := delimited
  obtain ⟨front, back, place, kept⟩ :=
    replaceFrom_kept filled marked text.length none text part shownFront shownBack le_rfl some_ fresh shown
  have leftOuter : outside inside front.getLast? = true := by
    rcases kept.left with same | ⟨-, outer⟩
    · rw [or_none, or_none] at same
      rw [same, left]
    · exact absurd outer (by simp [bounded.1])
  have rightOuter : outside inside back.head? = true := by
    rcases kept.right with same | ⟨-, outer⟩
    · rw [same, right]
    · exact absurd outer (by simp [bounded.2])
  constructor
  · exact ⟨front, back, place, leftOuter, rightOuter⟩
  · intro same
    have missing := kept.missing
    rw [or_none, same] at missing
    have found : matchesAt inside word front.getLast? (word ++ back) = true :=
      matchesAt_iff.mpr ⟨leftOuter, back, rfl, rightOuter⟩
    rw [missing] at found
    cases found

omit [DecidableEq Item] in
theorem outside_getLast (front : List Item) (marked : mark ≠ [])
    (plain : ∀ item ∈ mark, inside item = false) : outside inside (front ++ mark).getLast? = true := by
  rw [List.getLast?_append, List.getLast?_eq_some_getLast marked, some_or]
  simp [outside, plain _ (getLast_mem marked)]

theorem replaceFrom_steps (filled : word ≠ []) (marked : mark ≠ [])
    (plain : ∀ item ∈ mark, inside item = false) :
    ∀ (size : Nat) (before : Option Item) (front text : List Item), text.length ≤ size →
      (outside inside before = true → outside inside front.getLast? = true) →
      Relation.ReflTransGen (Step inside word mark) (front ++ text)
        (front ++ replaceFrom inside word mark before 0 text) := by
  intro size
  induction size with
  | zero =>
    intro before front text within _
    rw [length_eq_zero_iff.mp (Nat.le_zero.mp within)]
    exact .refl
  | succ size ih =>
    intro before front text within agrees
    cases text with
    | nil => exact .refl
    | cons item rest =>
      cases found : matchesAt inside word before (item :: rest) with
      | true =>
        obtain ⟨left, after, whole, right⟩ := matchesAt_iff.mp found
        have smaller : after.length ≤ size := by
          have lengths := congrArg List.length whole
          have positive := length_pos_of_ne_nil filled
          simp only [length_cons, length_append] at lengths within
          omega
        rw [whole] at found ⊢
        rw [replaceFrom_match filled found]
        have later := ih word.getLast? (front ++ mark) after smaller
          (fun _ => outside_getLast front marked plain)
        rw [append_assoc, append_assoc] at later
        exact .head (.one front after (agrees left) right) later
      | false =>
        rw [replaceFrom_keep found]
        have later := ih (some item) (front ++ [item]) rest (by simpa using within) (by simp)
        simpa using later

theorem replace_steps (filled : word ≠ []) (marked : mark ≠ [])
    (plain : ∀ item ∈ mark, inside item = false) (text : List Item) :
    Relation.ReflTransGen (Step inside word mark) text (replace inside word mark text) :=
  replaceFrom_steps filled marked plain text.length none [] text le_rfl id

end SourceLens.DelimitedSub
