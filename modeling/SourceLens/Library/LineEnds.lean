import Mathlib.Data.List.Basic

/-! Lists cut into lines, where what follows an item may decide whether it ends its line, and two
ways of cutting one list compared. -/

namespace SourceLens.LineEnds

open List

variable {Item : Type}

abbrev Ends (Item : Type) := Item → List Item → Bool

def pushItem (item : Item) : List (List Item) → List (List Item)
  | [] => [[item]]
  | line :: lines => (item :: line) :: lines

def linesBy (ends : Ends Item) : List Item → List (List Item)
  | [] => []
  | item :: rest =>
    if ends item rest then [item] :: linesBy ends rest else pushItem item (linesBy ends rest)

def lineAt (ends : Ends Item) (items : List Item) (index : Nat) : Option (List Item × List Item) :=
  (linesBy ends items)[index]?.map fun line => (((linesBy ends items).take index).flatten, line)

def countEnds (ends : Ends Item) : List Item → List Item → Nat
  | [], _ => 0
  | item :: front, back => countEnds ends front back + if ends item (front ++ back) then 1 else 0

/-- The last of the first items, if there is one, is of the kind. -/
def LastHas (kind : Ends Item) : List Item → List Item → Prop
  | [], _ => True
  | [item], back => kind item back = true
  | _ :: next :: front, back => LastHas kind (next :: front) back

def InnerHave (kind : Ends Item) : List Item → List Item → Prop
  | [], _ => True
  | [_], _ => True
  | item :: next :: front, back =>
    kind item (next :: front ++ back) = true ∧ InnerHave kind (next :: front) back

instance decidableLastHas (kind : Ends Item) :
    (front back : List Item) → Decidable (LastHas kind front back)
  | [], _ => .isTrue trivial
  | [item], back => inferInstanceAs (Decidable (kind item back = true))
  | _ :: next :: front, back => decidableLastHas kind (next :: front) back

instance decidableInnerHave (kind : Ends Item) :
    (front back : List Item) → Decidable (InnerHave kind front back)
  | [], _ => .isTrue trivial
  | [_], _ => .isTrue trivial
  | item :: next :: front, back =>
    let _ := decidableInnerHave kind (next :: front) back
    inferInstanceAs (Decidable (kind item (next :: front ++ back) = true ∧
      InnerHave kind (next :: front) back))

/-- The line between the front and the back is the line of the index. -/
structure IsLine (ends : Ends Item) (index : Nat) (front line back : List Item) : Prop where
  filled : line ≠ []
  counted : countEnds ends front (line ++ back) = index
  opened : LastHas ends front (line ++ back)
  inner : InnerHave (fun item rest => !ends item rest) line back
  closed : back = [] ∨ LastHas ends line back

variable {ends first second : Ends Item} {item : Item} {items rest front line back : List Item}
  {index : Nat}

theorem linesBy_ended (ended : ends item rest = true) :
    linesBy ends (item :: rest) = [item] :: linesBy ends rest := by
  rw [linesBy, if_pos ended]

theorem linesBy_running (running : ends item rest = false) :
    linesBy ends (item :: rest) = pushItem item (linesBy ends rest) := by
  rw [linesBy, if_neg (by simp [running])]

theorem lineAt_ended_zero (ended : ends item rest = true) :
    lineAt ends (item :: rest) 0 = some ([], [item]) := by
  simp [lineAt, linesBy_ended ended]

theorem lineAt_ended_succ (ended : ends item rest = true) :
    lineAt ends (item :: rest) (index + 1) =
      (lineAt ends rest index).map fun found => (item :: found.1, found.2) := by
  simp only [lineAt, linesBy_ended ended, getElem?_cons_succ, Option.map_map]
  rfl

theorem lineAt_running_zero (running : ends item rest = false) :
    lineAt ends (item :: rest) 0 =
      some ([], item :: ((lineAt ends rest 0).map Prod.snd).getD []) := by
  cases lines : linesBy ends rest with
  | nil => simp [lineAt, linesBy_running running, lines, pushItem]
  | cons line later => simp [lineAt, linesBy_running running, lines, pushItem]

theorem lineAt_running_succ (running : ends item rest = false) :
    lineAt ends (item :: rest) (index + 1) =
      (lineAt ends rest (index + 1)).map fun found => (item :: found.1, found.2) := by
  cases lines : linesBy ends rest with
  | nil => simp [lineAt, linesBy_running running, lines, pushItem]
  | cons line later =>
    simp only [lineAt, linesBy_running running, lines, pushItem, getElem?_cons_succ,
      Option.map_map]
    rfl

theorem lineAt_zero_front (found : lineAt ends items 0 = some (front, line)) : front = [] := by
  simp only [lineAt, Option.map_eq_some_iff, Prod.mk.injEq] at found
  obtain ⟨_, _, empty, _⟩ := found
  exact empty.symm

theorem lastHas_cons (kind : Ends Item) (last : LastHas kind (item :: front) back) :
    LastHas kind front back := by
  cases front with
  | nil => trivial
  | cons next front => exact last

theorem lastHas_push (kind : Ends Item) (filled : front ≠ []) (last : LastHas kind front back) :
    LastHas kind (item :: front) back := by
  cases front with
  | nil => exact absurd rfl filled
  | cons next front => exact last

theorem countEnds_pos (filled : front ≠ []) (last : LastHas ends front back) :
    0 < countEnds ends front back := by
  induction front with
  | nil => exact absurd rfl filled
  | cons item front ih =>
    cases front with
    | nil =>
      have ended : ends item back = true := last
      simp [countEnds, ended]
    | cons next front =>
      have later := ih (cons_ne_nil _ _) last
      rw [countEnds]
      omega

theorem IsLine.behind_end (ended : ends item (front ++ (line ++ back)) = true)
    (found : IsLine ends index front line back) : IsLine ends (index + 1) (item :: front) line back where
  filled := found.filled
  counted := by rw [countEnds, if_pos ended, found.counted]
  opened := by
    cases front with
    | nil => exact ended
    | cons next front => exact found.opened
  inner := found.inner
  closed := found.closed

theorem IsLine.behind_running (running : ends item (front ++ (line ++ back)) = false)
    (found : IsLine ends (index + 1) front line back) :
    IsLine ends (index + 1) (item :: front) line back where
  filled := found.filled
  counted := by rw [countEnds, if_neg (by simp [running]), found.counted, Nat.add_zero]
  opened := by
    apply lastHas_push ends _ found.opened
    intro empty
    have none := found.counted
    rw [empty] at none
    exact absurd none (Nat.succ_ne_zero index).symm
  inner := found.inner
  closed := found.closed

theorem IsLine.longer (running : ends item (line ++ back) = false)
    (found : IsLine ends 0 [] line back) : IsLine ends 0 [] (item :: line) back where
  filled := cons_ne_nil _ _
  counted := rfl
  opened := trivial
  inner := by
    cases line with
    | nil => trivial
    | cons next line => exact ⟨by simpa using running, found.inner⟩
  closed := found.closed.imp_right (lastHas_push ends found.filled)

theorem lineAt_sound (items : List Item) :
    ∀ index front line, lineAt ends items index = some (front, line) →
      ∃ back, items = front ++ (line ++ back) ∧ IsLine ends index front line back := by
  induction items with
  | nil =>
    intro index front line found
    simp [lineAt, linesBy] at found
  | cons item rest ih =>
    intro index front line found
    cases shape : ends item rest with
    | true =>
      cases index with
      | zero =>
        rw [lineAt_ended_zero shape, Option.some.injEq, Prod.mk.injEq] at found
        obtain ⟨rfl, rfl⟩ := found
        exact ⟨rest, rfl, cons_ne_nil _ _, rfl, trivial, trivial, .inr shape⟩
      | succ index =>
        rw [lineAt_ended_succ shape, Option.map_eq_some_iff] at found
        obtain ⟨⟨before, other⟩, later, same⟩ := found
        cases same
        obtain ⟨back, whole, isLine⟩ := ih index before other later
        rw [whole] at shape
        exact ⟨back, by rw [whole]; rfl, isLine.behind_end shape⟩
    | false =>
      cases index with
      | zero =>
        rw [lineAt_running_zero shape, Option.some.injEq, Prod.mk.injEq] at found
        obtain ⟨rfl, rfl⟩ := found
        cases later : lineAt ends rest 0 with
        | none =>
          have last : rest = [] := by
            cases rest with
            | nil => rfl
            | cons next rest =>
              cases shape : ends next rest with
              | true =>
                rw [lineAt_ended_zero shape] at later
                cases later
              | false =>
                rw [lineAt_running_zero shape] at later
                cases later
          exact ⟨[], by simp [last], cons_ne_nil _ _, rfl, trivial, trivial, .inl rfl⟩
        | some pair =>
          obtain ⟨before, other⟩ := pair
          have empty : before = [] := lineAt_zero_front later
          obtain ⟨back, whole, isLine⟩ := ih 0 before other later
          subst empty
          rw [whole] at shape
          exact ⟨back, by rw [whole]; rfl, isLine.longer shape⟩
      | succ index =>
        rw [lineAt_running_succ shape, Option.map_eq_some_iff] at found
        obtain ⟨⟨before, other⟩, later, same⟩ := found
        cases same
        obtain ⟨back, whole, isLine⟩ := ih (index + 1) before other later
        rw [whole] at shape
        exact ⟨back, by rw [whole]; rfl, isLine.behind_running shape⟩

theorem lineAt_first (filled : line ≠ []) (inner : InnerHave (fun item rest => !ends item rest) line back)
    (closed : back = [] ∨ LastHas ends line back) :
    lineAt ends (line ++ back) 0 = some ([], line) := by
  induction line with
  | nil => exact absurd rfl filled
  | cons item line ih =>
    cases line with
    | nil =>
      cases shape : ends item back with
      | true => exact lineAt_ended_zero shape
      | false =>
        rcases closed with empty | last
        · subst empty
          rw [singleton_append, lineAt_running_zero shape]
          rfl
        · exact absurd last (by simp [LastHas, shape])
    | cons next line =>
      have running : ends item (next :: line ++ back) = false := by simpa using inner.1
      have later := ih (cons_ne_nil _ _) inner.2 closed
      rw [cons_append, lineAt_running_zero running, later]
      rfl

theorem lineAt_complete (found : IsLine ends index front line back) :
    lineAt ends (front ++ (line ++ back)) index = some (front, line) := by
  induction front generalizing index with
  | nil =>
    have zero : index = 0 := found.counted.symm
    subst zero
    exact lineAt_first found.filled found.inner found.closed
  | cons item front ih =>
    have opened := lastHas_cons ends found.opened
    have counted := found.counted
    cases shape : ends item (front ++ (line ++ back)) with
    | true =>
      rw [countEnds, if_pos shape] at counted
      subst counted
      rw [cons_append, lineAt_ended_succ shape,
        ih ⟨found.filled, rfl, opened, found.inner, found.closed⟩]
      rfl
    | false =>
      rw [countEnds, if_neg (by simp [shape]), Nat.add_zero] at counted
      have later : front ≠ [] := by
        intro empty
        subst empty
        exact absurd found.opened (by simpa [LastHas] using shape)
      have positive := countEnds_pos later opened
      obtain ⟨before, succ⟩ := Nat.exists_eq_add_one_of_ne_zero (by omega : index ≠ 0)
      subst succ
      rw [cons_append, lineAt_running_succ shape,
        ih ⟨found.filled, counted, opened, found.inner, found.closed⟩]
      rfl

theorem lineAt_iff :
    lineAt ends items index = some (front, line) ↔
      ∃ back, items = front ++ (line ++ back) ∧ IsLine ends index front line back := by
  constructor
  · exact lineAt_sound items index front line
  · intro found
    obtain ⟨back, whole, isLine⟩ := found
    rw [whole]
    exact lineAt_complete isLine

def onlyIn (first second : Ends Item) : Ends Item := fun item rest => first item rest && !second item rest

/-- Before the line there are as many items of the one kind as of the other; the items at its two
ends are not of the other kind, and those within it are not of the one. -/
structure Aligned (one other : Ends Item) (front line back : List Item) : Prop where
  balanced : countEnds one front (line ++ back) = countEnds other front (line ++ back)
  before : LastHas (fun item rest => !other item rest) front (line ++ back)
  within : InnerHave (fun item rest => !one item rest) line back
  behind : back = [] ∨ LastHas (fun item rest => !other item rest) line back

theorem countEnds_onlyIn (first second : Ends Item) (front back : List Item) :
    countEnds first front back + countEnds (onlyIn second first) front back =
      countEnds second front back + countEnds (onlyIn first second) front back := by
  induction front with
  | nil => rfl
  | cons item front ih =>
    simp only [countEnds, onlyIn] at ih ⊢
    rcases Bool.eq_false_or_eq_true (first item (front ++ back)) with one | one <;>
      rcases Bool.eq_false_or_eq_true (second item (front ++ back)) with other | other <;>
      simp only [one, other, Bool.not_true, Bool.not_false, Bool.and_true, Bool.and_false,
        if_true, Bool.false_eq_true, if_false] <;>
      omega

theorem lastHas_iff (last : LastHas second front back) :
    LastHas first front back ↔ LastHas (fun item rest => !onlyIn second first item rest) front back := by
  induction front with
  | nil => exact Iff.rfl
  | cons item front ih =>
    cases front with
    | nil =>
      have ended : second item back = true := last
      simp [LastHas, onlyIn, ended]
    | cons next front => exact ih last

theorem innerHave_iff (inner : InnerHave (fun item rest => !second item rest) line back) :
    InnerHave (fun item rest => !first item rest) line back ↔
      InnerHave (fun item rest => !onlyIn first second item rest) line back := by
  induction line with
  | nil => exact Iff.rfl
  | cons item line ih =>
    cases line with
    | nil => exact Iff.rfl
    | cons next line =>
      have running : second item (next :: line ++ back) = false := by simpa using inner.1
      simp only [InnerHave, onlyIn, running, Bool.not_false, Bool.and_true]
      exact and_congr_right fun _ => ih inner.2

theorem isLine_iff (found : IsLine second index front line back) :
    IsLine first index front line back ↔
      Aligned (onlyIn first second) (onlyIn second first) front line back := by
  have counts := countEnds_onlyIn first second front (line ++ back)
  have counted := found.counted
  constructor
  · intro same
    have also := same.counted
    exact {
      balanced := by omega
      before := (lastHas_iff found.opened).mp same.opened
      within := (innerHave_iff found.inner).mp same.inner
      behind := by
        rcases found.closed with empty | closed
        · exact .inl empty
        · exact same.closed.imp_right (lastHas_iff closed).mp }
  · intro aligned
    have balanced := aligned.balanced
    exact {
      filled := found.filled
      counted := by omega
      opened := (lastHas_iff found.opened).mpr aligned.before
      inner := (innerHave_iff found.inner).mpr aligned.within
      closed := by
        rcases found.closed with empty | closed
        · exact .inl empty
        · exact aligned.behind.imp_right (lastHas_iff closed).mpr }

theorem lineAt_same_iff (first : Ends Item) (found : IsLine second index front line back) :
    lineAt first (front ++ (line ++ back)) index = some (front, line) ↔
      Aligned (onlyIn first second) (onlyIn second first) front line back := by
  rw [← isLine_iff found, lineAt_iff]
  constructor
  · intro same
    obtain ⟨other, whole, isLine⟩ := same
    rw [append_cancel_left_eq, append_cancel_left_eq] at whole
    rw [whole]
    exact isLine
  · exact fun isLine => ⟨back, rfl, isLine⟩

end SourceLens.LineEnds
