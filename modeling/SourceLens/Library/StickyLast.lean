import Mathlib.Data.List.TakeWhile

/-! The last of the values that arrive, unless one that stays came before: after it the others are not
looked at. -/

namespace SourceLens.StickyLast

variable {Value : Type*} [DecidableEq Value] (sticky : Value) (valid : Value → Bool)

def settle : Option Value → List Value → Option (Option Value)
  | held, [] => some held
  | held, value :: rest =>
    if held = some sticky then settle held rest
    else if valid value then settle (some value) rest
    else none

def Opened (values : List Value) : Prop :=
  ∀ value ∈ values.takeWhile fun value => decide (value ≠ sticky), valid value = true

variable {sticky valid} {held : Option Value} {value : Value} {values : List Value}

theorem settle_sticky : settle sticky valid (some sticky) values = some (some sticky) := by
  induction values with
  | nil => rfl
  | cons value rest ih =>
    rw [settle, if_pos rfl]
    exact ih

theorem opened_cons_sticky : Opened sticky valid (sticky :: values) := by
  intro value member
  simp at member

theorem opened_cons (other : value ≠ sticky) :
    Opened sticky valid (value :: values) ↔ valid value = true ∧ Opened sticky valid values := by
  simp [Opened, other]

theorem opened_of_valid (all : ∀ value ∈ values, valid value = true) : Opened sticky valid values :=
  fun value member => all value ((List.takeWhile_sublist _).subset member)

theorem opened_append (all : ∀ value ∈ values, valid value = true) {others : List Value}
    (opened : Opened sticky valid others) : Opened sticky valid (values ++ others) := by
  induction values with
  | nil => exact opened
  | cons first rest ih =>
    rw [List.forall_mem_cons] at all
    rw [List.cons_append]
    by_cases same : first = sticky
    · subst same
      exact opened_cons_sticky
    · exact (opened_cons same).mpr ⟨all.1, ih all.2⟩

theorem Opened.valid_of_missing (opened : Opened sticky valid values) (missing : sticky ∉ values) :
    ∀ value ∈ values, valid value = true := by
  have whole : values.takeWhile (fun value => decide (value ≠ sticky)) = values := by
    rw [List.takeWhile_eq_self_iff]
    intro value member
    exact decide_eq_true (ne_of_mem_of_not_mem member missing)
  unfold Opened at opened
  rwa [whole] at opened

variable (stays : valid sticky = true)
include stays

theorem settle_isSome_iff (other : held ≠ some sticky) :
    (settle sticky valid held values).isSome ↔ Opened sticky valid values := by
  induction values generalizing held with
  | nil => simp [settle, Opened]
  | cons value rest ih =>
    rw [settle, if_neg other]
    by_cases same : value = sticky
    · subst same
      rw [if_pos stays, settle_sticky]
      simp [opened_cons_sticky]
    · rw [opened_cons same]
      cases fits : valid value with
      | true =>
        rw [if_pos rfl, ih (fun some => same (Option.some.inj some))]
        simp
      | false => simp

theorem settle_eq (other : held ≠ some sticky) (opened : Opened sticky valid values) :
    settle sticky valid held values =
      some (if sticky ∈ values then some sticky else values.getLast?.or held) := by
  induction values generalizing held with
  | nil => simp [settle]
  | cons value rest ih =>
    rw [settle, if_neg other]
    by_cases same : value = sticky
    · subst same
      rw [if_pos stays, settle_sticky, if_pos List.mem_cons_self]
    · obtain ⟨fits, later⟩ := (opened_cons same).mp opened
      rw [if_pos fits, ih (fun some => same (Option.some.inj some)) later]
      have members : sticky ∈ value :: rest ↔ sticky ∈ rest := by
        rw [List.mem_cons]
        exact or_iff_right (fun equal => same equal.symm)
      simp only [members, List.getLast?_cons]
      cases rest.getLast? <;> simp

end SourceLens.StickyLast
