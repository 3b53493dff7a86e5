import Mathlib.Data.List.Basic

/-! Lists read from the front: what holds of each element and the ones before it. -/

namespace SourceLens.Histories

open List

variable {Item : Type*} {holds other : List Item → Item → Prop} {items more : List Item} {item : Item}

/-- The relation holds between the elements before any place of the list and the one there. -/
def Along (holds : List Item → Item → Prop) (items : List Item) : Prop :=
  ∀ before item after, items = before ++ item :: after → holds before item

theorem along_nil : Along holds [] := by
  intro before item after shape
  exact absurd shape.symm (append_ne_nil_of_right_ne_nil _ (cons_ne_nil _ _))

theorem along_concat : Along holds (items ++ [item]) ↔ Along holds items ∧ holds items item := by
  constructor
  · intro along
    refine ⟨?_, along items item [] rfl⟩
    intro before one after shape
    refine along before one (after ++ [item]) ?_
    rw [shape, append_assoc, cons_append]
  · intro both before one after shape
    rcases eq_nil_or_concat after with rfl | ⟨front, last, rfl⟩
    · obtain ⟨rfl, same⟩ := append_inj' shape rfl
      rw [← head_eq_of_cons_eq same]
      exact both.2
    · have split : items ++ [item] = (before ++ one :: front) ++ [last] := by
        rw [shape, concat_eq_append, append_assoc, cons_append]
      exact both.1 before one front (append_inj' split rfl).1

end SourceLens.Histories
