import Mathlib.Data.List.Basic
import Mathlib.Data.List.Count

/-! Sliding windows: the latest entries of a history, and the earliest occurrences of
wanted values in it. -/

namespace SourceLens.Window

variable {Item : Type*}

/-- The last `bound` entries. -/
def latest (bound : Nat) (items : List Item) : List Item := items.drop (items.length - bound)

theorem latest_of_le {bound : Nat} {items : List Item} (short : items.length ≤ bound) :
    latest bound items = items := by
  rw [latest, Nat.sub_eq_zero_of_le short, List.drop_zero]

theorem latest_append (bound : Nat) (items more : List Item) :
    latest bound (latest bound items ++ more) = latest bound (items ++ more) := by
  have dropped : (latest bound items ++ more) =
      (items ++ more).drop (items.length - bound) := by
    rw [latest, List.drop_append_of_le_length (Nat.sub_le ..)]
  rw [latest, dropped, List.drop_drop, latest]
  congr 1
  simp only [List.length_drop, List.length_append]
  omega

variable [DecidableEq Item]

/-- The first of the values that are wanted, each as often as it is wanted. -/
def earliest : List Item → List Item → List Item
  | _, [] => []
  | wanted, value :: rest =>
    if value ∈ wanted then value :: earliest (wanted.erase value) rest else earliest wanted rest

end SourceLens.Window
