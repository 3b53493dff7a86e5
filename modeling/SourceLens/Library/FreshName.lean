import Mathlib.Data.List.Nodup
import Mathlib.Data.List.Perm.Subperm
import Mathlib.Data.List.Range

/-! The first of a sequence of candidates that is not in use. -/

namespace SourceLens.FreshName

variable {Name : Type*} [DecidableEq Name] {candidates : Nat → Name} {used : List Name}

/-- The search from a candidate on, with at most `tries` steps. -/
def search (candidates : Nat → Name) (used : List Name) : Nat → Nat → Name
  | 0, index => candidates index
  | tries + 1, index =>
    if candidates index ∈ used then search candidates used tries (index + 1) else candidates index

/-- One try more than there are names, since the first candidate may come again. -/
def fresh (candidates : Nat → Name) (used : List Name) : Name :=
  search candidates used (used.length + 1) 0

theorem search_eq (tries index : Nat) :
    ∃ offset ≤ tries, search candidates used tries index = candidates (index + offset) := by
  induction tries generalizing index with
  | zero => exact ⟨0, Nat.le_refl 0, rfl⟩
  | succ tries ih =>
    rw [search]
    split
    · rcases ih (index + 1) with ⟨offset, within, same⟩
      exact ⟨offset + 1, by omega, by rw [same, Nat.add_right_comm, Nat.add_assoc]⟩
    · exact ⟨0, Nat.zero_le _, rfl⟩

theorem search_used (tries index : Nat) (taken : search candidates used tries index ∈ used) :
    ∀ offset ≤ tries, candidates (index + offset) ∈ used := by
  induction tries generalizing index with
  | zero =>
    intro offset within
    rwa [Nat.le_zero.mp within]
  | succ tries ih =>
    rw [search] at taken
    split at taken
    · rename_i first
      intro offset within
      cases offset with
      | zero => exact first
      | succ offset =>
        rw [← Nat.add_assoc, Nat.add_right_comm]
        exact ih (index + 1) taken offset (by omega)
    · contradiction

theorem fresh_eq : ∃ index ≤ used.length + 1, fresh candidates used = candidates index := by
  rcases @search_eq Name _ candidates used (used.length + 1) 0 with ⟨index, within, same⟩
  rw [Nat.zero_add] at same
  exact ⟨index, within, same⟩

theorem fresh_not_mem (distinct : Function.Injective fun index => candidates (index + 1)) :
    fresh candidates used ∉ used := by
  intro taken
  have all := search_used _ _ taken
  have inside : (List.range (used.length + 1)).map (fun index => candidates (index + 1)) ⊆ used := by
    intro name member
    rcases List.mem_map.mp member with ⟨index, small, rfl⟩
    simpa using all (index + 1) (by have := List.mem_range.mp small; omega)
  have short := ((List.nodup_range.map distinct).subperm inside).length_le
  rw [List.length_map, List.length_range] at short
  omega

end SourceLens.FreshName
