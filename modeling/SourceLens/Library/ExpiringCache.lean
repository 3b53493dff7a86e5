import Mathlib.Logic.Function.Basic

/-! A shared cache whose entries expire: single reads and writes at a point in time. -/

namespace SourceLens.ExpiringCache

variable {Key Value : Type}

variable {key : Key}

structure Entry (Value : Type) where
  value : Value
  deadline : Nat
  deriving DecidableEq

abbrev Cache (Key Value : Type) := Key → Option (Entry Value)

def empty : Cache Key Value := fun _ => none

def get (cache : Cache Key Value) (now : Nat) (key : Key) : Option Value :=
  match cache key with
  | some entry => if now < entry.deadline then some entry.value else none
  | none => none

section Writes

variable [DecidableEq Key]

def set (cache : Cache Key Value) (key : Key) (value : Value) (deadline : Nat) :
    Cache Key Value := Function.update cache key (some ⟨value, deadline⟩)

def delete (cache : Cache Key Value) (key : Key) : Cache Key Value :=
  Function.update cache key none

@[simp] theorem set_self (cache : Cache Key Value) (key : Key) (value : Value) (deadline : Nat) :
    set cache key value deadline key = some ⟨value, deadline⟩ := by
  simp [set]

theorem set_other (cache : Cache Key Value) {other : Key} (value : Value) (deadline : Nat)
    (different : other ≠ key) : set cache key value deadline other = cache other := by
  simp [set, different]

@[simp] theorem delete_self (cache : Cache Key Value) (key : Key) :
    delete cache key key = none := by
  simp [delete]

theorem delete_other (cache : Cache Key Value) {other : Key} (different : other ≠ key) :
    delete cache key other = cache other := by
  simp [delete, different]

end Writes

theorem get_of_entry {cache : Cache Key Value} {value : Value} {deadline : Nat}
    (entry : cache key = some ⟨value, deadline⟩) {now : Nat} (fresh : now < deadline) :
    get cache now key = some value := by
  simp [get, entry, fresh]

theorem entry_of_get {cache : Cache Key Value} {value : Value} {now : Nat}
    (found : get cache now key = some value) :
    ∃ deadline, cache key = some ⟨value, deadline⟩ ∧ now < deadline := by
  cases entry : cache key with
  | none => simp [get, entry] at found
  | some held =>
    simp only [get, entry, Option.ite_none_right_eq_some, Option.some.injEq] at found
    exact ⟨held.deadline, by rw [← found.2], found.1⟩

end SourceLens.ExpiringCache
