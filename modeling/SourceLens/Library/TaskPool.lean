import Mathlib.Data.List.Perm.Basic

/-! Interleaved tasks: the one that takes a step is replaced by what follows it, or
leaves when it has returned. -/

namespace SourceLens.TaskPool

variable {Task : Type*} {tasks : List Task} {task other : Task} {index : Nat} {next : Option Task}

def settle (tasks : List Task) (index : Nat) : Option Task → List Task
  | none => tasks.eraseIdx index
  | some next => tasks.set index next

theorem mem_settle (member : other ∈ settle tasks index next) : other ∈ tasks ∨ next = some other := by
  cases next with
  | none => exact .inl (List.mem_of_mem_eraseIdx member)
  | some next =>
    cases List.mem_or_eq_of_mem_set member with
    | inl old => exact .inl old
    | inr new => exact .inr (congrArg some new.symm)

theorem settle_perm (current : tasks[index]? = some task) (next : Option Task) :
    ∃ rest, tasks.Perm (task :: rest) ∧ (settle tasks index next).Perm (next.toList ++ rest) := by
  obtain ⟨inside, rfl⟩ := List.getElem?_eq_some_iff.mp current
  refine ⟨tasks.eraseIdx index, (List.getElem_cons_eraseIdx_perm inside).symm, ?_⟩
  cases next with
  | none => exact .refl _
  | some next => exact List.set_perm_cons_eraseIdx inside next

end SourceLens.TaskPool
