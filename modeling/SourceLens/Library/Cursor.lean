import Mathlib.Data.List.Sort

/-! A receiver that takes exactly the next number of a sequence. Whatever else it
is sent, an ascending redelivery of the missing numbers brings it to their end. -/

namespace SourceLens.Cursor

def advance (cursor : Nat) (number : Int) : Nat :=
  if number = cursor + 1 then cursor + 1 else cursor

theorem advance_ge (cursor : Nat) (number : Int) : cursor ≤ advance cursor number := by
  unfold advance
  split
  · exact Nat.le_succ cursor
  · exact Nat.le_refl cursor

theorem advance_covers {redelivered received : List Int} (inside : redelivered.Sublist received)
    {cursor goal : Nat} (ascending : redelivered.Pairwise (· ≤ ·))
    (covers : ∀ number : Nat, cursor < number → number ≤ goal → (number : Int) ∈ redelivered) :
    goal ≤ received.foldl advance cursor := by
  induction inside generalizing cursor with
  | slnil =>
    by_contra short
    have missing := covers (cursor + 1) (Nat.lt_succ_self _) (by simp at short; omega)
    cases missing
  | cons number inside ih =>
    refine ih ascending ?_
    intro other above below
    exact covers other ((advance_ge cursor number).trans_lt above) below
  | cons_cons number inside ih =>
    rcases List.pairwise_cons.mp ascending with ⟨least, rest⟩
    refine ih rest ?_
    intro other above below
    have kept := advance_ge cursor number
    rcases List.mem_cons.mp (covers other (kept.trans_lt above) below) with same | later
    · -- The least number of the redelivery is the next one, so the cursor took it.
      have next : number ≤ cursor + 1 := by
        rcases List.mem_cons.mp (covers (cursor + 1) (Nat.lt_succ_self _) (by omega)) with
          equal | member
        · exact le_of_eq equal.symm
        · exact least _ member
      have taken : number = cursor + 1 := by omega
      simp only [advance, taken, if_true] at above
      omega
    · exact later

end SourceLens.Cursor
