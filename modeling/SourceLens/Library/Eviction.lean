import Mathlib.Data.List.Sort

/-! Eviction down to a budget: the oldest entries go until the rest fits. -/

namespace SourceLens.Eviction

variable {Entry Key : Type*} [LinearOrder Key] (key : Entry → Key) (size : Entry → Nat)

def bytes (entries : List Entry) : Nat :=
  entries.foldr (fun entry total => size entry + total) 0

/-- The entries that go, from a queue in the order of eviction and the bytes in use. -/
def evicted (budget : Int) : Int → List Entry → List Entry
  | _, [] => []
  | total, entry :: rest =>
    if total ≤ budget then [] else entry :: evicted budget (total - size entry) rest

def oldestFirst (entries : List Entry) : List Entry := entries.insertionSort (key · ≤ key ·)

def bytesBefore (entries : List Entry) (entry : Entry) : Nat :=
  bytes size (entries.filter (decide <| key · < key entry))

variable {key size} {entries : List Entry} {entry : Entry} {budget total : Int}

theorem bytes_cons (first : Entry) (rest : List Entry) :
    bytes size (first :: rest) = size first + bytes size rest := rfl

theorem bytes_perm {other : List Entry} (perm : entries.Perm other) :
    bytes size entries = bytes size other := by
  induction perm with
  | nil => rfl
  | cons entry _ ih => rw [bytes_cons, bytes_cons, ih]
  | swap one other rest =>
    simp only [bytes_cons]
    omega
  | trans _ _ one two => rw [one, two]

theorem bytesBefore_perm {other : List Entry} (perm : entries.Perm other) :
    bytesBefore key size entries entry = bytesBefore key size other entry :=
  bytes_perm (perm.filter _)

theorem bytesBefore_cons_of_lt {first : Entry} (before : key first < key entry)
    (rest : List Entry) : bytesBefore key size (first :: rest) entry =
      size first + bytesBefore key size rest entry := by
  simp [bytesBefore, before, bytes_cons]

theorem bytesBefore_head {first : Entry} {rest : List Entry}
    (later : ∀ other ∈ rest, key first < key other) :
    bytesBefore key size (first :: rest) first = 0 := by
  have none : (first :: rest).filter (decide <| key · < key first) = [] := by
    apply List.filter_eq_nil_iff.mpr
    intro other member
    rcases List.mem_cons.mp member with rfl | behind
    · simp
    · simp [(later other behind).le]
  rw [bytesBefore, none]
  rfl

theorem mem_evicted_of_pairwise (ordered : entries.Pairwise (key · < key ·)) :
    entry ∈ evicted size budget total entries ↔
      entry ∈ entries ∧ budget < total - bytesBefore key size entries entry := by
  induction entries generalizing total with
  | nil => simp [evicted]
  | cons first rest ih =>
    rw [List.pairwise_cons] at ordered
    rw [evicted]
    split
    · simp only [List.not_mem_nil, false_iff, not_and]
      omega
    · by_cases same : entry = first
      · rw [same, bytesBefore_head ordered.1]
        simp only [List.mem_cons, true_or, true_and, true_iff]
        omega
      · simp only [List.mem_cons, same, false_or, ih ordered.2]
        refine and_congr_right fun behind => ?_
        rw [bytesBefore_cons_of_lt (ordered.1 entry behind)]
        omega

theorem oldestFirst_perm (entries : List Entry) : (oldestFirst key entries).Perm entries :=
  List.perm_insertionSort _ entries

theorem oldestFirst_pairwise (distinct : (entries.map key).Nodup) :
    (oldestFirst key entries).Pairwise (key · < key ·) := by
  have ordered : (oldestFirst key entries).Pairwise (key · ≤ key ·) := by
    have total : Std.Total (α := Entry) (key · ≤ key ·) := ⟨fun a b => le_total (key a) (key b)⟩
    have trans : IsTrans Entry (key · ≤ key ·) := ⟨fun _ _ _ => le_trans⟩
    exact List.pairwise_insertionSort _ entries
  have different : (oldestFirst key entries).Pairwise (key · ≠ key ·) :=
    List.pairwise_map.mp (((oldestFirst_perm entries).map key).nodup_iff.mpr distinct)
  exact (ordered.and different).imp fun facts => lt_of_le_of_ne facts.1 facts.2

theorem mem_evicted_oldestFirst (distinct : (entries.map key).Nodup) :
    entry ∈ evicted size budget total (oldestFirst key entries) ↔
      entry ∈ entries ∧ budget < total - bytesBefore key size entries entry := by
  rw [mem_evicted_of_pairwise (oldestFirst_pairwise distinct),
    (oldestFirst_perm entries).mem_iff, bytesBefore_perm (oldestFirst_perm entries)]

end SourceLens.Eviction
