import Mathlib.Data.List.Basic

/-! A queue in which a newer item may take the place of the last one of its key: the order
within a key, and the newest item of it, against the history of all items. -/

namespace SourceLens.KeyedQueue

open List

variable {Item Key : Type*} [DecidableEq Key] {key : Item → Key} {history queue : List Item}

variable {back front : List Item} {old new : Item}

def row (key : Item → Key) (queue : List Item) (wanted : Key) : List Item :=
  queue.filter fun item => key item = wanted

def InOrder (key : Item → Key) (history queue : List Item) : Prop :=
  ∀ wanted, (row key queue wanted).Sublist (row key history wanted)

/-- Where any item of a key is left, the newest one of the key is, behind the others. -/
def HasNewest (key : Item → Key) (history queue : List Item) : Prop :=
  ∀ wanted, row key queue wanted ≠ [] →
    (row key queue wanted).getLast? = (row key history wanted).getLast?

theorem row_append (front back : List Item) (wanted : Key) :
    row key (front ++ back) wanted = row key front wanted ++ row key back wanted :=
  filter_append ..

theorem row_own (item : Item) : row key [item] (key item) = [item] := by simp [row]

theorem row_other {item : Item} {wanted : Key} (other : key item ≠ wanted) :
    row key [item] wanted = [] := by
  simp [row, other]

theorem row_behind {wanted : Key} (later : ∀ item ∈ back, key item ≠ wanted) :
    row key back wanted = [] := by
  simpa [row] using later

theorem InOrder.refl (queue : List Item) : InOrder key queue queue := fun _ => .refl _

theorem HasNewest.refl (queue : List Item) : HasNewest key queue queue := fun _ _ => rfl

theorem InOrder.append (order : InOrder key history queue) (item : Item) :
    InOrder key (history ++ [item]) (queue ++ [item]) := by
  intro wanted
  rw [row_append, row_append]
  exact (order wanted).append (.refl _)

theorem HasNewest.append (newest : HasNewest key history queue) (item : Item) :
    HasNewest key (history ++ [item]) (queue ++ [item]) := by
  intro wanted left
  rw [row_append] at left
  rw [row_append, row_append]
  by_cases own : key item = wanted
  · rw [← own, row_own, List.getLast?_append_of_ne_nil _ (by simp),
      List.getLast?_append_of_ne_nil _ (by simp)]
  · rw [row_other own, append_nil] at left
    rw [row_other own, append_nil, append_nil]
    exact newest wanted left

theorem InOrder.sublist {fewer : List Item} (order : InOrder key history queue)
    (sub : fewer.Sublist queue) : InOrder key history fewer :=
  fun wanted => (sub.filter _).trans (order wanted)

theorem HasNewest.behind (newest : HasNewest key history (front ++ back)) :
    HasNewest key history back := by
  intro wanted left
  have whole := newest wanted
  rw [row_append, List.getLast?_append_of_ne_nil _ left] at whole
  exact whole (append_ne_nil_of_right_ne_nil _ left)

theorem row_replaced (same : key old = key new) (last : ∀ item ∈ back, key item ≠ key new)
    (wanted : Key) : row key (front ++ new :: back) wanted =
      if key new = wanted then row key front wanted ++ [new]
      else row key (front ++ old :: back) wanted := by
  rw [append_cons, row_append, row_append]
  split
  · rename_i own
    subst own
    rw [row_own, row_behind last, append_nil]
  · rename_i other
    rw [append_cons, row_append, row_append, row_other other, row_other (same ▸ other)]

theorem InOrder.replace (order : InOrder key history (front ++ old :: back))
    (same : key old = key new) (last : ∀ item ∈ back, key item ≠ key new) :
    InOrder key (history ++ [new]) (front ++ new :: back) := by
  intro wanted
  have before := order wanted
  rw [row_replaced same last, row_append history [new]]
  split
  · rename_i own
    subst own
    rw [row_append] at before
    rw [row_own]
    exact ((sublist_append_left _ _).trans before).append (.refl _)
  · exact before.trans (sublist_append_left _ _)

theorem HasNewest.replace (newest : HasNewest key history (front ++ old :: back))
    (same : key old = key new) (last : ∀ item ∈ back, key item ≠ key new) :
    HasNewest key (history ++ [new]) (front ++ new :: back) := by
  intro wanted left
  rw [row_replaced same last] at left ⊢
  rw [row_append history [new]]
  split
  · rename_i own
    subst own
    rw [row_own, List.getLast?_append_of_ne_nil _ (by simp),
      List.getLast?_append_of_ne_nil _ (by simp)]
  · rename_i other
    rw [if_neg other] at left
    rw [row_other other, append_nil]
    exact newest wanted left

omit [DecidableEq Key] in
theorem last_within (wanted : Item → Bool) {window index : Nat}
    (found : ((queue.zipIdx.reverse.take window).find? fun entry => wanted entry.1).map Prod.snd =
      some index) :
    ∃ front old back, queue = front ++ old :: back ∧ front.length = index ∧ wanted old = true ∧
      ∀ other ∈ back, wanted other = false := by
  obtain ⟨⟨old, place⟩, first, rfl⟩ := Option.map_eq_some_iff.mp found
  obtain ⟨accepted, later, earlier, parts, missed⟩ := List.find?_eq_some_iff_append.mp first
  obtain ⟨front, whole⟩ : ∃ front, queue.zipIdx = front ++ (old, place) :: later.reverse := by
    refine ⟨(earlier ++ queue.zipIdx.reverse.drop window).reverse, ?_⟩
    have reversed := take_append_drop window queue.zipIdx.reverse
    rw [parts, append_assoc, cons_append] at reversed
    calc queue.zipIdx = queue.zipIdx.reverse.reverse := (reverse_reverse _).symm
      _ = (later ++ (old, place) ::
            (earlier ++ queue.zipIdx.reverse.drop window)).reverse := congrArg _ reversed.symm
      _ = _ := by rw [reverse_append, reverse_cons, append_assoc,
            singleton_append]
  have items := congrArg (List.map Prod.fst) whole
  rw [zipIdx_map_fst, map_append, map_cons] at items
  refine ⟨front.map Prod.fst, old, later.reverse.map Prod.fst, items, ?_, accepted, ?_⟩
  · have entry : queue.zipIdx[front.length]? = some (old, place) := by
      rw [whole, List.getElem?_append_right (Nat.le_refl _), Nat.sub_self]
      rfl
    rw [List.getElem?_zipIdx, Option.map_eq_some_iff] at entry
    obtain ⟨item, -, same⟩ := entry
    cases same
    rw [length_map, Nat.zero_add]
  · intro other member
    obtain ⟨entry, inside, rfl⟩ := mem_map.mp member
    have miss := missed entry (mem_reverse.mp inside)
    simpa using miss

end SourceLens.KeyedQueue
