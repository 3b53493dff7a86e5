import Mathlib.Data.List.Nodup

/-! Database tables: rows under an automatic primary key, the statements that
update, delete and create them, and columns whose final values should stay. -/

namespace SourceLens

open List

/-- Keys are drawn from a sequence, so the key of a deleted row is never used again. -/
@[ext] structure Table (Row : Type*) (key : Row → Nat) where
  rows : List Row
  sequence : Nat
  distinct : (rows.map key).Nodup
  drawn : ∀ row ∈ rows, key row < sequence

structure Table.Change {Row : Type*} (key : Row → Nat) where
  apply : Row → Row
  keeps : ∀ row, key (apply row) = key row

namespace Table

variable {Row : Type*} {key : Row → Nat}

def select (table : Table Row key) (condition : Row → Bool) : List Row :=
  table.rows.filter condition

def get? (table : Table Row key) (k : Nat) : Option Row :=
  table.rows.find? fun row => decide (key row = k)

/-- `UPDATE .. WHERE condition`. -/
def updateWhere (table : Table Row key) (condition : Row → Bool) (change : Change key) :
    Table Row key where
  rows := table.rows.map fun row => if condition row then change.apply row else row
  sequence := table.sequence
  distinct := by
    rw [map_map]
    have same : key ∘ (fun row => if condition row then change.apply row else row) = key := by
      funext row
      simp only [Function.comp_apply]
      split
      · exact change.keeps row
      · rfl
    rw [same]
    exact table.distinct
  drawn := by
    intro row member
    rcases mem_map.mp member with ⟨old, present, rfl⟩
    split
    · rw [change.keeps]
      exact table.drawn old present
    · exact table.drawn old present

/-- `UPDATE .. WHERE pk = k`. -/
def update (table : Table Row key) (k : Nat) (change : Change key) : Table Row key :=
  table.updateWhere (fun row => decide (key row = k)) change

/-- `DELETE .. WHERE condition`. -/
def deleteWhere (table : Table Row key) (condition : Row → Bool) : Table Row key where
  rows := table.rows.filter fun row => !condition row
  sequence := table.sequence
  distinct := table.distinct.sublist (filter_sublist.map key)
  drawn := fun row member => table.drawn row (mem_of_mem_filter member)

/-- `INSERT` of one row under the next key of the sequence. -/
def create (table : Table Row key) (make : Nat → Row) (keyed : ∀ k, key (make k) = k) :
    Table Row key where
  rows := table.rows ++ [make table.sequence]
  sequence := table.sequence + 1
  distinct := by
    rw [map_append, nodup_append]
    refine ⟨table.distinct, nodup_singleton _, ?_⟩
    intro old inOld new inNew
    rcases mem_map.mp inOld with ⟨row, present, rfl⟩
    simp only [map_cons, map_nil, mem_singleton, keyed] at inNew
    have below := table.drawn row present
    omega
  drawn := by
    intro row member
    rcases mem_append.mp member with old | new
    · exact Nat.lt_succ_of_lt (table.drawn row old)
    · rw [mem_singleton.mp new, keyed]
      exact Nat.lt_succ_self _

/-- `UPDATE` of the row under this key, or its `INSERT` when there is none. -/
def save (table : Table Row key) (row : Row) : Table Row key where
  rows := table.rows.filter (fun old => decide (key old ≠ key row)) ++ [row]
  sequence := max table.sequence (key row + 1)
  distinct := by
    rw [map_append, nodup_append]
    refine ⟨table.distinct.sublist (filter_sublist.map key), nodup_singleton _, ?_⟩
    intro old inOld new inNew
    rcases mem_map.mp inOld with ⟨other, present, rfl⟩
    cases mem_singleton.mp inNew
    exact of_decide_eq_true (mem_filter.mp present).2
  drawn := by
    intro other member
    rcases mem_append.mp member with old | new
    · have below := table.drawn other (mem_of_mem_filter old)
      omega
    · cases mem_singleton.mp new
      omega

theorem mem_save {table : Table Row key} {row other : Row} :
    other ∈ (table.save row).rows ↔ other = row ∨ other ∈ table.rows ∧ key other ≠ key row := by
  simp only [save, mem_append, mem_filter, decide_eq_true_eq, mem_singleton]
  exact or_comm

theorem get?_eq_some {table : Table Row key} {k : Nat} {row : Row} :
    table.get? k = some row ↔ row ∈ table.rows ∧ key row = k := by
  constructor
  · intro found
    have holds := List.find?_some found
    exact ⟨mem_of_find?_eq_some found, by simpa using holds⟩
  · intro facts
    rcases facts with ⟨present, rfl⟩
    cases found : table.get? (key row) with
    | none =>
      have missing := List.find?_eq_none.mp found row present
      simp at missing
    | some other =>
      have member := mem_of_find?_eq_some found
      have same : key other = key row := by simpa using List.find?_some found
      rw [inj_on_of_nodup_map table.distinct member present same]

theorem get?_of_mem {table : Table Row key} {row : Row} (present : row ∈ table.rows) :
    table.get? (key row) = some row :=
  get?_eq_some.mpr ⟨present, rfl⟩

theorem mem_select {table : Table Row key} {condition : Row → Bool} {row : Row} :
    row ∈ table.select condition ↔ row ∈ table.rows ∧ condition row = true :=
  mem_filter

theorem get?_updateWhere (table : Table Row key) (condition : Row → Bool) (change : Change key)
    (k : Nat) : (table.updateWhere condition change).get? k =
      (table.get? k).map fun row => if condition row then change.apply row else row := by
  have same : (fun row => decide (key row = k)) ∘
      (fun row => if condition row then change.apply row else row) =
        fun row => decide (key row = k) := by
    funext row
    simp only [Function.comp_apply]
    split
    · rw [change.keeps]
    · rfl
  rw [get?, updateWhere, List.find?_map, same, get?]

theorem update_eq_listed (table : Table Row key) (k : Nat) (change : Change key) :
    table.update k change = table.updateWhere (fun row => decide (key row ∈ [k])) change := by
  simp only [update, mem_singleton]

theorem update_missing {table : Table Row key} {k : Nat} (missing : table.get? k = none)
    (change : Change key) : table.update k change = table := by
  apply Table.ext
  · have absent := List.find?_eq_none.mp missing
    calc (table.update k change).rows
        = table.rows.map id := map_congr_left fun row member => if_neg (absent row member)
      _ = table.rows := map_id _
  · rfl

theorem get?_deleteWhere {table : Table Row key} {condition : Row → Bool} {k : Nat} {row : Row}
    (found : (table.deleteWhere condition).get? k = some row) : table.get? k = some row := by
  rcases get?_eq_some.mp found with ⟨member, same⟩
  exact get?_eq_some.mpr ⟨mem_of_mem_filter member, same⟩

theorem get?_create {table : Table Row key} {make : Nat → Row} {keyed : ∀ k, key (make k) = k}
    {k : Nat} {row : Row} (found : (table.create make keyed).get? k = some row)
    (old : k < table.sequence) : table.get? k = some row := by
  rcases get?_eq_some.mp found with ⟨member, same⟩
  rcases mem_append.mp member with present | new
  · exact get?_eq_some.mpr ⟨present, same⟩
  · rw [mem_singleton.mp new, keyed] at same
    omega

theorem get?_create_cases {table : Table Row key} {make : Nat → Row}
    (keyed : ∀ k, key (make k) = k) {k : Nat} {row : Row}
    (found : (table.create make keyed).get? k = some row) :
    table.get? k = some row ∨ k = table.sequence ∧ row = make k := by
  obtain ⟨member, same⟩ := get?_eq_some.mp found
  rcases mem_append.mp member with present | new
  · exact .inl (get?_eq_some.mpr ⟨present, same⟩)
  · have is := mem_singleton.mp new
    rw [is, keyed] at same
    exact .inr ⟨same.symm, same ▸ is⟩

section Derived

/-- Every row comes from an earlier one under the same key, in the relation; no key
has been drawn. -/
structure Derives (relation : Row → Row → Prop) (before after : Table Row key) : Prop where
  sequence_eq : after.sequence = before.sequence
  origin : ∀ k later, after.get? k = some later →
    ∃ row, before.get? k = some row ∧ relation row later

variable {relation : Row → Row → Prop} {table first second third : Table Row key}

theorem Derives.refl (reflexive : ∀ row, relation row row) (table : Table Row key) :
    Derives relation table table where
  sequence_eq := rfl
  origin := fun _ later found => ⟨later, found, reflexive later⟩

theorem Derives.trans (transitive : ∀ row middle later, relation row middle →
      relation middle later → relation row later)
    (one : Derives relation first second) (other : Derives relation second third) :
    Derives relation first third where
  sequence_eq := other.sequence_eq.trans one.sequence_eq
  origin := by
    intro k later found
    obtain ⟨middle, atMiddle, toLater⟩ := other.origin k later found
    obtain ⟨row, atFirst, toMiddle⟩ := one.origin k middle atMiddle
    exact ⟨row, atFirst, transitive row middle later toMiddle toLater⟩

theorem derives_updateWhere {condition : Row → Bool} {change : Change key}
    (reflexive : ∀ row, relation row row)
    (related : ∀ row ∈ table.rows, condition row = true → relation row (change.apply row)) :
    Derives relation table (table.updateWhere condition change) where
  sequence_eq := rfl
  origin := by
    intro k later found
    rw [get?_updateWhere, Option.map_eq_some_iff] at found
    obtain ⟨row, present, rfl⟩ := found
    refine ⟨row, present, ?_⟩
    split
    · rename_i meets
      exact related row (get?_eq_some.mp present).1 meets
    · exact reflexive row

theorem derives_deleteWhere (reflexive : ∀ row, relation row row) (table : Table Row key)
    (condition : Row → Bool) : Derives relation table (table.deleteWhere condition) where
  sequence_eq := rfl
  origin := fun _ later found => ⟨later, get?_deleteWhere found, reflexive later⟩

end Derived

section Final

variable {Value : Type*} (value : Row → Value) (final : Value → Prop)

/-- A row that holds a final value and is still there holds the same value. -/
def Kept (before after : Table Row key) : Prop :=
  ∀ k row later, before.get? k = some row → final (value row) → after.get? k = some later →
    value later = value row

/-- `Kept`, and no row appears under a key that was already drawn: the form that composes. -/
structure Carried (before after : Table Row key) : Prop where
  sequence_le : before.sequence ≤ after.sequence
  origin : ∀ k later, k < before.sequence → after.get? k = some later →
    ∃ row, before.get? k = some row ∧ (final (value row) → value later = value row)

variable {value final}

theorem Carried.refl (table : Table Row key) : Carried value final table table where
  sequence_le := Nat.le_refl _
  origin := fun _ later _ found => ⟨later, found, fun _ => rfl⟩

theorem Carried.trans {first second third : Table Row key}
    (one : Carried value final first second) (other : Carried value final second third) :
    Carried value final first third where
  sequence_le := Nat.le_trans one.sequence_le other.sequence_le
  origin := by
    intro k later drawn found
    rcases other.origin k later (Nat.lt_of_lt_of_le drawn one.sequence_le) found with
      ⟨middle, atMiddle, sameLater⟩
    rcases one.origin k middle drawn atMiddle with ⟨row, atFirst, sameMiddle⟩
    refine ⟨row, atFirst, ?_⟩
    intro settled
    have kept := sameMiddle settled
    rw [sameLater (kept ▸ settled), kept]

theorem Carried.kept {before after : Table Row key} (carried : Carried value final before after) :
    Kept value final before after := by
  intro k row later found settled foundLater
  have drawn : k < before.sequence := by
    rcases get?_eq_some.mp found with ⟨present, rfl⟩
    exact before.drawn row present
  rcases carried.origin k later drawn foundLater with ⟨origin, atBefore, same⟩
  rw [found] at atBefore
  cases atBefore
  exact same settled

theorem Carried.determines {Other : Type*} {other : Row → Other} {finalOther : Other → Prop}
    {before after : Table Row key} (carried : Carried value final before after)
    (settles : ∀ row, finalOther (other row) → final (value row))
    (determined : ∀ row later, value later = value row → other later = other row) :
    Carried other finalOther before after where
  sequence_le := carried.sequence_le
  origin := by
    intro k later drawn found
    rcases carried.origin k later drawn found with ⟨row, present, same⟩
    exact ⟨row, present, fun settled => determined row later (same (settles row settled))⟩

theorem carried_updateWhere {table : Table Row key} {condition : Row → Bool} {change : Change key}
    (safe : ∀ row ∈ table.rows, condition row = true → final (value row) →
      value (change.apply row) = value row) :
    Carried value final table (table.updateWhere condition change) where
  sequence_le := Nat.le_refl _
  origin := by
    intro k later _ found
    rw [get?_updateWhere, Option.map_eq_some_iff] at found
    rcases found with ⟨row, present, rfl⟩
    refine ⟨row, present, ?_⟩
    intro settled
    split
    · rename_i meets
      exact safe row (get?_eq_some.mp present).1 meets settled
    · rfl

theorem carried_conditional {table : Table Row key} {condition : Row → Bool} {change : Change key}
    (excludes : ∀ row ∈ table.rows, condition row = true → ¬ final (value row)) :
    Carried value final table (table.updateWhere condition change) :=
  carried_updateWhere fun row present meets settled =>
    absurd settled (excludes row present meets)

theorem carried_other {table : Table Row key} {condition : Row → Bool} {change : Change key}
    (other : ∀ row, value (change.apply row) = value row) :
    Carried value final table (table.updateWhere condition change) :=
  carried_updateWhere fun row _ _ _ => other row

theorem carried_locked {table : Table Row key} {k : Nat} {row : Row} {change : Change key}
    (stored : table.get? k = some row) (unsettled : ¬ final (value row)) :
    Carried value final table (table.update k change) := by
  apply carried_conditional
  intro other present meets settled
  have same := get?_of_mem present
  rw [of_decide_eq_true meets, stored] at same
  cases same
  exact unsettled settled

theorem carried_deleteWhere (table : Table Row key) (condition : Row → Bool) :
    Carried value final table (table.deleteWhere condition) where
  sequence_le := Nat.le_refl _
  origin := fun _ later _ found => ⟨later, get?_deleteWhere found, fun _ => rfl⟩

theorem carried_create (table : Table Row key) (make : Nat → Row)
    (keyed : ∀ k, key (make k) = k) : Carried value final table (table.create make keyed) where
  sequence_le := Nat.le_succ _
  origin := fun _ later drawn found => ⟨later, get?_create found drawn, fun _ => rfl⟩

theorem carried_unconditional {table : Table Row key} {keys : List Nat} {change : Change key}
    {written : Value} (writes : ∀ row, value (change.apply row) = written)
    (safe : ∀ k ∈ keys, ∀ row, table.get? k = some row → final (value row) →
      value row = written) :
    Carried value final table (table.updateWhere (fun row => decide (key row ∈ keys)) change) := by
  apply carried_updateWhere
  intro row present meets settled
  rw [writes, safe (key row) (of_decide_eq_true meets) row (get?_of_mem present) settled]

/-- The condition of `carried_unconditional` is also necessary. -/
theorem kept_unconditional {table : Table Row key} {keys : List Nat} {change : Change key}
    {written : Value} (writes : ∀ row, value (change.apply row) = written)
    (kept : Kept value final table
      (table.updateWhere (fun row => decide (key row ∈ keys)) change)) :
    ∀ k ∈ keys, ∀ row, table.get? k = some row → final (value row) → value row = written := by
  intro k listed row found settled
  have changed : (table.updateWhere (fun row => decide (key row ∈ keys)) change).get? k =
      some (change.apply row) := by
    rw [get?_updateWhere, found, Option.map_some,
      (get?_eq_some.mp found).2, if_pos (decide_eq_true listed)]
  rw [← kept k row _ found settled changed, writes]

end Final

end Table

end SourceLens
