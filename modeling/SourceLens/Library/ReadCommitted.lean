import Mathlib.Logic.Function.Basic

/-! Rows under read committed isolation: each has its committed version, and at most one
version that a transaction has written and not committed yet. -/

namespace SourceLens.ReadCommitted

variable {Key Tx Row : Type} [DecidableEq Tx]

structure Version (Tx Row : Type) where
  committed : Row
  pending : Option (Tx × Row)

namespace Version

def Free (version : Version Tx Row) (tx : Tx) : Prop :=
  ∀ owner row, version.pending = some (owner, row) → owner = tx

instance (version : Version Tx Row) (tx : Tx) : Decidable (version.Free tx) :=
  match held : version.pending with
  | none => .isTrue fun _ _ some' => by
    rw [held] at some'
    cases some'
  | some (owner, row) =>
    if same : owner = tx then
      .isTrue fun other _ some' => by
        rw [held] at some'
        cases some'
        exact same
    else .isFalse fun free => same (free owner row held)

def seen (version : Version Tx Row) (tx : Tx) : Row :=
  match version.pending with
  | some (owner, row) => if owner = tx then row else version.committed
  | none => version.committed

def write (version : Version Tx Row) (tx : Tx) (row : Row) : Version Tx Row :=
  { version with pending := some (tx, row) }

def commit (version : Version Tx Row) (tx : Tx) : Version Tx Row :=
  match version.pending with
  | some (owner, row) => if owner = tx then ⟨row, none⟩ else version
  | none => version

def rollback (version : Version Tx Row) (tx : Tx) : Version Tx Row :=
  match version.pending with
  | some (owner, _) => if owner = tx then { version with pending := none } else version
  | none => version

def All (property : Row → Prop) (version : Version Tx Row) : Prop :=
  property version.committed ∧ ∀ owner row, version.pending = some (owner, row) → property row

section

variable {property : Row → Prop} {version : Version Tx Row} {tx : Tx}

theorem seen_cases (version : Version Tx Row) (tx : Tx) :
    version.seen tx = version.committed ∧ (∀ row, version.pending ≠ some (tx, row)) ∨
      version.pending = some (tx, version.seen tx) := by
  unfold seen
  cases held : version.pending with
  | none => exact Or.inl ⟨rfl, nofun⟩
  | some pair =>
    rcases pair with ⟨owner, row⟩
    dsimp only
    split
    · rename_i same
      exact Or.inr (by rw [same])
    · rename_i different
      refine Or.inl ⟨rfl, ?_⟩
      intro other same
      cases same
      exact different rfl

theorem All.seen (all : version.All property) (tx : Tx) : property (version.seen tx) := by
  rcases seen_cases version tx with ⟨same, _⟩ | held
  · rw [same]
    exact all.1
  · exact all.2 tx _ held

omit [DecidableEq Tx] in
theorem All.write (all : version.All property) {row : Row} (good : property row) :
    (version.write tx row).All property := by
  refine ⟨all.1, ?_⟩
  intro owner other held
  cases held
  exact good

theorem commit_cases (version : Version Tx Row) (tx : Tx) :
    (∃ row, version.pending = some (tx, row) ∧ version.commit tx = ⟨row, none⟩) ∨
      version.commit tx = version ∧ ∀ row, version.pending ≠ some (tx, row) := by
  unfold commit
  cases held : version.pending with
  | none => exact Or.inr ⟨rfl, nofun⟩
  | some pair =>
    rcases pair with ⟨owner, row⟩
    dsimp only
    split
    · rename_i same
      exact Or.inl ⟨row, by rw [same], rfl⟩
    · rename_i different
      refine Or.inr ⟨rfl, ?_⟩
      intro other same
      cases same
      exact different rfl

theorem rollback_cases (version : Version Tx Row) (tx : Tx) :
    (∃ row, version.pending = some (tx, row)) ∧
        version.rollback tx = { version with pending := none } ∨
      version.rollback tx = version ∧ ∀ row, version.pending ≠ some (tx, row) := by
  unfold rollback
  cases held : version.pending with
  | none => exact Or.inr ⟨rfl, nofun⟩
  | some pair =>
    rcases pair with ⟨owner, row⟩
    dsimp only
    split
    · rename_i same
      exact Or.inl ⟨⟨row, by rw [same]⟩, rfl⟩
    · rename_i different
      refine Or.inr ⟨rfl, ?_⟩
      intro other same
      cases same
      exact different rfl

theorem All.commit (all : version.All property) (tx : Tx) : (version.commit tx).All property := by
  rcases commit_cases version tx with ⟨row, held, same⟩ | ⟨same, _⟩
  · rw [same]
    exact ⟨all.2 tx row held, nofun⟩
  · rw [same]
    exact all

theorem All.rollback (all : version.All property) (tx : Tx) :
    (version.rollback tx).All property := by
  rcases rollback_cases version tx with ⟨_, same⟩ | ⟨same, _⟩
  · rw [same]
    exact ⟨all.1, nofun⟩
  · rw [same]
    exact all

omit [DecidableEq Tx] in
theorem All.mono {weaker : Row → Prop} (all : version.All property)
    (implied : ∀ row, property row → weaker row) : version.All weaker :=
  ⟨implied _ all.1, fun owner row held => implied row (all.2 owner row held)⟩

/-! What one transaction does is not seen by another before its commit. -/

theorem seen_of_free {other : Tx} (free : version.Free tx) (different : other ≠ tx) :
    version.seen other = version.committed := by
  rcases seen_cases version other with ⟨same, _⟩ | held
  · exact same
  · exact absurd (free other _ held) different

theorem seen_write_other {other : Tx} (free : version.Free tx) (different : other ≠ tx)
    (row : Row) : (version.write tx row).seen other = version.seen other := by
  rw [seen_of_free free different]
  simp [seen, write, Ne.symm different]

theorem seen_rollback_other {other : Tx} (different : other ≠ tx) :
    (version.rollback tx).seen other = version.seen other := by
  rcases rollback_cases version tx with ⟨⟨row, held⟩, same⟩ | ⟨same, _⟩
  · rw [same]
    simp [seen, held, Ne.symm different]
  · rw [same]

theorem seen_commit_other {other : Tx} (different : other ≠ tx) :
    (∃ row, version.pending = some (tx, row) ∧ version.seen other = version.committed ∧
        (version.commit tx).seen other = row) ∨
      (version.commit tx).seen other = version.seen other := by
  rcases commit_cases version tx with ⟨row, held, same⟩ | ⟨same, _⟩
  · refine Or.inl ⟨row, held, ?_, ?_⟩
    · simp [seen, held, Ne.symm different]
    · rw [same]
      rfl
  · exact Or.inr (by rw [same])

theorem committed_rollback (version : Version Tx Row) (tx : Tx) :
    (version.rollback tx).committed = version.committed := by
  rcases rollback_cases version tx with ⟨_, same⟩ | ⟨same, _⟩
  · rw [same]
  · rw [same]

theorem pending_rollback {owner : Tx} {row : Row}
    (held : (version.rollback tx).pending = some (owner, row)) :
    owner ≠ tx ∧ version.pending = some (owner, row) := by
  rcases rollback_cases version tx with ⟨_, same⟩ | ⟨same, others⟩
  · rw [same] at held
    cases held
  · rw [same] at held
    refine ⟨?_, held⟩
    rintro rfl
    exact others row held

theorem pending_commit {owner : Tx} {row : Row}
    (held : (version.commit tx).pending = some (owner, row)) :
    owner ≠ tx ∧ version.pending = some (owner, row) ∧
      (version.commit tx).committed = version.committed := by
  rcases commit_cases version tx with ⟨_, _, same⟩ | ⟨same, others⟩
  · rw [same] at held
    cases held
  · rw [same] at held
    refine ⟨?_, held, by rw [same]⟩
    rintro rfl
    exact others row held

theorem committed_commit (version : Version Tx Row) (tx : Tx) :
    (version.commit tx).committed = version.seen tx := by
  rcases commit_cases version tx with ⟨row, held, same⟩ | ⟨same, others⟩
  · rcases seen_cases version tx with ⟨_, none'⟩ | mine
    · exact absurd held (none' row)
    · rw [mine] at held
      cases held
      rw [same]
  · rcases seen_cases version tx with ⟨seen, _⟩ | mine
    · rw [same, seen]
    · exact absurd mine (others _)

end

end Version

abbrev Rows (Key Tx Row : Type) := Key → Version Tx Row

namespace Rows

variable [DecidableEq Key]

def write (rows : Rows Key Tx Row) (key : Key) (tx : Tx) (row : Row) : Rows Key Tx Row :=
  Function.update rows key ((rows key).write tx row)

def commit (rows : Rows Key Tx Row) (tx : Tx) : Rows Key Tx Row := fun key => (rows key).commit tx

def rollback (rows : Rows Key Tx Row) (tx : Tx) : Rows Key Tx Row :=
  fun key => (rows key).rollback tx

def All (property : Key → Row → Prop) (rows : Rows Key Tx Row) : Prop :=
  ∀ key, (rows key).All (property key)

variable {property : Key → Row → Prop} {rows : Rows Key Tx Row}

omit [DecidableEq Tx] in
theorem write_apply (rows : Rows Key Tx Row) (key other : Key) (tx : Tx) (row : Row) :
    rows.write key tx row other = if other = key then (rows key).write tx row else rows other := by
  unfold Rows.write
  rw [Function.update_apply]

omit [DecidableEq Tx] in
theorem All.write (all : rows.All property) {key : Key} (tx : Tx) {row : Row}
    (good : property key row) : (rows.write key tx row).All property := by
  intro other
  unfold Rows.write
  by_cases same : other = key
  · subst same
    rw [Function.update_self]
    exact (all other).write good
  · rw [Function.update_of_ne same]
    exact all other

omit [DecidableEq Key] in
theorem All.commit (all : rows.All property) (tx : Tx) : (rows.commit tx).All property :=
  fun key => (all key).commit tx

omit [DecidableEq Key] in
theorem All.rollback (all : rows.All property) (tx : Tx) : (rows.rollback tx).All property :=
  fun key => (all key).rollback tx

end Rows

end SourceLens.ReadCommitted
