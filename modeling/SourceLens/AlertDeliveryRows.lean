import SourceLens.AlertDelivery

/-! What every delivery row satisfies, whoever has written it, and the writes that keep it so. -/

namespace SourceLens.AlertDelivery

variable {row : Delivery} {now : Time}

def holder : List Mark → Option WorkerId
  | [] => none
  | .claimed worker :: _ => some worker
  | .finalized _ :: _ => none
  | .expired :: rest => holder rest

def claims : List Mark → Nat
  | [] => 0
  | .claimed _ :: rest => claims rest + 1
  | .finalized _ :: rest | .expired :: rest => claims rest

def Lawful : List Mark → Prop
  | [] => True
  | .claimed _ :: rest => claims rest < maxAttempts ∧ Lawful rest
  | .finalized worker :: rest => holder rest = some worker ∧ Lawful rest
  | .expired :: rest => claims rest = maxAttempts ∧ Lawful rest

theorem Lawful.suffix {later earlier : List Mark} (lawful : Lawful (later ++ earlier)) :
    Lawful earlier := by
  induction later with
  | nil => exact lawful
  | cons mark rest ih => cases mark <;> exact ih lawful.2

theorem Lawful.claims_le {history : List Mark} (lawful : Lawful history) :
    claims history ≤ maxAttempts := by
  induction history with
  | nil => exact Nat.zero_le _
  | cons mark rest ih =>
    cases mark with
    | claimed worker => exact lawful.1
    | finalized worker => exact ih lawful.2
    | expired => exact ih lawful.2

structure RowInv (row : Delivery) : Prop where
  lawful : Lawful row.history
  attempts : row.attempts = claims row.history
  token : row.claimToken = holder row.history
  /-- What has not been pending yet has not been claimed. -/
  untried : row.status = .diagnosing ∨ row.status = .suppressed → row.history = []
  due : row.status = .pending → row.attempts < maxAttempts
  claimed : row.status = .sending → row.claimToken.isSome = true ∧ row.claimedAt.isSome = true
  held : row.claimToken.isSome = true → row.status = .sending ∨ row.status = .failed
  key : ∀ key ∈ row.dedupeKey, key = row.identity
  keyed : row.status ≠ .suppressed → row.status ≠ .skipped → row.dedupeKey = some row.identity
  bare : row.status = .suppressed → row.dedupeKey = none
  linked : row.status ≠ .suppressed → row.destination.deduplicatedBy = none
  draft : ∀ outbox ∈ row.draft, row.identity.sourceKey.outbox = outbox ∧ row.identity.phase = .initial
  phase : row.identity.phase = row.phase

theorem RowInv.attempts_le (inv : RowInv row) : row.attempts ≤ maxAttempts :=
  inv.attempts ▸ inv.lawful.claims_le

theorem RowInv.free (inv : RowInv row) (sending : row.status ≠ .sending)
    (failed : row.status ≠ .failed) : row.claimToken = none := by
  cases token : row.claimToken with
  | none => rfl
  | some worker =>
    rcases inv.held (by rw [token]; rfl) with is | is
    · exact absurd is sending
    · exact absurd is failed

theorem claimable_cases (able : claimable now row = true) :
    row.attempts < maxAttempts ∧ (row.status = .pending ∨ row.status = .sending) := by
  simp only [claimable, Bool.and_eq_true, decide_eq_true_eq, Bool.or_eq_true, beq_iff_eq] at able
  exact ⟨able.1, able.2.imp And.left And.left⟩

theorem RowInv.claim (inv : RowInv row) {worker : WorkerId} {claimed : Time}
    (able : claimable now row = true) : RowInv (claimRow worker claimed row) := by
  obtain ⟨few, status⟩ := claimable_cases able
  have unsuppressed : row.status ≠ .suppressed := by rintro is; rw [is] at status; simp at status
  have unskipped : row.status ≠ .skipped := by rintro is; rw [is] at status; simp at status
  exact {
    lawful := ⟨inv.attempts ▸ few, inv.lawful⟩
    attempts := congrArg (· + 1) inv.attempts
    token := rfl
    untried := by rintro (is | is) <;> cases is
    due := nofun
    claimed := fun _ => ⟨rfl, rfl⟩
    held := fun _ => .inl rfl
    key := inv.key
    keyed := fun _ _ => inv.keyed unsuppressed unskipped
    bare := nofun
    linked := fun _ => inv.linked unsuppressed
    draft := inv.draft
    phase := inv.phase }

theorem Outcome.status_cases (outcome : Outcome) (attempts : Nat) :
    outcome.status attempts = .skipped ∨ outcome.status attempts = .sent ∨
      outcome.status attempts = .failed ∨
        outcome.status attempts = .pending ∧ attempts < maxAttempts := by
  cases outcome with
  | skipped reason => exact .inl rfl
  | success => exact .inr (.inl rfl)
  | rejected =>
    by_cases spent : maxAttempts ≤ attempts
    · exact .inr (.inr (.inl (if_pos spent)))
    · exact .inr (.inr (.inr ⟨if_neg spent, Nat.lt_of_not_le spent⟩))

theorem RowInv.finalize (inv : RowInv row) {worker : WorkerId} {outcome : Outcome}
    (held : row.claimToken = some worker) :
    RowInv (finalizeRow worker now row.attempts outcome row) := by
  have status := inv.held (by rw [held]; rfl)
  have unsuppressed : row.status ≠ .suppressed := by rintro is; rw [is] at status; simp at status
  have unskipped : row.status ≠ .skipped := by rintro is; rw [is] at status; simp at status
  have after := outcome.status_cases row.attempts
  exact {
    lawful := ⟨inv.token ▸ held, inv.lawful⟩
    attempts := inv.attempts
    token := rfl
    untried := by
      rintro (is | is) <;> · dsimp only [finalizeRow] at is; rw [is] at after; simp at after
    due := by
      intro is
      dsimp only [finalizeRow] at is
      rw [is] at after
      show row.attempts < maxAttempts
      simpa using after
    claimed := by intro is; dsimp only [finalizeRow] at is; rw [is] at after; simp at after
    held := nofun
    key := inv.key
    keyed := fun _ _ => inv.keyed unsuppressed unskipped
    bare := by intro is; dsimp only [finalizeRow] at is; rw [is] at after; simp at after
    linked := fun _ => inv.linked unsuppressed
    draft := inv.draft
    phase := inv.phase }

theorem RowInv.localize {read : Delivery} (inv : RowInv row) {language : Option String}
    (unlinked : read.destination.deduplicatedBy = none) : RowInv (localize language read row) := by
  cases language with
  | none => exact inv
  | some language => exact { inv with linked := fun _ => unlinked }

theorem RowInv.replace {read : Delivery} (inv : RowInv row) (suppressed : row.status = .suppressed)
    (key : read.dedupeKey = some row.identity) : RowInv (replaceRow now read row) := by
  have untried := inv.untried (.inr suppressed)
  exact {
    lawful := inv.lawful
    attempts := inv.attempts
    token := inv.token
    untried := by rintro (is | is) <;> cases is
    due := fun _ => by
      have : row.attempts = 0 := by rw [inv.attempts, untried]; rfl
      dsimp only [replaceRow]
      rw [this]
      decide
    claimed := nofun
    held := fun some => by
      have : row.claimToken = none := by rw [inv.token, untried]; rfl
      dsimp only [replaceRow] at some
      rw [this] at some
      cases some
    key := by
      dsimp only [replaceRow]
      rw [key]
      intro found member
      exact (Option.some.inj member).symm
    keyed := fun _ _ => key
    bare := nofun
    linked := fun _ => rfl
    draft := inv.draft
    phase := inv.phase }

theorem RowInv.relink (inv : RowInv row) {replacement : DeliveryId}
    (suppressed : row.status = .suppressed) : RowInv (relink replacement row) :=
  { inv with linked := fun no => absurd suppressed no }

theorem RowInv.release (inv : RowInv row) (waiting : row.status = .diagnosing) :
    RowInv { row with status := .pending, nextAttemptAt := now } := by
  have untried := inv.untried (.inl waiting)
  have token : row.claimToken = none := by rw [inv.token, untried]; rfl
  exact {
    lawful := inv.lawful
    attempts := inv.attempts
    token := inv.token
    untried := by rintro (is | is) <;> cases is
    due := fun _ => by
      have : row.attempts = 0 := by rw [inv.attempts, untried]; rfl
      dsimp only
      rw [this]
      decide
    claimed := nofun
    held := fun some => by
      dsimp only at some
      rw [token] at some
      cases some
    key := inv.key
    keyed := fun _ _ => inv.keyed (by rw [waiting]; decide) (by rw [waiting]; decide)
    bare := nofun
    linked := fun _ => inv.linked (by rw [waiting]; decide)
    draft := inv.draft
    phase := inv.phase }

theorem exhausted_cases (spent : exhausted now row = true) :
    row.status = .sending ∧ maxAttempts ≤ row.attempts := by
  simp only [exhausted, Bool.and_eq_true, beq_iff_eq, decide_eq_true_eq] at spent
  exact spent.1

theorem RowInv.fail (inv : RowInv row) : RowInv (failRow now row) := by
  dsimp only [failRow]
  split
  · rename_i spent
    obtain ⟨sending, most⟩ := exhausted_cases (Bool.and_eq_true_iff.mp spent).2
    have few := inv.attempts_le
    exact {
      lawful := ⟨inv.attempts ▸ Nat.le_antisymm few most, inv.lawful⟩
      attempts := inv.attempts
      token := inv.token
      untried := by rintro (is | is) <;> cases is
      due := nofun
      claimed := nofun
      held := fun _ => .inr rfl
      key := inv.key
      keyed := fun _ _ => inv.keyed (by rw [sending]; decide) (by rw [sending]; decide)
      bare := nofun
      linked := fun _ => inv.linked (by rw [sending]; decide)
      draft := inv.draft
      phase := inv.phase }
  · exact inv

theorem RowInv.publish (inv : RowInv row) (outbox : OutboxKey) :
    RowInv { row with draft := publish outbox row.draft } :=
  { inv with
    draft := fun other member => by
      dsimp only [AlertDelivery.publish] at member
      split at member
      · cases member
      · exact inv.draft other member }

theorem RowInv.fresh (untried : row.history = []) (attempts : row.attempts = 0)
    (token : row.claimToken = none) (statuses : (row.status = .pending ∨ row.status = .diagnosing) ∧
        row.dedupeKey = some row.identity ∧ row.destination.deduplicatedBy = none ∨
      row.status = .suppressed ∧ row.dedupeKey = none)
    (drafted : ∀ outbox ∈ row.draft, row.identity.sourceKey.outbox = outbox ∧
      row.identity.phase = .initial) (same : row.identity.phase = row.phase) : RowInv row where
  lawful := by rw [untried]; exact trivial
  attempts := by rw [untried]; exact attempts
  token := by rw [untried]; exact token
  untried := fun _ => untried
  due := fun _ => by rw [attempts]; decide
  claimed := by
    intro sending
    rw [sending] at statuses
    simp at statuses
  held := fun some => by rw [token] at some; cases some
  key := by
    intro found member
    rcases statuses with ⟨_, is, _⟩ | ⟨_, is⟩
    · exact (Option.some.inj (is.symm.trans member)).symm
    · exact absurd (is.symm.trans member) (by simp)
  keyed := by
    intro unsuppressed _
    rcases statuses with ⟨_, is, _⟩ | ⟨is, _⟩
    · exact is
    · exact absurd is unsuppressed
  bare := by
    intro suppressed
    rw [suppressed] at statuses
    simpa using statuses
  linked := by
    intro unsuppressed
    rcases statuses with ⟨_, _, is⟩ | ⟨is, _⟩
    · exact is
    · exact absurd is unsuppressed
  draft := drafted
  phase := same

end SourceLens.AlertDelivery
