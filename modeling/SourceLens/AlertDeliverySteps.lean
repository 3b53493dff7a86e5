import SourceLens.AlertDeliveryInvariant

/-! Every step of the alerts keeps the tables in agreement, and what the workers have read
up to date as long as their claims are current. -/

namespace SourceLens.AlertDelivery

open Transition

variable {casefold : String → String}

variable {next : State} {id : DeliveryId}

def Reads (state : State) (worker : WorkerId) : Worker → Prop
  | .idle | .started _ _ | .ended => True
  | .claimed delivery => ∃ row, state.deliveries delivery = some row ∧ row.draft = none ∧
      row.history ≠ []
  | .loaded delivery read | .decided delivery read _ => ∃ row,
      state.deliveries delivery = some row ∧ row.draft = none ∧ row.history ≠ [] ∧
        row.event = read.event ∧ read.destination.deduplicatedBy = none ∧
          (row.claimToken = some worker → row.attempts = read.attempts ∧
            row.dedupeKey = read.dedupeKey ∧ row.diagnosis = read.diagnosis)

def Informed (state : State) : Prop := ∀ worker, Reads state worker (state.workers worker)

structure Steady (worker : WorkerId) (before after : Delivery) : Prop where
  draft : before.draft = none → after.draft = none
  history : before.history ≠ [] → after.history ≠ []
  event : after.event = before.event
  held : after.claimToken = some worker → before.claimToken = some worker ∧
    after.attempts = before.attempts ∧ after.dedupeKey = before.dedupeKey ∧
      after.diagnosis = before.diagnosis

theorem Steady.refl (worker : WorkerId) (row : Delivery) : Steady worker row row :=
  ⟨id, id, rfl, fun held => ⟨held, rfl, rfl, rfl⟩⟩

theorem Steady.trans {worker : WorkerId} {first second third : Delivery}
    (earlier : Steady worker first second) (later : Steady worker second third) :
    Steady worker first third where
  draft := later.draft ∘ earlier.draft
  history := later.history ∘ earlier.history
  event := later.event.trans earlier.event
  held := by
    intro held
    obtain ⟨held, attempts, key, diagnosis⟩ := later.held held
    obtain ⟨was, attemptsToo, keyToo, diagnosisToo⟩ := earlier.held held
    exact ⟨was, attempts.trans attemptsToo, key.trans keyToo, diagnosis.trans diagnosisToo⟩

def Kept (worker : WorkerId) (state next : State) : Prop :=
  ∀ id row, state.deliveries id = some row → row.draft = none →
    ∃ after, next.deliveries id = some after ∧ Steady worker row after

theorem Kept.same {worker : WorkerId} {state : State}
    (deliveries : next.deliveries = state.deliveries) : Kept worker state next :=
  fun id row found _ => ⟨row, by rw [deliveries]; exact found, .refl worker row⟩

theorem Kept.trans {worker : WorkerId} {first second third : State}
    (earlier : Kept worker first second) (later : Kept worker second third) :
    Kept worker first third := by
  intro id row found draft
  obtain ⟨middle, is, steady⟩ := earlier id row found draft
  obtain ⟨after, isToo, steadyToo⟩ := later id middle is (steady.draft draft)
  exact ⟨after, isToo, steady.trans steadyToo⟩

theorem Kept.each {worker : WorkerId} {state : State} {change : DeliveryId → Delivery → Delivery}
    (steady : ∀ id row, state.deliveries id = some row → Steady worker row (change id row)) :
    Kept worker state (each state change) :=
  fun id row found _ => ⟨change id row, each_some.mpr ⟨row, found, rfl⟩, steady id row found⟩

theorem Kept.alter {worker : WorkerId} {state : State} {delivery : DeliveryId}
    {change : Delivery → Delivery}
    (steady : ∀ row, state.deliveries delivery = some row → Steady worker row (change row)) :
    Kept worker state (alter state delivery change) := by
  apply Kept.each
  intro id row is
  split
  · rename_i same
    exact steady row (same ▸ is)
  · exact .refl worker row

theorem Kept.insert {worker : WorkerId} {state : State} (sound : Sound state) (row : Delivery) :
    Kept worker state (insert state row) :=
  fun _ other found _ => ⟨other, insert_kept sound found, .refl worker other⟩

theorem Reads.kept {worker : WorkerId} {state : State} (kept : Kept worker state next) :
    ∀ {phase : Worker}, Reads state worker phase → Reads next worker phase
  | .idle, _ | .started _ _, _ | .ended, _ => trivial
  | .claimed delivery, ⟨row, found, draft, tried⟩ => by
    obtain ⟨after, is, steady⟩ := kept delivery row found draft
    exact ⟨after, is, steady.draft draft, steady.history tried⟩
  | .loaded delivery read, ⟨row, found, draft, tried, event, unlinked, held⟩
  | .decided delivery read _, ⟨row, found, draft, tried, event, unlinked, held⟩ => by
    obtain ⟨after, is, steady⟩ := kept delivery row found draft
    refine ⟨after, is, steady.draft draft, steady.history tried, steady.event.trans event,
      unlinked, ?_⟩
    intro token
    obtain ⟨was, attempts, key, diagnosis⟩ := steady.held token
    obtain ⟨attemptsToo, keyToo, diagnosisToo⟩ := held was
    exact ⟨attempts.trans attemptsToo, key.trans keyToo, diagnosis.trans diagnosisToo⟩

theorem Informed.kept {state : State} (informed : Informed state)
    (kept : ∀ worker, Kept worker state next) (workers : next.workers = state.workers) :
    Informed next := by
  intro worker
  rw [workers]
  exact (informed worker).kept (kept worker)

theorem Informed.setWorker {state : State} (informed : Informed state) {worker : WorkerId}
    {phase : Worker} (kept : ∀ other, other ≠ worker → Kept other state next)
    (workers : next.workers = state.workers) (reads : Reads next worker phase) :
    Informed (setWorker next worker phase) := by
  intro other
  by_cases same : other = worker
  · subst same
    dsimp only [AlertDelivery.setWorker]
    rw [Function.update_self]
    exact reads.kept (.same rfl)
  · dsimp only [AlertDelivery.setWorker]
    rw [Function.update_of_ne same, workers]
    exact (informed other).kept ((kept other same).trans (.same rfl))

/-! ### `_promote_duplicate_delivery` and the transaction that finalizes -/

theorem RowInv.disown {row : Delivery} (inv : RowInv row) (skipped : row.status = .skipped) :
    RowInv { row with dedupeKey := none } :=
  { inv with
    key := nofun
    keyed := fun _ no => absurd skipped no
    bare := fun _ => rfl }

def promoteRow (now : Time) (read : Delivery) (delivery replacement : DeliveryId)
    (others : List DeliveryId) (id : DeliveryId) (row : Delivery) : Delivery :=
  if id = delivery then { row with dedupeKey := none }
  else if id = replacement then replaceRow now read row
  else if id ∈ others then relink replacement row
  else row

structure Promotes (state : State) (delivery : DeliveryId) (read : Delivery)
    (replacement : DeliveryId) (others : List DeliveryId) where
  key : Identity
  read_key : read.dedupeKey = some key
  row : Delivery
  found : state.deliveries delivery = some row
  skipped : row.status = .skipped
  row_key : row.dedupeKey = some key
  free : row.claimToken = none
  duplicate : ∀ id ∈ replacement :: others, ∃ other, state.deliveries id = some other ∧
    other.draft = none ∧ other.status = .suppressed ∧ other.identity = key

variable {state : State} {delivery replacement : DeliveryId} {read : Delivery}
  {others : List DeliveryId}

theorem Promotes.replaced (promotes : Promotes state delivery read replacement others) {row : Delivery}
    (found : state.deliveries replacement = some row) :
    row.draft = none ∧ row.status = .suppressed ∧ row.identity = promotes.key := by
  obtain ⟨other, is, facts⟩ := promotes.duplicate replacement (List.mem_cons_self ..)
  rw [found] at is
  cases is
  exact facts

theorem Promotes.relinked (promotes : Promotes state delivery read replacement others)
    (member : id ∈ others) {row : Delivery} (found : state.deliveries id = some row) :
    row.draft = none ∧ row.status = .suppressed ∧ row.identity = promotes.key := by
  obtain ⟨other, is, facts⟩ := promotes.duplicate id (List.mem_cons_of_mem _ member)
  rw [found] at is
  cases is
  exact facts

theorem Promotes.sound (promotes : Promotes state delivery read replacement others)
    (sound : Sound state) (now : Time) :
    Sound (each state (promoteRow now read delivery replacement others)) := by
  have own : ∀ row, state.deliveries delivery = some row → row.status = .skipped := by
    intro row found
    rw [promotes.found] at found
    cases found
    exact promotes.skipped
  apply sound.each_of
  · intro id row found
    dsimp only [promoteRow]
    split
    · exact { Change.refl row with }
    · split
      · exact { Change.refl row with waiting := fun is => by cases is }
      · split
        · exact { Change.refl row with }
        · exact .refl row
  · intro id row found
    have inv := sound.row id row found
    dsimp only [promoteRow]
    split
    · rename_i same
      exact inv.disown (own row (same ▸ found))
    · split
      · rename_i same
        obtain ⟨-, suppressed, identity⟩ := promotes.replaced (same ▸ found)
        exact inv.replace suppressed (identity ▸ promotes.read_key)
      · split
        · rename_i member
          exact inv.relink (promotes.relinked member found).2.1
        · exact inv
  · intro id row found
    dsimp only [promoteRow]
    split
    · rename_i same
      rw [own row (same ▸ found)]
      intro no
      cases no
    · split
      · nofun
      · split
        · rename_i member
          intro _ original link
          cases link
          obtain ⟨other, known, draft, -, identity⟩ :=
            promotes.duplicate replacement (List.mem_cons_self ..)
          exact ⟨other, known, identity.trans (promotes.relinked member found).2.2.symm,
            .inl draft⟩
        · exact sound.linked id row found
  · have holders : ∀ id row key, state.deliveries id = some row →
        (promoteRow now read delivery replacement others id row).dedupeKey = some key →
          id = replacement ∧ key = promotes.key ∨
            id ≠ delivery ∧ id ≠ replacement ∧ row.dedupeKey = some key := by
      intro id row key found holds
      dsimp only [promoteRow] at holds
      split at holds
      · cases holds
      · rename_i other
        split at holds
        · rename_i same
          dsimp only [replaceRow] at holds
          rw [promotes.read_key] at holds
          exact .inl ⟨same, (Option.some.inj holds).symm⟩
        · rename_i another
          split at holds <;> exact .inr ⟨other, another, holds⟩
    intro first second one two key found foundToo holds holdsToo
    rcases holders first one key found holds with ⟨rfl, rfl⟩ | ⟨other, another, was⟩ <;>
      rcases holders second two _ foundToo holdsToo with ⟨rfl, same⟩ | ⟨otherToo, anotherToo, wasToo⟩
    · rfl
    · exact absurd (sound.unique second delivery two promotes.row _ foundToo promotes.found wasToo
        promotes.row_key) otherToo
    · rw [same] at was
      exact absurd (sound.unique first delivery one promotes.row _ found promotes.found was
        promotes.row_key) other
    · exact sound.unique first second one two key found foundToo was wasToo

theorem Promotes.kept (promotes : Promotes state delivery read replacement others)
    (sound : Sound state) (worker : WorkerId) (now : Time) :
    Kept worker state (each state (promoteRow now read delivery replacement others)) := by
  apply Kept.each
  intro id row found
  dsimp only [promoteRow]
  split
  · rename_i same
    have token : row.claimToken = none := by
      have is : some row = some promotes.row := found.symm.trans (same ▸ promotes.found)
      rw [Option.some.inj is]
      exact promotes.free
    exact { Steady.refl worker row with held := fun held => by rw [token] at held; cases held }
  · split
    · rename_i same
      obtain ⟨-, suppressed, -⟩ := promotes.replaced (same ▸ found)
      have token : row.claimToken = none :=
        (sound.row id row found).free (by rw [suppressed]; decide) (by rw [suppressed]; decide)
      exact { Steady.refl worker row with
        held := fun held => by
          dsimp only [replaceRow] at held
          rw [token] at held
          cases held }
    · split
      · exact { Steady.refl worker row with }
      · exact .refl worker row

theorem duplicatesOf_spec (sound : Sound state) (member : id ∈ duplicatesOf state delivery) :
    ∃ row, state.deliveries id = some row ∧
      row.draft = none ∧ row.status = .suppressed ∧
        row.destination.deduplicatedBy = some delivery := by
  obtain ⟨row, found, seen, good⟩ := (mem_query sound).mp member
  simp only [Bool.and_eq_true, beq_iff_eq] at good
  exact ⟨row, found, visible_none.mp seen, good⟩

theorem mem_duplicatesOf (sound : Sound state) {row : Delivery}
    (found : state.deliveries id = some row) (draft : row.draft = none)
    (suppressed : row.status = .suppressed) (link : row.destination.deduplicatedBy = some delivery) :
    id ∈ duplicatesOf state delivery :=
  (mem_query sound).mpr ⟨row, found, visible_none.mpr draft, by
    simp only [suppressed, link, beq_self_eq_true, Bool.and_self]⟩

theorem promote_cases (sound : Sound state) {row : Delivery}
    (found : state.deliveries delivery = some row) (skipped : row.status = .skipped)
    (same : row.dedupeKey = read.dedupeKey) (free : row.claimToken = none) :
    promoteDuplicateDelivery state delivery read = state ∧
        (read.dedupeKey = none ∨ duplicatesOf state delivery = []) ∨
      ∃ replacement others, duplicatesOf state delivery = replacement :: others ∧
        Nonempty (Promotes state delivery read replacement others) ∧ ∃ event,
          promoteDuplicateDelivery state delivery read = refreshEventStatus
            (each state (promoteRow state.now read delivery replacement others)) none event := by
  cases key : read.dedupeKey with
  | none => exact .inl ⟨by simp only [promoteDuplicateDelivery, key, Option.isNone_none, if_true],
      .inl rfl⟩
  | some key' =>
    cases duplicates : duplicatesOf state delivery with
    | nil => exact .inl ⟨by simp only [promoteDuplicateDelivery, duplicates, ite_self],
        .inr rfl⟩
    | cons replacement others =>
      refine .inr ⟨replacement, others, rfl, ⟨⟨key', key, row, found, skipped,
        same.trans key, free, ?_⟩⟩, ?_⟩
      · intro id member
        rw [← duplicates] at member
        obtain ⟨other, is, draft, suppressed, link⟩ := duplicatesOf_spec sound member
        obtain ⟨original, known, identity, -⟩ := sound.linked id other is suppressed _ link
        rw [found] at known
        cases known
        exact ⟨other, is, draft, suppressed, identity.symm.trans
          ((sound.row delivery row found).key key' (same.trans key)).symm⟩
      · refine ⟨replacementEvent (each state
          (promoteRow state.now read delivery replacement others)) replacement read.event, ?_⟩
        simp only [promoteDuplicateDelivery, key, duplicates, Option.isNone_some,
          Bool.false_eq_true, if_false]
        rfl

/-- The worker that finalizes holds the claim of what it has read. -/
structure Finalizes (state : State) (worker : WorkerId) (delivery : DeliveryId) (read : Delivery)
    (row : Delivery) : Prop where
  found : state.deliveries delivery = some row
  draft : row.draft = none
  token : row.claimToken = some worker
  event : row.event = read.event
  attempts : row.attempts = read.attempts
  key : row.dedupeKey = read.dedupeKey

variable {worker : WorkerId} {outcome : Outcome}

theorem finalizes_of (informed : Informed state)
    (phase : state.workers worker = .decided delivery read outcome)
    (held : holds state worker delivery = true) :
    ∃ row, Finalizes state worker delivery read row := by
  have reads := informed worker
  rw [phase] at reads
  obtain ⟨row, found, draft, -, event, -, same⟩ := reads
  simp only [holds, found, Option.any_some, beq_iff_eq] at held
  obtain ⟨attempts, key, -⟩ := same held
  exact ⟨row, found, draft, held, event, attempts, key⟩

def written (state : State) (worker : WorkerId) (delivery : DeliveryId) (read : Delivery)
    (outcome : Outcome) : State :=
  alter state delivery (finalizeRow worker state.now read.attempts outcome)

variable {row : Delivery}

theorem Finalizes.sound (finalizes : Finalizes state worker delivery read row)
    (outcome : Outcome) (sound : Sound state) : Sound (written state worker delivery read outcome) := by
  have inv := sound.row delivery row finalizes.found
  apply sound.alter
  · intro other found
    rw [finalizes.found] at found
    cases found
    have unsuppressed : row.status ≠ .suppressed := by
      have status := inv.held (by rw [finalizes.token]; rfl)
      rintro is
      rw [is] at status
      simp at status
    have after := outcome.status_cases read.attempts
    refine { Plain.refl row with waiting := ?_, link := ?_ }
    · intro is
      dsimp only [finalizeRow] at is
      rw [is] at after
      simp at after
    · intro is
      dsimp only [finalizeRow] at is
      rw [is] at after
      simp at after
  · intro other found
    rw [finalizes.found] at found
    cases found
    rw [← finalizes.attempts]
    exact inv.finalize finalizes.token

theorem written_kept (state : State) (worker other : WorkerId) (delivery : DeliveryId)
    (read : Delivery) (outcome : Outcome) :
    Kept other state (written state worker delivery read outcome) := by
  apply Kept.alter
  intro row found
  exact ⟨fun draft => draft, fun _ => List.cons_ne_nil _ _, rfl, nofun⟩

theorem Finalizes.written_row (finalizes : Finalizes state worker delivery read row) :
    (written state worker delivery read outcome).deliveries delivery =
      some (finalizeRow worker state.now read.attempts outcome row) :=
  alter_self finalizes.found

/-- The state a finalization leaves, before its event is refreshed. -/
def promoted (state : State) (delivery : DeliveryId) (read : Delivery) : Outcome → State
  | .skipped _ => promoteDuplicateDelivery state delivery read
  | .success | .rejected => state

theorem finalize_eq (held : holds state worker delivery = true) :
    finalize state worker delivery read outcome = refreshEventStatus
      (promoted (written state worker delivery read outcome) delivery read outcome) none
        read.event := by
  simp only [finalize, held, if_true]
  rfl

theorem Finalizes.promoted (finalizes : Finalizes state worker delivery read row)
    (outcome : Outcome) (sound : Sound state) :
    Sound (promoted (written state worker delivery read outcome) delivery read outcome) ∧
      ∀ other, Kept other state
        (promoted (written state worker delivery read outcome) delivery read outcome) := by
  have soundToo := finalizes.sound outcome sound
  have kept := fun other => written_kept state worker other delivery read outcome
  cases outcome with
  | success => exact ⟨soundToo, kept⟩
  | rejected => exact ⟨soundToo, kept⟩
  | skipped reason =>
    dsimp only [AlertDelivery.promoted]
    rcases promote_cases soundToo finalizes.written_row rfl finalizes.key rfl with
      ⟨same, -⟩ | ⟨replacement, others, -, ⟨promotes⟩, event, same⟩
    · rw [same]
      exact ⟨soundToo, kept⟩
    · rw [same]
      exact ⟨(promotes.sound soundToo _).refresh none event, fun other =>
        ((kept other).trans (promotes.kept soundToo other _)).trans (.same rfl)⟩

end SourceLens.AlertDelivery
