import SourceLens.AlertDeliverySteps

/-! The agreement of the tables along the runs of the alerts. -/

namespace SourceLens.AlertDelivery

open Transition Option Function

variable {casefold : String → String}

variable {outbox : OutboxKey} {state : State} {row : Delivery}

/-! ### `_evaluate_occurrence` -/

theorem Sound.matchRule (sound : Sound state) {rule : RuleId} {matched : String}
    {policy : DiagnosisPolicy} {evaluation : Evaluation}
    (isOpen : state.evaluations outbox = some evaluation) :
    Sound (matchRule state outbox rule matched policy) := by
  dsimp only [AlertDelivery.matchRule]
  cases eventFor state outbox rule (sourceKeyOf outbox matched) with
  | some id => exact sound
  | none =>
    have old : ∀ id event, state.events id = some event → id ≠ state.nextEvent :=
      fun id event found => Nat.ne_of_lt (sound.freshEvent id event found)
    dsimp only
    refine { sound with
      freshEvent := ?_, event := ?_, eventDraft := ?_, current := ?_, drafted := ?_ }
    · intro id event found
      by_cases new : id = state.nextEvent
      · exact new ▸ Nat.lt_succ_self _
      · exact Nat.lt_succ_of_lt (sound.freshEvent id event
          ((update_of_ne new ..).symm.trans found))
    · intro id row found
      obtain ⟨event, is, facts⟩ := sound.event id row found
      exact ⟨event, (update_of_ne (old _ event is) ..).trans is, facts⟩
    · intro id event found asked draft
      by_cases new : id = state.nextEvent
      · dsimp only at found
        rw [new, update_self] at found
        cases found
        exact Option.some.inj draft
      · exact sound.eventDraft id event ((update_of_ne new ..).symm.trans found) asked
          draft
    · intro asked evaluation event found current
      by_cases same : asked = outbox
      · subst same
        dsimp only at found
        rw [update_self] at found
        cases found
        cases current
        exact ⟨_, update_self .., rfl⟩
      · dsimp only at found
        rw [update_of_ne same] at found
        obtain ⟨row, is, draft⟩ := sound.current asked evaluation event found current
        exact ⟨row, (update_of_ne (old _ row is) ..).trans is, draft⟩
    · intro id event asked found draft
      by_cases same : asked = outbox
      · dsimp only
        rw [same, update_self]
        rfl
      · dsimp only
        rw [update_of_ne same]
        by_cases new : id = state.nextEvent
        · dsimp only at found
          rw [new, update_self] at found
          cases found
          exact absurd (Option.some.inj draft).symm same
        · exact sound.drafted id event asked ((update_of_ne new ..).symm.trans found)
            draft

theorem Sound.free_key (sound : Sound state) {identity : Identity}
    (own : identity.sourceKey.outbox = outbox)
    (missing : keyHolder state (some outbox) identity = none) {id : DeliveryId}
    (found : state.deliveries id = some row) : row.dedupeKey ≠ some identity := by
  intro same
  have is := (sound.row id row found).key identity same
  have seen : visible (some outbox) row.draft = true := by
    apply visible_some.mpr
    cases draft : row.draft with
    | none => exact .inl rfl
    | some other =>
      have drafted := ((sound.row id row found).draft other draft).1
      rw [← is, own] at drafted
      exact .inr (congrArg some drafted.symm)
  exact keyHolder_none sound missing found seen same

structure Drafts (state : State) (outbox : OutboxKey) (key : SourceKey) (row : Delivery) :
    Prop where
  own : key.outbox = outbox
  inv : RowInv row
  event : ∃ event, state.events row.event = some event ∧ event.draft = row.draft ∧
    event.sourceKey = row.identity.sourceKey
  draft : row.draft = some outbox
  unlinked : row.destination.deduplicatedBy = none
  unique : ∀ id other key, state.deliveries id = some other → row.dedupeKey = some key →
    other.dedupeKey ≠ some key

theorem RowInv.await (inv : RowInv row) (pending : row.status = .pending)
    (untried : row.history = []) (diagnosis : Option DiagnosisKey) :
    RowInv { row with diagnosis := diagnosis, status := .diagnosing } where
  lawful := inv.lawful
  attempts := inv.attempts
  token := inv.token
  untried := fun _ => untried
  due := fun is => by cases is
  claimed := fun is => by cases is
  held := fun some => by
    have token := inv.free (by rw [pending]; decide) (by rw [pending]; decide)
    dsimp only at some
    rw [token] at some
    cases some
  key := inv.key
  keyed := fun _ _ => inv.keyed (by rw [pending]; decide) (by rw [pending]; decide)
  bare := fun is => by cases is
  linked := fun _ => inv.linked (by rw [pending]; decide)
  draft := inv.draft
  phase := inv.phase

theorem Drafts.attach {key : SourceKey} (drafts : Drafts state outbox key row) (sound : Sound state)
    (pending : row.status = .pending) (untried : row.history = []) :
    Sound (attachDiagnosis state outbox key row) := by
  have notWaiting : row.status ≠ .diagnosing := by rw [pending]; decide
  have notDuplicate : row.status ≠ .suppressed := by rw [pending]; decide
  dsimp only [attachDiagnosis]
  split
  · exact sound.insert drafts.inv drafts.event (fun is => absurd is notWaiting)
      (fun is => absurd is notDuplicate) drafts.unique
  · exact (sound.getDiagnosis drafts.own).insert { drafts.inv with } drafts.event
      (fun is => absurd is notWaiting) (fun is => absurd is notDuplicate) drafts.unique
  · apply (sound.getDiagnosis drafts.own).insert (drafts.inv.await pending untried _) drafts.event
    · intro _
      obtain ⟨diagnosis, is, draft⟩ := getDiagnosis_some sound
        ⟨key, row.destination.language, _, _⟩ drafts.own
      exact ⟨_, diagnosis, rfl, is, drafts.draft ▸ draft⟩
    · intro is
      cases is
    · exact drafts.unique

theorem attach_kept (sound : Sound state) {key : SourceKey} (own : key.outbox = outbox)
    (row : Delivery) (worker : WorkerId) :
    Kept worker state (attachDiagnosis state outbox key row) := by
  dsimp only [attachDiagnosis]
  split
  · exact .insert sound row
  · exact (Kept.same rfl).trans (.insert (sound.getDiagnosis own) _)
  · exact (Kept.same rfl).trans (.insert (sound.getDiagnosis own) _)

theorem Sound.subscribe (sound : Sound state) (casefold : String → String) {event : EventId}
    {row : Event} (subscription : SubscriptionId) {destination : Destination} (cooling : Bool)
    (found : state.events event = some row) (draft : row.draft = some outbox)
    (unlinked : destination.deduplicatedBy = none) :
    Sound (subscribe casefold state outbox event row.sourceKey subscription destination cooling) ∧
      ∀ worker, Kept worker state
        (subscribe casefold state outbox event row.sourceKey subscription destination cooling) := by
  have own : row.sourceKey.outbox = outbox := sound.eventDraft event row found outbox draft
  have drafted : ∀ other ∈ some outbox,
      (deliveryIdentity casefold row.sourceKey destination .initial).sourceKey.outbox = other ∧
        (deliveryIdentity casefold row.sourceKey destination .initial).phase = .initial :=
    fun other same => ⟨own.trans (Option.some.inj same), rfl⟩
  dsimp only [AlertDelivery.subscribe]
  split
  · exact ⟨sound.insert (.fresh rfl rfl rfl (.inr ⟨rfl, rfl⟩) drafted rfl) ⟨row, found, draft, rfl⟩
      (fun is => by cases is)
      (fun _ original link => by
        dsimp only [newDelivery] at link
        rw [unlinked] at link
        cases link)
      (fun _ _ _ _ no => by cases no), fun worker => .insert sound _⟩
  · split
    · rename_i missing
      refine ⟨Drafts.attach ⟨own, .fresh rfl rfl rfl (.inl ⟨.inl rfl, rfl, unlinked⟩) drafted rfl,
        ⟨row, found, draft, rfl⟩, rfl, unlinked, ?_⟩ sound rfl rfl, attach_kept sound own _⟩
      intro id other key is same
      cases same
      exact sound.free_key own missing is
    · rename_i original holder
      obtain ⟨other, is, seen, key⟩ := keyHolder_some sound holder
      refine ⟨sound.insert (.fresh rfl rfl rfl (.inr ⟨rfl, rfl⟩) drafted rfl) ⟨row, found, draft, rfl⟩
        (fun is => by cases is) ?_ (fun _ _ _ _ no => by cases no), fun worker => .insert sound _⟩
      intro _ linked link
      cases link
      exact ⟨other, is, ((sound.row original other is).key _ key).symm, visible_some.mp seen⟩

theorem Sound.evaluation (sound : Sound state) {evaluation : Evaluation}
    (idle : evaluation.current = none) : Sound (setEvaluation state outbox evaluation) :=
  { sound with
    current := by
      intro asked other event found current
      by_cases same : asked = outbox
      · subst same
        dsimp only [setEvaluation] at found
        rw [update_self] at found
        cases found
        rw [idle] at current
        cases current
      · dsimp only [setEvaluation] at found
        rw [update_of_ne same] at found
        exact sound.current asked other event found current
    drafted := by
      intro id event asked found draft
      by_cases same : asked = outbox
      · dsimp only [setEvaluation]
        rw [same, update_self]
        rfl
      · dsimp only [setEvaluation]
        rw [update_of_ne same]
        exact sound.drafted id event asked found draft }

theorem publish_draft {draft : Option OutboxKey} :
    (publish outbox draft = none ↔ draft = none ∨ draft = some outbox) ∧
      ∀ other, publish outbox draft = some other → draft = some other ∧ other ≠ outbox := by
  dsimp only [publish]
  split
  · rename_i same
    exact ⟨⟨fun _ => .inr same, fun _ => rfl⟩, fun other no => by cases no⟩
  · rename_i different
    refine ⟨⟨.inl, fun either => either.resolve_right different⟩, fun other is => ⟨is, ?_⟩⟩
    rintro rfl
    exact different is

theorem publish_either {first second : Option OutboxKey} (either : first = none ∨ first = second) :
    publish outbox first = none ∨ publish outbox first = publish outbox second :=
  either.imp (fun is => publish_draft.1.mpr (.inl is)) (congrArg (publish outbox))

theorem Sound.close (sound : Sound state) : Sound (closeEvaluation state outbox) := by
  refine ⟨?_, ?_, ?_, ?_, ?_, ?_, ?_, ?_, ?_, ?_, ?_⟩
  · intro id after found
    obtain ⟨row, is, -⟩ := map_eq_some_iff.mp found
    exact sound.fresh id row is
  · intro id after found
    obtain ⟨event, is, -⟩ := map_eq_some_iff.mp found
    exact sound.freshEvent id event is
  · intro id after found
    obtain ⟨row, is, rfl⟩ := map_eq_some_iff.mp found
    exact (sound.row id row is).publish outbox
  · intro id after found
    obtain ⟨row, is, rfl⟩ := map_eq_some_iff.mp found
    obtain ⟨event, known, draft, key⟩ := sound.event id row is
    exact ⟨_, map_eq_some_iff.mpr ⟨event, known, rfl⟩, congrArg (publish outbox) draft, key⟩
  · intro id after found waiting
    obtain ⟨row, is, rfl⟩ := map_eq_some_iff.mp found
    obtain ⟨key, diagnosis, named, known, draft⟩ := sound.waiting id row is waiting
    exact ⟨key, _, named, map_eq_some_iff.mpr ⟨diagnosis, known, rfl⟩, publish_either draft⟩
  · intro id after found suppressed original link
    obtain ⟨row, is, rfl⟩ := map_eq_some_iff.mp found
    obtain ⟨other, known, same, draft⟩ := sound.linked id row is suppressed original link
    exact ⟨_, map_eq_some_iff.mpr ⟨other, known, rfl⟩, same, publish_either draft⟩
  · intro first second one two key found foundToo holds holdsToo
    obtain ⟨row, is, rfl⟩ := map_eq_some_iff.mp found
    obtain ⟨other, isToo, rfl⟩ := map_eq_some_iff.mp foundToo
    exact sound.unique first second row other key is isToo holds holdsToo
  · intro id after found asked draft
    obtain ⟨event, is, rfl⟩ := map_eq_some_iff.mp found
    exact sound.eventDraft id event is asked (publish_draft.2 asked draft).1
  · intro key after found asked draft
    obtain ⟨diagnosis, is, rfl⟩ := map_eq_some_iff.mp found
    exact sound.diagnosisDraft key diagnosis is asked (publish_draft.2 asked draft).1
  · intro asked evaluation event found current
    dsimp only [closeEvaluation] at found
    by_cases same : asked = outbox
    · rw [same, update_self] at found
      cases found
    · rw [update_of_ne same] at found
      obtain ⟨row, is, draft⟩ := sound.current asked evaluation event found current
      refine ⟨_, map_eq_some_iff.mpr ⟨row, is, rfl⟩, ?_⟩
      dsimp only [publish]
      rw [draft, if_neg (fun other => same (Option.some.inj other))]
  · intro id after asked found draft
    obtain ⟨event, is, rfl⟩ := map_eq_some_iff.mp found
    obtain ⟨was, different⟩ := publish_draft.2 asked draft
    dsimp only [closeEvaluation]
    rw [update_of_ne different]
    exact sound.drafted id event asked is was

theorem filter_some {α : Type} {value : Option α} {keep : α → Bool} {found : α} :
    value.filter keep = some found ↔ value = some found ∧ keep found = true := by
  cases value with
  | none => simp
  | some other =>
    by_cases kept : keep other = true
    · simp only [Option.filter, kept, if_true, Option.some.injEq]
      exact ⟨fun same => ⟨same, same ▸ kept⟩, And.left⟩
    · simp only [Option.filter, kept, if_false, Option.some.injEq, reduceCtorEq, false_iff]
      rintro ⟨rfl, keptToo⟩
      exact kept keptToo

theorem Sound.abandon (sound : Sound state) : Sound (abandonEvaluation state outbox) := by
  have either : ∀ {first second : Option OutboxKey}, first = none ∨ first = second →
      (second != some outbox) = true → (first != some outbox) = true := by
    rintro first second (rfl | rfl) kept
    · rfl
    · exact kept
  refine ⟨?_, ?_, ?_, ?_, ?_, ?_, ?_, ?_, ?_, ?_, ?_⟩
  · intro id row found
    exact sound.fresh id row (filter_some.mp found).1
  · intro id event found
    exact sound.freshEvent id event (filter_some.mp found).1
  · intro id row found
    exact sound.row id row (filter_some.mp found).1
  · intro id row found
    obtain ⟨is, kept⟩ := filter_some.mp found
    obtain ⟨event, known, draft, key⟩ := sound.event id row is
    exact ⟨event, filter_some.mpr ⟨known, draft ▸ kept⟩, draft, key⟩
  · intro id row found waiting
    obtain ⟨is, kept⟩ := filter_some.mp found
    obtain ⟨key, diagnosis, named, known, draft⟩ := sound.waiting id row is waiting
    exact ⟨key, diagnosis, named, filter_some.mpr ⟨known, either draft kept⟩, draft⟩
  · intro id row found suppressed original link
    obtain ⟨is, kept⟩ := filter_some.mp found
    obtain ⟨other, known, same, draft⟩ := sound.linked id row is suppressed original link
    exact ⟨other, filter_some.mpr ⟨known, either draft kept⟩, same, draft⟩
  · intro first second one two key found foundToo
    exact sound.unique first second one two key (filter_some.mp found).1 (filter_some.mp foundToo).1
  · intro id event found
    exact sound.eventDraft id event (filter_some.mp found).1
  · intro key diagnosis found
    exact sound.diagnosisDraft key diagnosis (filter_some.mp found).1
  · intro asked evaluation event found current
    dsimp only [abandonEvaluation] at found
    by_cases same : asked = outbox
    · rw [same, update_self] at found
      cases found
    · rw [update_of_ne same] at found
      obtain ⟨row, is, draft⟩ := sound.current asked evaluation event found current
      refine ⟨row, filter_some.mpr ⟨is, ?_⟩, draft⟩
      rw [draft, bne_iff_ne]
      exact fun other => same (Option.some.inj other)
  · intro id event asked found draft
    obtain ⟨is, kept⟩ := filter_some.mp found
    have different : asked ≠ outbox := by
      rintro rfl
      rw [draft] at kept
      simp at kept
    dsimp only [abandonEvaluation]
    rw [update_of_ne different]
    exact sound.drafted id event asked is draft

theorem close_kept (state : State) (outbox : OutboxKey) (worker : WorkerId) :
    Kept worker state (closeEvaluation state outbox) := by
  intro id row found draft
  refine ⟨_, map_eq_some_iff.mpr ⟨row, found, rfl⟩, ?_⟩
  exact { Steady.refl worker row with draft := fun is => publish_draft.1.mpr (.inl is) }

theorem abandon_kept (state : State) (outbox : OutboxKey) (worker : WorkerId) :
    Kept worker state (abandonEvaluation state outbox) :=
  fun id row found draft => ⟨row, filter_some.mpr ⟨found, by rw [draft]; rfl⟩, .refl worker row⟩

end SourceLens.AlertDelivery
