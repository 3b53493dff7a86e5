import SourceLens.AlertDeliveryRows

/-! The tables of the alerts agree with each other after every step. -/

namespace SourceLens.AlertDelivery

open Option

variable {casefold : String → String}

variable {state : State} {id : DeliveryId} {row : Delivery} {viewer : Option OutboxKey}
  {outbox : OutboxKey} {change : DeliveryId → Delivery → Delivery}

structure Sound (state : State) : Prop where
  fresh : ∀ id row, state.deliveries id = some row → id < state.nextDelivery
  freshEvent : ∀ id event, state.events id = some event → id < state.nextEvent
  row : ∀ id row, state.deliveries id = some row → RowInv row
  event : ∀ id row, state.deliveries id = some row → ∃ event,
    state.events row.event = some event ∧ event.draft = row.draft ∧
      event.sourceKey = row.identity.sourceKey
  /-- A delivery that waits for a diagnosis has one that the dispatcher can see. -/
  waiting : ∀ id row, state.deliveries id = some row → row.status = .diagnosing →
    ∃ key diagnosis, row.diagnosis = some key ∧ state.diagnoses key = some diagnosis ∧
      (diagnosis.draft = none ∨ diagnosis.draft = row.draft)
  linked : ∀ id row, state.deliveries id = some row → row.status = .suppressed →
    ∀ original ∈ row.destination.deduplicatedBy, ∃ other,
      state.deliveries original = some other ∧ other.identity = row.identity ∧
        (other.draft = none ∨ other.draft = row.draft)
  unique : ∀ first second one two key, state.deliveries first = some one →
    state.deliveries second = some two → one.dedupeKey = some key → two.dedupeKey = some key →
      first = second
  eventDraft : ∀ id event, state.events id = some event →
    ∀ outbox ∈ event.draft, event.sourceKey.outbox = outbox
  diagnosisDraft : ∀ key diagnosis, state.diagnoses key = some diagnosis →
    ∀ outbox ∈ diagnosis.draft, key.sourceKey.outbox = outbox
  current : ∀ outbox evaluation event, state.evaluations outbox = some evaluation →
    evaluation.current = some event → ∃ row, state.events event = some row ∧
      row.draft = some outbox
  drafted : ∀ id event outbox, state.events id = some event → event.draft = some outbox →
    (state.evaluations outbox).isSome = true

theorem Sound.initial : Sound start where
  fresh := fun _ _ found => by cases found
  freshEvent := fun _ _ found => by cases found
  row := fun _ _ found => by cases found
  event := fun _ _ found => by cases found
  waiting := fun _ _ found => by cases found
  linked := fun _ _ found => by cases found
  unique := fun _ _ _ _ _ found => by cases found
  eventDraft := fun _ _ found => by cases found
  diagnosisDraft := fun _ _ found => by cases found
  current := fun _ _ _ found => by cases found
  drafted := fun _ _ _ found => by cases found

theorem Sound.frame {next : State} (sound : Sound state) (events : next.events = state.events)
    (deliveries : next.deliveries = state.deliveries) (diagnoses : next.diagnoses = state.diagnoses)
    (nextEvent : next.nextEvent = state.nextEvent)
    (nextDelivery : next.nextDelivery = state.nextDelivery)
    (evaluations : next.evaluations = state.evaluations) : Sound next where
  fresh := by rw [deliveries, nextDelivery]; exact sound.fresh
  freshEvent := by rw [events, nextEvent]; exact sound.freshEvent
  row := by rw [deliveries]; exact sound.row
  event := by rw [deliveries, events]; exact sound.event
  waiting := by rw [deliveries, diagnoses]; exact sound.waiting
  linked := by rw [deliveries]; exact sound.linked
  unique := by rw [deliveries]; exact sound.unique
  eventDraft := by rw [events]; exact sound.eventDraft
  diagnosisDraft := by rw [diagnoses]; exact sound.diagnosisDraft
  current := by rw [evaluations, events]; exact sound.current
  drafted := by rw [evaluations, events]; exact sound.drafted

theorem Sound.setWorker (sound : Sound state) (worker : WorkerId) (phase : Worker) :
    Sound (setWorker state worker phase) :=
  sound.frame rfl rfl rfl rfl rfl rfl

theorem Sound.setDispatcher (sound : Sound state) (dispatcher : DispatcherId) (phase : Dispatcher) :
    Sound (setDispatcher state dispatcher phase) :=
  sound.frame rfl rfl rfl rfl rfl rfl

theorem mem_query (sound : Sound state) {found : DeliveryId → Delivery → Bool} :
    id ∈ query state viewer found ↔ ∃ row, state.deliveries id = some row ∧
      visible viewer row.draft = true ∧ found id row = true := by
  simp only [query, List.mem_filter, List.mem_range, any_eq_true, Bool.and_eq_true]
  constructor
  · rintro ⟨-, row, is, seen, good⟩
    exact ⟨row, is, seen, good⟩
  · rintro ⟨row, is, seen, good⟩
    exact ⟨sound.fresh id row is, row, is, seen, good⟩

theorem visible_none {draft : Option OutboxKey} : visible none draft = true ↔ draft = none := by
  cases draft <;> simp [visible]

theorem visible_some {draft : Option OutboxKey} :
    visible (some outbox) draft = true ↔ draft = none ∨ draft = some outbox := by
  cases draft <;> simp [visible]

theorem keyHolder_some (sound : Sound state) {key : Identity}
    (found : keyHolder state viewer key = some id) :
    ∃ row, state.deliveries id = some row ∧ visible viewer row.draft = true ∧
      row.dedupeKey = some key := by
  obtain ⟨row, is, seen, same⟩ := (mem_query sound).mp (List.mem_of_head? found)
  exact ⟨row, is, seen, beq_iff_eq.mp same⟩

theorem keyHolder_none (sound : Sound state) {key : Identity}
    (missing : keyHolder state viewer key = none) (found : state.deliveries id = some row)
    (seen : visible viewer row.draft = true) : row.dedupeKey ≠ some key := by
  intro same
  have member : id ∈ query state viewer fun _ row => row.dedupeKey == some key :=
    (mem_query sound).mpr ⟨row, found, seen, beq_iff_eq.mpr same⟩
  rw [List.head?_eq_none_iff.mp missing] at member
  cases member

structure Change (before after : Delivery) : Prop where
  event : after.event = before.event
  subscription : after.subscription = before.subscription
  identity : after.identity = before.identity
  draft : after.draft = before.draft
  waiting : after.status = .diagnosing → before.status = .diagnosing ∧
    after.diagnosis = before.diagnosis

theorem Change.refl (row : Delivery) : Change row row := ⟨rfl, rfl, rfl, rfl, fun is => ⟨is, rfl⟩⟩

theorem each_some {after : Delivery} : (each state change).deliveries id = some after ↔
      ∃ row, state.deliveries id = some row ∧ change id row = after := map_eq_some_iff

/-- The rows of `each` keep the tables in agreement once the keys and the links do. -/
theorem Sound.each_of (sound : Sound state)
    (changes : ∀ id row, state.deliveries id = some row → Change row (change id row))
    (rows : ∀ id row, state.deliveries id = some row → RowInv (change id row))
    (linked : ∀ id row, state.deliveries id = some row → (change id row).status = .suppressed →
      ∀ original ∈ (change id row).destination.deduplicatedBy, ∃ other,
        state.deliveries original = some other ∧ other.identity = row.identity ∧
          (other.draft = none ∨ other.draft = row.draft))
    (unique : ∀ first second one two key, state.deliveries first = some one →
      state.deliveries second = some two → (change first one).dedupeKey = some key →
        (change second two).dedupeKey = some key → first = second) : Sound (each state change) where
  fresh := by
    intro id after found
    obtain ⟨row, is, -⟩ := each_some.mp found
    exact sound.fresh id row is
  freshEvent := sound.freshEvent
  row := by
    intro id after found
    obtain ⟨row, is, rfl⟩ := each_some.mp found
    exact rows id row is
  event := by
    intro id after found
    obtain ⟨row, is, rfl⟩ := each_some.mp found
    have same := changes id row is
    rw [same.event, same.draft, same.identity]
    exact sound.event id row is
  waiting := by
    intro id after found waiting
    obtain ⟨row, is, rfl⟩ := each_some.mp found
    have same := changes id row is
    obtain ⟨was, diagnosis⟩ := same.waiting waiting
    rw [diagnosis, same.draft]
    exact sound.waiting id row is was
  linked := by
    intro id after found suppressed original link
    obtain ⟨row, is, rfl⟩ := each_some.mp found
    obtain ⟨other, known, identity, draft⟩ := linked id row is suppressed original link
    have same := changes id row is
    have sameToo := changes original other known
    refine ⟨change original other, each_some.mpr ⟨other, known, rfl⟩, ?_, ?_⟩
    · rw [sameToo.identity, same.identity, identity]
    · rw [sameToo.draft, same.draft]
      exact draft
  unique := by
    intro first second one two key found foundToo holds holdsToo
    obtain ⟨row, is, rfl⟩ := each_some.mp found
    obtain ⟨other, isToo, rfl⟩ := each_some.mp foundToo
    exact unique first second row other key is isToo holds holdsToo
  eventDraft := sound.eventDraft
  diagnosisDraft := sound.diagnosisDraft
  current := sound.current
  drafted := sound.drafted

structure Plain (before after : Delivery) : Prop extends Change before after where
  key : after.dedupeKey = before.dedupeKey
  link : after.status = .suppressed → before.status = .suppressed ∧
    after.destination.deduplicatedBy = before.destination.deduplicatedBy

theorem Plain.refl (row : Delivery) : Plain row row :=
  { Change.refl row with key := rfl, link := fun is => ⟨is, rfl⟩ }

theorem Sound.each (sound : Sound state)
    (plain : ∀ id row, state.deliveries id = some row → Plain row (change id row))
    (rows : ∀ id row, state.deliveries id = some row → RowInv (change id row)) :
    Sound (each state change) := by
  apply sound.each_of (fun id row is => (plain id row is).toChange) rows
  · intro id row is suppressed original link
    obtain ⟨was, same⟩ := (plain id row is).link suppressed
    rw [same] at link
    exact sound.linked id row is was original link
  · intro first second one two key is isToo holds holdsToo
    rw [(plain first one is).key] at holds
    rw [(plain second two isToo).key] at holdsToo
    exact sound.unique first second one two key is isToo holds holdsToo

theorem Sound.alter (sound : Sound state) {delivery : DeliveryId} {change : Delivery → Delivery}
    (plain : ∀ row, state.deliveries delivery = some row → Plain row (change row))
    (rows : ∀ row, state.deliveries delivery = some row → RowInv (change row)) :
    Sound (alter state delivery change) := by
  apply sound.each
  · intro id row is
    split
    · rename_i same
      exact plain row (same ▸ is)
    · exact .refl row
  · intro id row is
    split
    · rename_i same
      exact rows row (same ▸ is)
    · exact sound.row id row is

theorem alter_self {delivery : DeliveryId} {change : Delivery → Delivery}
    (found : state.deliveries delivery = some row) :
    (alter state delivery change).deliveries delivery = some (change row) := by
  simp only [alter, AlertDelivery.each, found, map_some, if_true]

theorem insert_cases {after : Delivery} (found : (insert state row).deliveries id = some after) :
    id = state.nextDelivery ∧ after = row ∨ state.deliveries id = some after := by
  dsimp only [insert] at found
  by_cases new : id = state.nextDelivery
  · rw [new, Function.update_self] at found
    exact .inl ⟨new, (Option.some.inj found).symm⟩
  · rw [Function.update_of_ne new] at found
    exact .inr found

theorem insert_kept (sound : Sound state) {other : Delivery}
    (found : state.deliveries id = some other) : (insert state row).deliveries id = some other := by
  have old := Nat.ne_of_lt (sound.fresh id other found)
  dsimp only [insert]
  rw [Function.update_of_ne old]
  exact found

theorem Sound.insert (sound : Sound state) (inv : RowInv row)
    (event : ∃ event, state.events row.event = some event ∧ event.draft = row.draft ∧
      event.sourceKey = row.identity.sourceKey)
    (waiting : row.status = .diagnosing → ∃ key diagnosis, row.diagnosis = some key ∧
      state.diagnoses key = some diagnosis ∧
        (diagnosis.draft = none ∨ diagnosis.draft = row.draft))
    (linked : row.status = .suppressed → ∀ original ∈ row.destination.deduplicatedBy, ∃ other,
      state.deliveries original = some other ∧ other.identity = row.identity ∧
        (other.draft = none ∨ other.draft = row.draft))
    (unique : ∀ id other key, state.deliveries id = some other → row.dedupeKey = some key →
      other.dedupeKey ≠ some key) : Sound (insert state row) := by
  refine ⟨?_, sound.freshEvent, ?_, ?_, ?_, ?_, ?_, sound.eventDraft, sound.diagnosisDraft,
    sound.current, sound.drafted⟩
  · intro id after found
    rcases insert_cases found with ⟨rfl, rfl⟩ | found
    · exact Nat.lt_succ_self _
    · exact Nat.lt_succ_of_lt (sound.fresh id after found)
  · intro id after found
    rcases insert_cases found with ⟨rfl, rfl⟩ | found
    · exact inv
    · exact sound.row id after found
  · intro id after found
    rcases insert_cases found with ⟨rfl, rfl⟩ | found
    · exact event
    · exact sound.event id after found
  · intro id after found
    rcases insert_cases found with ⟨rfl, rfl⟩ | found
    · exact waiting
    · exact sound.waiting id after found
  · intro id after found suppressed original link
    have earlier : ∃ other, state.deliveries original = some other ∧
        other.identity = after.identity ∧ (other.draft = none ∨ other.draft = after.draft) := by
      rcases insert_cases found with ⟨rfl, rfl⟩ | found
      · exact linked suppressed original link
      · exact sound.linked id after found suppressed original link
    obtain ⟨other, known, same⟩ := earlier
    exact ⟨other, insert_kept sound known, same⟩
  · intro first second one two key found foundToo holds holdsToo
    rcases insert_cases found with ⟨new, rfl⟩ | old <;>
      rcases insert_cases foundToo with ⟨newToo, rfl⟩ | oldToo
    · exact new.trans newToo.symm
    · exact absurd holdsToo (unique second two key oldToo holds)
    · exact absurd holds (unique first one key old holdsToo)
    · exact sound.unique first second one two key old oldToo holds holdsToo

theorem refresh_some {refreshed id : EventId} {after : Event} :
    (refreshEventStatus state viewer refreshed).events id = some after ↔
      ∃ event, state.events id = some event ∧ (if id = refreshed then
        { event with status := summary (statuses state viewer refreshed) } else event) = after := by
  by_cases same : id = refreshed
  · subst same
    simp only [refreshEventStatus, Function.update_self, map_eq_some_iff, if_true]
  · simp only [refreshEventStatus, Function.update_of_ne same, if_neg same, exists_eq_right]

theorem Sound.refresh (sound : Sound state) (viewer : Option OutboxKey) (refreshed : EventId) :
    Sound (refreshEventStatus state viewer refreshed) := by
  have kept : ∀ id event, state.events id = some event →
      ∃ after, (refreshEventStatus state viewer refreshed).events id = some after ∧
        after.draft = event.draft ∧ after.sourceKey = event.sourceKey := by
    intro id event found
    refine ⟨_, refresh_some.mpr ⟨event, found, rfl⟩, ?_, ?_⟩ <;> split <;> rfl
  have was : ∀ id after, (refreshEventStatus state viewer refreshed).events id = some after →
      ∃ event, state.events id = some event ∧ after.draft = event.draft ∧
        after.sourceKey = event.sourceKey := by
    intro id after found
    obtain ⟨event, is, rfl⟩ := refresh_some.mp found
    refine ⟨event, is, ?_, ?_⟩ <;> split <;> rfl
  refine ⟨sound.fresh, ?_, sound.row, ?_, sound.waiting, sound.linked, sound.unique, ?_,
    sound.diagnosisDraft, ?_, ?_⟩
  · intro id after found
    obtain ⟨event, is, -⟩ := was id after found
    exact sound.freshEvent id event is
  · intro id row found
    obtain ⟨event, is, draft, key⟩ := sound.event id row found
    obtain ⟨after, known, draftToo, keyToo⟩ := kept row.event event is
    exact ⟨after, known, draftToo.trans draft, keyToo.trans key⟩
  · intro id after found outbox draft
    obtain ⟨event, is, draftToo, keyToo⟩ := was id after found
    rw [keyToo]
    exact sound.eventDraft id event is outbox (draftToo ▸ draft)
  · intro outbox evaluation event found current
    obtain ⟨row, is, draft⟩ := sound.current outbox evaluation event found current
    obtain ⟨after, known, draftToo, -⟩ := kept event row is
    exact ⟨after, known, draftToo.trans draft⟩
  · intro id after outbox found draft
    obtain ⟨event, is, draftToo, -⟩ := was id after found
    exact sound.drafted id event outbox is (draftToo ▸ draft)

theorem Sound.refreshAll (sound : Sound state) (events : List EventId) :
    Sound (refreshAll state events) := by
  induction events generalizing state with
  | nil => exact sound
  | cons event rest ih => exact ih (sound.refresh none event)

theorem Sound.diagnoses (sound : Sound state) {diagnoses : DiagnosisKey → Option Diagnosis}
    (kept : ∀ key diagnosis, state.diagnoses key = some diagnosis →
      ∃ after, diagnoses key = some after ∧ after.draft = diagnosis.draft)
    (was : ∀ key after, diagnoses key = some after → ∀ outbox ∈ after.draft,
      key.sourceKey.outbox = outbox) : Sound { state with diagnoses := diagnoses } :=
  { sound with
    waiting := by
      intro id row found waiting
      obtain ⟨key, diagnosis, is, known, draft⟩ := sound.waiting id row found waiting
      obtain ⟨after, still, same⟩ := kept key diagnosis known
      exact ⟨key, after, is, still, same ▸ draft⟩
    diagnosisDraft := was }

theorem timeOut_draft (now : Time) (row : Diagnosis) : (timeOut now row).draft = row.draft := by
  dsimp only [timeOut]
  split <;> rfl

theorem Sound.expire (sound : Sound state) : Sound (expireDiagnoses state) := by
  apply sound.diagnoses
  · intro key diagnosis found
    exact ⟨_, map_eq_some_iff.mpr ⟨diagnosis, found, rfl⟩, timeOut_draft _ _⟩
  · intro key after found outbox draft
    obtain ⟨diagnosis, is, rfl⟩ := map_eq_some_iff.mp found
    rw [timeOut_draft] at draft
    exact sound.diagnosisDraft key diagnosis is outbox draft

theorem Sound.setDiagnosis (sound : Sound state) {key : DiagnosisKey} {row after : Diagnosis}
    (found : state.diagnoses key = some row) (same : after.draft = row.draft) :
    Sound (setDiagnosis state key after) := by
  apply sound.diagnoses
  · intro other diagnosis is
    by_cases this : other = key
    · subst this
      rw [found] at is
      cases is
      exact ⟨after, Function.update_self .., same⟩
    · exact ⟨diagnosis, (Function.update_of_ne this ..).trans is, rfl⟩
  · intro other diagnosis is outbox draft
    by_cases this : other = key
    · subst this
      rw [Function.update_self] at is
      cases is
      exact sound.diagnosisDraft other row found outbox (same ▸ draft)
    · rw [Function.update_of_ne this] at is
      exact sound.diagnosisDraft other diagnosis is outbox draft

theorem Sound.getDiagnosis (sound : Sound state) {key : DiagnosisKey}
    (own : key.sourceKey.outbox = outbox) : Sound (getDiagnosis state outbox key) := by
  apply sound.diagnoses
  · intro other diagnosis is
    by_cases this : other = key
    · subst this
      exact ⟨diagnosis, by rw [Function.update_self, is, getD_some], rfl⟩
    · exact ⟨diagnosis, (Function.update_of_ne this ..).trans is, rfl⟩
  · intro other diagnosis is asked draft
    by_cases this : other = key
    · subst this
      rw [Function.update_self] at is
      cases known : state.diagnoses other with
      | none =>
        rw [known] at is
        cases is
        cases draft
        exact own
      | some row =>
        rw [known] at is
        cases is
        exact sound.diagnosisDraft other row known asked draft
    · rw [Function.update_of_ne this] at is
      exact sound.diagnosisDraft other diagnosis is asked draft

theorem getDiagnosis_some (sound : Sound state) (key : DiagnosisKey)
    (own : key.sourceKey.outbox = outbox) :
    ∃ diagnosis, (getDiagnosis state outbox key).diagnoses key = some diagnosis ∧
      (diagnosis.draft = none ∨ diagnosis.draft = some outbox) := by
  refine ⟨_, Function.update_self .., ?_⟩
  cases known : state.diagnoses key with
  | none => exact .inr rfl
  | some row =>
    cases draft : row.draft with
    | none => exact .inl draft
    | some other =>
      rw [sound.diagnosisDraft key row known other draft] at own
      exact .inr (own ▸ draft)

end SourceLens.AlertDelivery
