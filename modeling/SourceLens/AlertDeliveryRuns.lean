import SourceLens.AlertDeliverySafety

/-! The agreement of the tables holds in every state that the alerts reach. -/

namespace SourceLens.AlertDelivery

open Transition Option

variable {casefold : String → String} {state : State}

variable {original : DeliveryId}

/-! ### `advance_alert_diagnoses` -/

theorem waits_cases {row : Delivery} (waiting : waits state row = true) :
    row.draft = none ∧ row.status = .diagnosing ∧
      (diagnosisStatus state row).any DiagnosisStatus.final = true := by
  simp only [waits, Bool.and_eq_true, beq_iff_eq, isNone_iff_eq_none] at waiting
  exact ⟨waiting.1.1, waiting.1.2, waiting.2⟩

theorem Sound.release (sound : Sound state) : Sound (release state) := by
  apply sound.each
  · intro id row found
    split
    · exact { Plain.refl row with waiting := fun is => (by cases is), link := fun is => (by cases is) }
    · exact .refl row
  · intro id row found
    split
    · rename_i waiting
      exact (sound.row id row found).release (waits_cases waiting).2.1
    · exact sound.row id row found

theorem release_kept (state : State) (worker : WorkerId) : Kept worker state (release state) := by
  apply Kept.each
  intro id row found
  split
  · exact { Steady.refl worker row with }
  · exact .refl worker row

def Notified (state : State) (original : DeliveryId) : Prop :=
  ∃ row, state.deliveries original = some row ∧ row.draft = none ∧ row.status = .sent

theorem notified_of_mem (sound : Sound state) (member : original ∈ originals state) :
    Notified state original := by
  obtain ⟨row, found, seen, good⟩ := (mem_query sound).mp (List.mem_of_mem_take member)
  simp only [Bool.and_eq_true, beq_iff_eq] at good
  exact ⟨row, found, visible_none.mp seen, good.1.1.1.1⟩

theorem supplement_cases (casefold : String → String) (state : State) (original : DeliveryId) :
    (supplement casefold state original).1 = state ∧ (supplement casefold state original).2 = [] ∨
    ∃ row event, state.deliveries original = some row ∧ state.events row.event = some event ∧
      ((keyHolder state none (deliveryIdentity casefold event.sourceKey row.destination .diagnosis)
          = none ∧
        supplement casefold state original = (insert state
          { newDelivery state.now row.event row.subscription .diagnosis row.destination
              (deliveryIdentity casefold event.sourceKey row.destination .diagnosis) with
            dedupeKey :=
              some (deliveryIdentity casefold event.sourceKey row.destination .diagnosis)
            diagnosis := row.diagnosis }, [row.event])) ∨
      ∃ holder, keyHolder state none
          (deliveryIdentity casefold event.sourceKey row.destination .diagnosis) = some holder ∧
        supplement casefold state original = (insert state
          { newDelivery state.now row.event row.subscription .diagnosis row.destination
              (deliveryIdentity casefold event.sourceKey row.destination .diagnosis) with
            status := .suppressed
            errorMessage := "Duplicate diagnosis destination" }, [])) := by
  cases found : state.deliveries original with
  | none => exact .inl (by simp only [supplement, found, and_self])
  | some row =>
    cases known : state.events row.event with
    | none => exact .inl (by simp only [supplement, found, known, and_self])
    | some event =>
      cases key : keyHolder state none
          (deliveryIdentity casefold event.sourceKey row.destination .diagnosis) with
      | none => exact .inr ⟨row, event, rfl, known, .inl ⟨key, by
          simp only [supplement, found, known, key]⟩⟩
      | some holder =>
        by_cases skip : ((state.deliveries holder).any fun other =>
            other.event == row.event && other.subscription == row.subscription) ||
              !(delivered state row.event row.subscription .diagnosis).isEmpty
        · exact .inl (by simp only [supplement, found, known, key, skip, if_true, and_self])
        · exact .inr ⟨row, event, rfl, known, .inr ⟨holder, key, by
            simp only [supplement, found, known, key, skip, if_false, Bool.false_eq_true]⟩⟩

theorem Sound.supplement (sound : Sound state) (casefold : String → String)
    (notified : Notified state original) : Sound (supplement casefold state original).1 := by
  obtain ⟨row, found, draft, sent⟩ := notified
  rcases supplement_cases casefold state original with
    ⟨same, -⟩ | ⟨row', event, found', known, ⟨missing, same⟩ | ⟨holder, held, same⟩⟩
  · rw [same]
    exact sound
  all_goals
    rw [found] at found'
    cases found'
    have inv := sound.row original row found
    have unlinked := inv.linked (by rw [sent]; decide)
    obtain ⟨event', known', drafted, -⟩ := sound.event original row found
    rw [known] at known'
    cases known'
    rw [same]
  · refine sound.insert (.fresh rfl rfl rfl (.inl ⟨.inl rfl, rfl, unlinked⟩)
      (fun _ no => by cases no) rfl) ⟨event, known, drafted.trans draft, rfl⟩
      (fun is => by cases is) (fun is => by cases is) ?_
    intro id other key is identity holds
    cases identity
    have same := (sound.row id other is).key _ holds
    have committed : other.draft = none := by
      cases drafted : other.draft with
      | none => rfl
      | some outbox =>
        have phase := ((sound.row id other is).draft outbox drafted).2
        rw [← same] at phase
        cases phase
    exact keyHolder_none sound missing is (visible_none.mpr committed) holds
  · exact sound.insert (.fresh rfl rfl rfl (.inr ⟨rfl, rfl⟩) (fun _ no => by cases no) rfl)
      ⟨event, known, drafted.trans draft, rfl⟩ (fun is => by cases is)
      (fun _ original link => by
        dsimp only [newDelivery] at link
        rw [unlinked] at link
        cases link)
      (fun _ _ _ _ no => by cases no)

def Grows (state next : State) : Prop :=
  ∀ id row, state.deliveries id = some row → next.deliveries id = some row

theorem supplement_grows (casefold : String → String) (sound : Sound state) (original : DeliveryId) :
    Grows state (supplement casefold state original).1 := by
  intro id row found
  rcases supplement_cases casefold state original with
    ⟨same, -⟩ | ⟨row', event, -, -, ⟨-, same⟩ | ⟨holder, -, same⟩⟩
  · rw [same]
    exact found
  · rw [same]
    exact insert_kept sound found
  · rw [same]
    exact insert_kept sound found

theorem Notified.grows {next : State} (notified : Notified state original)
    (grows : Grows state next) : Notified next original := by
  obtain ⟨row, found, facts⟩ := notified
  exact ⟨row, grows original row found, facts⟩

theorem Grows.kept {next : State} (grows : Grows state next) (worker : WorkerId) :
    Kept worker state next :=
  fun id row found _ => ⟨row, grows id row found, .refl worker row⟩

theorem Sound.supplements {state : State} (sound : Sound state) {list : List DeliveryId}
    (notified : ∀ original ∈ list, Notified state original) :
    Sound (supplements casefold state list).1 ∧ Grows state (supplements casefold state list).1 := by
  induction list generalizing state with
  | nil => exact ⟨sound, fun _ _ found => found⟩
  | cons original rest ih =>
    have grows := supplement_grows casefold sound original
    obtain ⟨soundToo, growsToo⟩ := ih
      (sound.supplement casefold (notified original (List.mem_cons_self ..)))
      fun other member => (notified other (List.mem_cons_of_mem _ member)).grows grows
    exact ⟨soundToo, fun id row found => growsToo id row (grows id row found)⟩

theorem refreshAll_frame (state : State) (events : List EventId) :
    (refreshAll state events).deliveries = state.deliveries ∧
      (refreshAll state events).workers = state.workers ∧
      (refreshAll state events).dispatchers = state.dispatchers ∧
      (refreshAll state events).evaluations = state.evaluations := by
  induction events generalizing state with
  | nil => exact ⟨rfl, rfl, rfl, rfl⟩
  | cons event rest ih => exact ih (refreshEventStatus state none event)

theorem supplement_frame (casefold : String → String) (state : State) (original : DeliveryId) :
    (supplement casefold state original).1.workers = state.workers ∧
      (supplement casefold state original).1.events = state.events ∧
      (supplement casefold state original).1.dispatchers = state.dispatchers ∧
      (supplement casefold state original).1.evaluations = state.evaluations := by
  rcases supplement_cases casefold state original with
    ⟨same, -⟩ | ⟨row, event, -, -, ⟨-, same⟩ | ⟨holder, -, same⟩⟩ <;>
    · rw [same]
      exact ⟨rfl, rfl, rfl, rfl⟩

theorem supplements_frame (casefold : String → String) (state : State) (list : List DeliveryId) :
    (supplements casefold state list).1.workers = state.workers ∧
      (supplements casefold state list).1.events = state.events ∧
      (supplements casefold state list).1.dispatchers = state.dispatchers ∧
      (supplements casefold state list).1.evaluations = state.evaluations := by
  induction list generalizing state with
  | nil => exact ⟨rfl, rfl, rfl, rfl⟩
  | cons original rest ih =>
    obtain ⟨workers, events, dispatchers, evaluations⟩ :=
      supplement_frame casefold state original
    obtain ⟨workersToo, eventsToo, dispatchersToo, evaluationsToo⟩ :=
      ih (supplement casefold state original).1
    exact ⟨workersToo.trans workers, eventsToo.trans events, dispatchersToo.trans dispatchers,
      evaluationsToo.trans evaluations⟩

def released (state : State) : State := release (expireDiagnoses state)

theorem Sound.released (sound : Sound state) : Sound (released state) := sound.expire.release

theorem Sound.added (casefold : String → String) (sound : Sound state) :
    Sound (AlertDelivery.supplements casefold (AlertDelivery.released state)
        (originals (AlertDelivery.released state))).1 ∧
      Grows (AlertDelivery.released state) (AlertDelivery.supplements casefold (AlertDelivery.released state)
        (originals (AlertDelivery.released state))).1 :=
  sound.released.supplements fun _ member => notified_of_mem sound.released member

theorem Sound.advance (sound : Sound state) : Sound (advanceAlertDiagnoses casefold state) :=
  (sound.added casefold).1.refreshAll _

theorem advance_kept (sound : Sound state) (worker : WorkerId) :
    Kept worker state (advanceAlertDiagnoses casefold state) :=
  (((Kept.same rfl).trans (release_kept (expireDiagnoses state) worker)).trans
    ((sound.added casefold).2.kept worker)).trans (.same (refreshAll_frame _ _).1)

structure Inv (state : State) : Prop where
  sound : Sound state
  informed : Informed state

theorem Inv.initial : Inv start := ⟨.initial, fun _ => trivial⟩

variable {next : State} {action : Action}

theorem Inv.evaluation (inv : Inv state) (taken : evaluationStep casefold state action = some next) :
    Inv next := by
  have sound := inv.sound
  cases action with
  | openEvaluation outbox =>
    simp only [evaluationStep, ite_none_right_eq_some, Option.some.injEq] at taken
    obtain ⟨-, rfl⟩ := taken
    exact ⟨sound.evaluation rfl, inv.informed.kept (fun _ => .same rfl) rfl⟩
  | matchRule outbox rule matched policy =>
    simp only [evaluationStep] at taken
    split at taken
    · rename_i isOpen
      cases taken
      refine ⟨sound.matchRule isOpen, inv.informed.kept (fun _ => .same ?_) ?_⟩ <;>
        · dsimp only [matchRule]
          split <;> rfl
    · cases taken
  | subscribe outbox subscription destination cooling =>
    simp only [evaluationStep] at taken
    split at taken
    · rename_i event isOpen
      split at taken
      · rename_i row found
        simp only [ite_none_right_eq_some, Option.some.injEq] at taken
        obtain ⟨⟨unlinked, -⟩, rfl⟩ := taken
        obtain ⟨row', found', draft⟩ := sound.current outbox _ event isOpen rfl
        rw [found] at found'
        cases found'
        obtain ⟨soundToo, kept⟩ := sound.subscribe casefold
          subscription cooling found draft unlinked
        refine ⟨soundToo, inv.informed.kept kept ?_⟩
        dsimp only [subscribe, attachDiagnosis]
        repeat' split
        all_goals rfl
      · cases taken
    · cases taken
  | finishRule outbox =>
    simp only [evaluationStep] at taken
    split at taken
    · cases taken
      exact ⟨(sound.refresh _ _).evaluation rfl, inv.informed.kept (fun _ => .same rfl) rfl⟩
    · cases taken
  | closeEvaluation outbox =>
    simp only [evaluationStep] at taken
    split at taken
    · cases taken
      exact ⟨sound.close, inv.informed.kept (close_kept state outbox) rfl⟩
    · cases taken
  | abandonEvaluation outbox =>
    simp only [evaluationStep] at taken
    split at taken
    · cases taken
      exact ⟨sound.abandon, inv.informed.kept (abandon_kept state outbox) rfl⟩
    · cases taken
  | _ => cases taken

theorem claimRow_plain (worker : WorkerId) (now : Time) (row : Delivery) :
    Plain row (claimRow worker now row) :=
  { Plain.refl row with waiting := fun is => (by cases is), link := fun is => (by cases is) }

theorem localize_steady (worker : WorkerId) (language : Option String) (read row : Delivery) :
    Steady worker row (localize language read row) := by
  cases language with
  | none => exact .refl worker row
  | some language => exact { Steady.refl worker row with }

theorem finalize_frame (state : State) (worker : WorkerId) (delivery : DeliveryId)
    (read : Delivery) (outcome : Outcome) :
    (finalize state worker delivery read outcome).workers = state.workers ∧
      (finalize state worker delivery read outcome).dispatchers = state.dispatchers ∧
      (finalize state worker delivery read outcome).evaluations = state.evaluations := by
  have promotes : ∀ (state : State), (promoteDuplicateDelivery state delivery read).workers =
      state.workers ∧ (promoteDuplicateDelivery state delivery read).dispatchers =
        state.dispatchers ∧ (promoteDuplicateDelivery state delivery read).evaluations =
          state.evaluations := by
    intro state
    dsimp only [promoteDuplicateDelivery]
    split
    · exact ⟨rfl, rfl, rfl⟩
    · split <;> exact ⟨rfl, rfl, rfl⟩
  dsimp only [finalize]
  split
  · cases outcome with
    | success => exact ⟨rfl, rfl, rfl⟩
    | rejected => exact ⟨rfl, rfl, rfl⟩
    | skipped reason => exact promotes _
  · exact ⟨rfl, rfl, rfl⟩

theorem Inv.worker (inv : Inv state) (taken : workerStep state action = some next) : Inv next := by
  have sound := inv.sound
  cases action with
  | startWorker worker delivery =>
    simp only [workerStep] at taken
    split at taken
    · cases taken
      exact ⟨sound.setWorker .., inv.informed.setWorker (fun _ _ => .same rfl) rfl trivial⟩
    · cases taken
  | claim worker =>
    simp only [workerStep] at taken
    split at taken
    · rename_i delivery now phase
      split at taken
      · rename_i able
        cases taken
        obtain ⟨row, found, good⟩ := (any_eq_true _ _).mp able
        simp only [Bool.and_eq_true, isNone_iff_eq_none] at good
        have soundToo : Sound (alter state delivery (claimRow worker now)) := by
          apply sound.alter
          · exact fun row _ => claimRow_plain worker now row
          · intro other is
            rw [found] at is
            cases is
            exact (sound.row delivery row found).claim good.2
        refine ⟨soundToo.setWorker .., inv.informed.setWorker ?_ rfl ?_⟩
        · intro other different
          apply Kept.alter
          intro row _
          exact ⟨fun draft => draft, fun _ => List.cons_ne_nil _ _, rfl,
            fun held => absurd (Option.some.inj held).symm different⟩
        · exact ⟨claimRow worker now row, alter_self found, good.1, List.cons_ne_nil _ _⟩
      · cases taken
        exact ⟨sound.setWorker .., inv.informed.setWorker (fun _ _ => .same rfl) rfl trivial⟩
    · cases taken
  | load worker =>
    simp only [workerStep] at taken
    split at taken
    · rename_i delivery phase
      obtain ⟨row, found, rfl⟩ := map_eq_some_iff.mp taken
      have reads := inv.informed worker
      rw [phase] at reads
      obtain ⟨row', found', draft, tried⟩ := reads
      rw [found] at found'
      cases found'
      refine ⟨sound.setWorker .., inv.informed.setWorker (fun _ _ => .same rfl) rfl
        ⟨row, found, draft, tried, rfl, ?_, fun _ => ⟨rfl, rfl, rfl⟩⟩⟩
      apply (sound.row delivery row found).linked
      exact fun suppressed => tried ((sound.row delivery row found).untried (.inr suppressed))
    · cases taken
  | deliver worker language outcome =>
    simp only [workerStep] at taken
    split at taken
    · rename_i delivery read phase
      cases taken
      have reads := inv.informed worker
      rw [phase] at reads
      obtain ⟨row, found, draft, tried, event, unlinked, held⟩ := reads
      have soundToo : Sound (alter state delivery (localize language read)) := by
        apply sound.alter
        · intro other is
          rw [found] at is
          cases is
          have unsuppressed : row.status ≠ .suppressed := fun suppressed =>
            tried ((sound.row delivery row found).untried (.inr suppressed))
          cases language with
          | none => exact .refl row
          | some language =>
            exact { Plain.refl row with link := fun is => absurd is unsuppressed }
        · intro other is
          exact (sound.row delivery other is).localize unlinked
      have reads : Reads (alter state delivery (localize language read)) worker
          (.decided delivery (localized language read) outcome) := by
        refine ⟨_, alter_self found, ?_⟩
        cases language with
        | none => exact ⟨draft, tried, event, unlinked, held⟩
        | some language => exact ⟨draft, tried, event, unlinked, held⟩
      exact ⟨soundToo.setWorker .., inv.informed.setWorker (fun other _ =>
        .alter fun row _ => localize_steady other language read row) rfl reads⟩
    · cases taken
  | finalize worker =>
    simp only [workerStep] at taken
    split at taken
    · rename_i delivery read outcome phase
      cases taken
      by_cases held : holds state worker delivery = true
      · obtain ⟨row, finalizes⟩ := finalizes_of inv.informed phase held
        obtain ⟨soundToo, kept⟩ := finalizes.promoted outcome sound
        refine ⟨?_, inv.informed.setWorker (fun other _ => ?_) (finalize_frame ..).1 trivial⟩
        · rw [finalize_eq held]
          exact (soundToo.refresh none read.event).setWorker ..
        · rw [finalize_eq held]
          exact (kept other).trans (.same rfl)
      · have same : finalize state worker delivery read outcome = state := if_neg held
        rw [same]
        exact ⟨sound.setWorker .., inv.informed.setWorker (fun _ _ => .same rfl) rfl trivial⟩
    · cases taken
  | workerDies worker =>
    cases taken
    exact ⟨sound.setWorker .., inv.informed.setWorker (fun _ _ => .same rfl) rfl trivial⟩
  | _ => cases taken

theorem advance_workers (state : State) :
    (advanceAlertDiagnoses casefold state).workers = state.workers := by
  dsimp only [advanceAlertDiagnoses]
  rw [(refreshAll_frame _ _).2.1, (supplements_frame _ _ _).1]
  rfl

theorem Inv.diagnosis (inv : Inv state) (taken : diagnosisStep casefold state action = some next) :
    Inv next := by
  have sound := inv.sound
  cases action with
  | claimDiagnosis key =>
    simp only [diagnosisStep] at taken
    split at taken
    · rename_i row found
      simp only [ite_none_right_eq_some, Option.some.injEq] at taken
      obtain ⟨-, rfl⟩ := taken
      exact ⟨sound.setDiagnosis found rfl, inv.informed.kept (fun _ => .same rfl) rfl⟩
    · cases taken
  | endDiagnosis key completed =>
    simp only [diagnosisStep] at taken
    split at taken
    · rename_i row found
      simp only [ite_none_right_eq_some, Option.some.injEq] at taken
      obtain ⟨-, rfl⟩ := taken
      exact ⟨sound.setDiagnosis found rfl, inv.informed.kept (fun _ => .same rfl) rfl⟩
    · cases taken
  | advanceDiagnoses =>
    cases taken
    exact ⟨sound.advance, inv.informed.kept (advance_kept sound) (advance_workers state)⟩
  | _ => cases taken

theorem failRow_plain (now : Time) (row : Delivery) : Plain row (failRow now row) := by
  dsimp only [failRow]
  split
  · exact { Plain.refl row with waiting := fun is => (by cases is), link := fun is => (by cases is) }
  · exact .refl row

theorem failRow_steady (worker : WorkerId) (now : Time) (row : Delivery) :
    Steady worker row (failRow now row) := by
  dsimp only [failRow]
  split
  · exact { Steady.refl worker row with history := fun _ => List.cons_ne_nil _ _ }
  · exact .refl worker row

theorem Inv.dispatcher (inv : Inv state) (taken : dispatcherStep state action = some next) :
    Inv next := by
  have sound := inv.sound
  have same : ∀ {other : State}, other.deliveries = state.deliveries →
      other.workers = state.workers → Informed other :=
    fun deliveries workers => inv.informed.kept (fun _ => .same deliveries) workers
  cases action with
  | startDispatcher dispatcher =>
    simp only [dispatcherStep] at taken
    split at taken
    · cases taken
      exact ⟨sound.setDispatcher .., same rfl rfl⟩
    · cases taken
  | listExhausted dispatcher =>
    simp only [dispatcherStep] at taken
    split at taken
    · cases taken
      exact ⟨sound.setDispatcher .., same rfl rfl⟩
    · cases taken
  | failExhausted dispatcher =>
    simp only [dispatcherStep] at taken
    split at taken
    · rename_i now events phase
      cases taken
      refine ⟨Sound.setDispatcher (sound.each (fun _ row _ => failRow_plain now row)
        fun id row found => (sound.row id row found).fail) _ _, ?_⟩
      exact inv.informed.kept (fun worker =>
        (Kept.each fun _ row _ => failRow_steady worker now row).trans (.same rfl)) rfl
    · cases taken
  | refreshExhausted dispatcher =>
    simp only [dispatcherStep] at taken
    split at taken
    · cases taken
      exact ⟨(sound.refresh none _).setDispatcher .., same rfl rfl⟩
    · cases taken
  | dispatcherDies dispatcher =>
    cases taken
    exact ⟨sound.setDispatcher .., same rfl rfl⟩
  | _ => cases taken

theorem Inv.step (inv : Inv state) (taken : step casefold state action = some next) : Inv next := by
  cases action with
  | tick seconds =>
    cases taken
    exact ⟨inv.sound.frame rfl rfl rfl rfl rfl rfl, inv.informed.kept (fun _ => .same rfl) rfl⟩
  | enqueue outbox =>
    simp only [AlertDelivery.step, ite_none_right_eq_some, Option.some.injEq] at taken
    obtain ⟨-, rfl⟩ := taken
    exact ⟨inv.sound.frame rfl rfl rfl rfl rfl rfl, inv.informed.kept (fun _ => .same rfl) rfl⟩
  | openEvaluation _ | matchRule _ _ _ _ | subscribe _ _ _ _ | finishRule _ | closeEvaluation _
  | abandonEvaluation _ =>
    simp only [AlertDelivery.step] at taken
    exact inv.evaluation taken
  | startWorker _ _ | claim _ | load _ | deliver _ _ _ | finalize _ | workerDies _ =>
    simp only [AlertDelivery.step] at taken
    exact inv.worker taken
  | claimDiagnosis _ | endDiagnosis _ _ | advanceDiagnoses =>
    simp only [AlertDelivery.step] at taken
    exact inv.diagnosis taken
  | startDispatcher _ | listExhausted _ | failExhausted _ | refreshExhausted _
  | dispatcherDies _ =>
    simp only [AlertDelivery.step] at taken
    exact inv.dispatcher taken

theorem inv_of_steps {guard : State → Action → Prop} {actions : List Action}
    (run : Steps (step casefold) guard start actions state) : Inv state :=
  run.invariant Inv (fun _ _ _ inv _ taken => inv.step taken) .initial

end SourceLens.AlertDelivery
