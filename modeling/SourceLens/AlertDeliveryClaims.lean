import SourceLens.AlertDeliveryRuns

/-! Claims are bounded and exclusive, and no delivery is stuck: what a worker leaves behind
is claimed again, or closed by the dispatcher. -/

namespace SourceLens.AlertDelivery

open Transition

variable {casefold : String → String} {state : State}

variable {row : Delivery}

def Awaited (state : State) (event : EventId) : Prop :=
  ∃ delivery row, state.deliveries delivery = some row ∧ row.event = event ∧
    row.status.inProgress = true

def Current (state : State) (event : EventId) : Prop :=
  ∃ outbox, state.evaluations outbox = some ⟨some event⟩

def Listed (state : State) (event : EventId) : Prop :=
  ∃ dispatcher events, state.dispatchers dispatcher = .refreshing events ∧ event ∈ events

/-- But for the exceptions, a pending event has a delivery to wait for. -/
def Followed (exception : EventId → Prop) (state : State) : Prop :=
  ∀ id event, state.events id = some event → event.status = .pending →
    Awaited state id ∨ exception id

def Watched (state : State) (event : EventId) : Prop := Current state event ∨ Listed state event

variable {exception other : EventId → Prop} {next : State}

theorem Followed.of (followed : Followed exception state)
    (events : ∀ id after, next.events id = some after → after.status = .pending →
      ∃ event, state.events id = some event ∧ event.status = .pending)
    (awaited : ∀ id after, next.events id = some after → Awaited state id →
      Awaited next id ∨ other id)
    (exceptions : ∀ id after, next.events id = some after → exception id → other id) :
    Followed other next := by
  intro id after found pending
  obtain ⟨event, is, waiting⟩ := events id after found pending
  rcases followed id event is waiting with waited | except
  · exact awaited id after found waited
  · exact .inr (exceptions id after found except)

theorem Followed.frame (followed : Followed exception state) (events : next.events = state.events)
    (awaited : ∀ id, Awaited state id → Awaited next id ∨ other id)
    (exceptions : ∀ id, exception id → other id) : Followed other next :=
  followed.of (fun _ after found pending => ⟨after, events ▸ found, pending⟩)
    (fun id _ _ => awaited id) fun id _ _ => exceptions id

theorem Awaited.same {event : EventId} (deliveries : next.deliveries = state.deliveries)
    (awaited : Awaited state event) : Awaited next event := by
  obtain ⟨delivery, row, found, facts⟩ := awaited
  exact ⟨delivery, row, deliveries ▸ found, facts⟩

theorem Awaited.grows {id : EventId} (grows : Grows state next) (awaited : Awaited state id) :
    Awaited next id := by
  obtain ⟨delivery, row, found, facts⟩ := awaited
  exact ⟨delivery, row, grows delivery row found, facts⟩

theorem Awaited.each {id : EventId} {change : DeliveryId → Delivery → Delivery}
    (awaited : Awaited state id)
    (kept : ∀ delivery row, state.deliveries delivery = some row → row.status.inProgress = true →
      (change delivery row).event = row.event ∧
        ((change delivery row).status.inProgress = true ∨ other row.event)) :
    Awaited (each state change) id ∨ other id := by
  obtain ⟨delivery, row, found, rfl, progress⟩ := awaited
  obtain ⟨event, still | except⟩ := kept delivery row found progress
  · exact .inl ⟨delivery, _, each_some.mpr ⟨row, found, rfl⟩, event, still⟩
  · exact .inr except

theorem summary_pending {statuses : List Status} (pending : summary statuses = .pending) :
    ∃ status ∈ statuses, status.inProgress = true := by
  by_cases progress : statuses.any Status.inProgress = true
  · exact List.any_eq_true.mp progress
  · rw [summary, if_neg progress] at pending
    repeat' split at pending
    all_goals cases pending

theorem Followed.refresh (sound : Sound state) (followed : Followed exception state)
    (viewer : Option OutboxKey) (event : EventId) :
    Followed (fun id => exception id ∧ id ≠ event) (refreshEventStatus state viewer event) := by
  intro id after found pending
  obtain ⟨row, is, rfl⟩ := refresh_some.mp found
  by_cases same : id = event
  · subst same
    rw [if_pos rfl] at pending
    obtain ⟨status, member, progress⟩ := summary_pending pending
    simp only [statuses, List.mem_filterMap] at member
    obtain ⟨delivery, listed, found⟩ := member
    obtain ⟨row, known, rfl⟩ := Option.map_eq_some_iff.mp found
    obtain ⟨row', known', -, belongs⟩ := (mem_query sound).mp listed
    rw [known] at known'
    cases known'
    exact .inl ⟨delivery, row, known, beq_iff_eq.mp belongs, progress⟩
  · rw [if_neg same] at pending
    exact (followed id row is pending).imp (Awaited.same rfl) fun except => ⟨except, same⟩

theorem Followed.refreshed (sound : Sound state) (followed : Followed exception state)
    (viewer : Option OutboxKey) (event : EventId) :
    Followed exception (refreshEventStatus state viewer event) :=
  (followed.refresh sound viewer event).frame rfl (fun _ => .inl) fun _ => And.left

theorem Followed.refreshAll (sound : Sound state) (followed : Followed exception state)
    (events : List EventId) : Followed exception (refreshAll state events) := by
  induction events generalizing state with
  | nil => exact followed
  | cons event rest ih =>
    exact ih (sound.refresh none event) (followed.refreshed sound none event)

/-- No dispatcher stops before it has refreshed the events of the deliveries it has failed,
and it fails none that it has not listed. -/
def Undisturbed (state : State) : Action → Prop
  | .failExhausted dispatcher => ∀ now events, state.dispatchers dispatcher = .listed now events →
      ∀ delivery row, state.deliveries delivery = some row → row.draft = none →
        exhausted now row = true → row.event ∈ events
  | .dispatcherDies dispatcher => ∀ event events,
      state.dispatchers dispatcher ≠ .refreshing (event :: events)
  | _ => True

variable {action : Action}

theorem Followed.evaluation (sound : Sound state) (followed : Followed (Watched state) state)
    (taken : evaluationStep casefold state action = some next) : Followed (Watched next) next := by
  cases action with
  | openEvaluation outbox =>
    simp only [evaluationStep, Option.ite_none_right_eq_some, Option.some.injEq,
      Bool.and_eq_true, Option.isNone_iff_eq_none] at taken
    obtain ⟨⟨closed, -⟩, rfl⟩ := taken
    apply followed.frame rfl (fun _ awaited => .inl awaited)
    intro id watched
    refine watched.imp_left ?_
    rintro ⟨asked, current⟩
    have different : asked ≠ outbox := by
      rintro rfl
      rw [closed] at current
      cases current
    exact ⟨asked, (Function.update_of_ne different ..).trans current⟩
  | matchRule outbox rule matched policy =>
    simp only [evaluationStep] at taken
    split at taken
    · rename_i idle
      cases taken
      dsimp only [matchRule]
      split
      · exact followed
      · have current : ∀ id, Current state id → Current { state with
            evaluations := Function.update state.evaluations outbox
              (some ⟨some state.nextEvent⟩) } id := by
          rintro id ⟨asked, current⟩
          have different : asked ≠ outbox := by
            rintro rfl
            rw [idle] at current
            cases current
          exact ⟨asked, (Function.update_of_ne different ..).trans current⟩
        intro id event found pending
        by_cases new : id = state.nextEvent
        · exact .inr (.inl ⟨outbox, by rw [new]; exact Function.update_self ..⟩)
        · have was := (Function.update_of_ne new ..).symm.trans found
          exact (followed id event was pending).imp (Awaited.same rfl)
            fun watched => watched.imp_left (current id)
    · cases taken
  | subscribe outbox subscription destination cooling =>
    simp only [evaluationStep] at taken
    split at taken
    · split at taken
      · simp only [Option.ite_none_right_eq_some, Option.some.injEq] at taken
        obtain ⟨-, rfl⟩ := taken
        have frame : ∀ {after : State}, after.events = state.events →
            after.evaluations = state.evaluations → after.dispatchers = state.dispatchers →
              Grows state after → Followed (Watched after) after := by
          intro after events evaluations dispatchers grows
          apply followed.frame events fun id awaited => .inl (awaited.grows grows)
          intro id watched
          dsimp only [Watched, Current, Listed] at watched ⊢
          rwa [evaluations, dispatchers]
        dsimp only [subscribe, attachDiagnosis]
        have diagnosed : ∀ (key : DiagnosisKey) (row : Delivery), Grows state
            (insert (getDiagnosis state outbox key) row) := by
          intro key row id other found
          have old := Nat.ne_of_lt (sound.fresh id other found)
          exact (Function.update_of_ne old ..).trans found
        repeat' split
        · exact frame rfl rfl rfl fun _ _ found => insert_kept sound found
        · exact frame rfl rfl rfl fun _ _ found => insert_kept sound found
        · exact frame rfl rfl rfl (diagnosed _ _)
        · exact frame rfl rfl rfl (diagnosed _ _)
        · exact frame rfl rfl rfl fun _ _ found => insert_kept sound found
      · cases taken
    · cases taken
  | finishRule outbox =>
    simp only [evaluationStep] at taken
    split at taken
    · rename_i event isCurrent
      cases taken
      apply (followed.refresh sound (some outbox) event).frame rfl
        (fun _ awaited => .inl awaited)
      rintro id ⟨watched, different⟩
      refine watched.imp_left ?_
      rintro ⟨asked, current⟩
      have another : asked ≠ outbox := by
        rintro rfl
        rw [isCurrent] at current
        cases current
        exact different rfl
      exact ⟨asked, (Function.update_of_ne another ..).trans current⟩
    · cases taken
  | closeEvaluation outbox =>
    simp only [evaluationStep] at taken
    split at taken
    · rename_i idle
      cases taken
      apply followed.of
      · intro id after found pending
        obtain ⟨event, is, rfl⟩ := Option.map_eq_some_iff.mp found
        exact ⟨event, is, pending⟩
      · rintro id after - ⟨delivery, row, found, facts⟩
        exact .inl ⟨delivery, _, Option.map_eq_some_iff.mpr ⟨row, found, rfl⟩, facts⟩
      · intro id after found watched
        refine watched.imp_left ?_
        rintro ⟨asked, current⟩
        have different : asked ≠ outbox := by
          rintro rfl
          rw [idle] at current
          cases current
        exact ⟨asked, (Function.update_of_ne different ..).trans current⟩
    · cases taken
  | abandonEvaluation outbox =>
    simp only [evaluationStep] at taken
    split at taken
    · cases taken
      apply followed.of
      · intro id after found pending
        exact ⟨after, (filter_some.mp found).1, pending⟩
      · rintro id after found ⟨delivery, row, is, rfl, progress⟩
        obtain ⟨event, known, draft, -⟩ := sound.event delivery row is
        obtain ⟨known', kept⟩ := filter_some.mp found
        rw [known] at known'
        cases known'
        exact .inl ⟨delivery, row, filter_some.mpr ⟨is, draft ▸ kept⟩, rfl, progress⟩
      · intro id after found watched
        refine watched.imp_left ?_
        rintro ⟨asked, current⟩
        have different : asked ≠ outbox := by
          rintro rfl
          obtain ⟨is, kept⟩ := filter_some.mp found
          obtain ⟨event, is', draft⟩ := sound.current asked _ id current rfl
          rw [is] at is'
          cases is'
          rw [draft] at kept
          simp at kept
        exact ⟨asked, (Function.update_of_ne different ..).trans current⟩
    · cases taken
  | _ => cases taken

theorem Followed.promoted {worker : WorkerId} {delivery : DeliveryId} {read : Delivery}
    (finalizes : Finalizes state worker delivery read row) (outcome : Outcome) (sound : Sound state)
    (followed : Followed exception (written state worker delivery read outcome)) :
    Followed exception (promoted (written state worker delivery read outcome) delivery read outcome)
    := by
  have soundToo := finalizes.sound outcome sound
  cases outcome with
  | success => exact followed
  | rejected => exact followed
  | skipped reason =>
    dsimp only [AlertDelivery.promoted]
    rcases promote_cases soundToo finalizes.written_row rfl finalizes.key rfl with
      ⟨same, -⟩ | ⟨replacement, others, -, ⟨promotes⟩, event, same⟩
    · rw [same]
      exact followed
    · rw [same]
      refine Followed.refreshed (promotes.sound soundToo _) ?_ none event
      refine followed.frame rfl ?_ fun _ except => except
      intro id awaited
      apply awaited.each
      intro delivery' row' found progress
      dsimp only [promoteRow]
      split
      · exact ⟨rfl, .inl progress⟩
      · split
        · exact ⟨rfl, .inl rfl⟩
        · split
          · exact ⟨rfl, .inl progress⟩
          · exact ⟨rfl, .inl progress⟩

theorem Followed.worker (inv : Inv state) (followed : Followed (Watched state) state)
    (taken : workerStep state action = some next) : Followed (Watched next) next := by
  have frame : ∀ {after : State} (worker : WorkerId) (phase : Worker),
      Followed (Watched state) after → after.evaluations = state.evaluations →
        after.dispatchers = state.dispatchers →
          Followed (Watched (setWorker after worker phase)) (setWorker after worker phase) := by
    intro after worker phase same evaluations dispatchers
    apply same.frame rfl fun _ awaited => .inl awaited
    intro id watched
    dsimp only [Watched, Current, Listed, setWorker] at watched ⊢
    rwa [evaluations, dispatchers]
  cases action with
  | startWorker worker delivery =>
    simp only [workerStep] at taken
    split at taken
    · cases taken
      exact frame worker _ followed rfl rfl
    · cases taken
  | claim worker =>
    simp only [workerStep] at taken
    split at taken
    · split at taken
      · cases taken
        refine frame worker _ ?_ rfl rfl
        refine followed.frame rfl ?_ fun _ watched => watched
        intro id awaited
        apply awaited.each
        intro delivery row _ progress
        split
        · exact ⟨rfl, .inl rfl⟩
        · exact ⟨rfl, .inl progress⟩
      · cases taken
        exact frame worker _ followed rfl rfl
    · cases taken
  | load worker =>
    simp only [workerStep] at taken
    split at taken
    · obtain ⟨row, -, rfl⟩ := Option.map_eq_some_iff.mp taken
      exact frame worker _ followed rfl rfl
    · cases taken
  | deliver worker language outcome =>
    simp only [workerStep] at taken
    split at taken
    · cases taken
      refine frame worker _ ?_ rfl rfl
      refine followed.frame rfl ?_ fun _ watched => watched
      intro id awaited
      apply awaited.each
      intro delivery row _ progress
      split
      · cases language with
        | none => exact ⟨rfl, .inl progress⟩
        | some language => exact ⟨rfl, .inl progress⟩
      · exact ⟨rfl, .inl progress⟩
    · cases taken
  | finalize worker =>
    simp only [workerStep] at taken
    split at taken
    · rename_i delivery read outcome phase
      cases taken
      by_cases held : holds state worker delivery = true
      · obtain ⟨row, finalizes⟩ := finalizes_of inv.informed phase held
        have settled : Followed (fun id => Watched state id ∨ id = read.event)
            (written state worker delivery read outcome) := by
          refine followed.frame rfl ?_ fun _ => .inl
          intro id awaited
          apply awaited.each
          intro delivery' row' found progress
          split
          · rename_i same
            subst same
            rw [finalizes.found] at found
            cases found
            exact ⟨rfl, .inr (.inr finalizes.event)⟩
          · exact ⟨rfl, .inl progress⟩
        obtain ⟨soundToo, -⟩ := finalizes.promoted outcome inv.sound
        have after : Followed (Watched state) (refreshEventStatus
            (AlertDelivery.promoted (written state worker delivery read outcome) delivery read
              outcome) none read.event) :=
          ((settled.promoted finalizes outcome inv.sound).refresh soundToo none read.event).frame
            rfl (fun _ => .inl) fun id except => except.1.resolve_right except.2
        rw [← finalize_eq held] at after
        obtain ⟨-, dispatchers, evaluations⟩ := finalize_frame state worker delivery read outcome
        exact frame worker _ after evaluations dispatchers
      · have same : finalize state worker delivery read outcome = state := if_neg held
        rw [same]
        exact frame worker _ followed rfl rfl
    · cases taken
  | workerDies worker =>
    cases taken
    exact frame worker _ followed rfl rfl
  | _ => cases taken

theorem Followed.diagnosis (sound : Sound state) (followed : Followed (Watched state) state)
    (taken : diagnosisStep casefold state action = some next) : Followed (Watched next) next := by
  cases action with
  | claimDiagnosis key =>
    simp only [diagnosisStep] at taken
    split at taken
    · simp only [Option.ite_none_right_eq_some, Option.some.injEq] at taken
      obtain ⟨-, rfl⟩ := taken
      exact followed.frame rfl (fun _ awaited => .inl awaited) fun _ watched => watched
    · cases taken
  | endDiagnosis key completed =>
    simp only [diagnosisStep] at taken
    split at taken
    · simp only [Option.ite_none_right_eq_some, Option.some.injEq] at taken
      obtain ⟨-, rfl⟩ := taken
      exact followed.frame rfl (fun _ awaited => .inl awaited) fun _ watched => watched
    · cases taken
  | advanceDiagnoses =>
    cases taken
    have releases : Followed (Watched state) (AlertDelivery.released state) := by
      have expired : Followed (Watched state) (expireDiagnoses state) :=
        followed.frame rfl (fun _ awaited => .inl awaited) fun _ watched => watched
      refine expired.frame rfl ?_ fun _ watched => watched
      · intro id awaited
        apply awaited.each
        intro delivery row _ progress
        split
        · exact ⟨rfl, .inl rfl⟩
        · exact ⟨rfl, .inl progress⟩
    obtain ⟨soundToo, grows⟩ := sound.added casefold
    obtain ⟨-, events, dispatchers, evaluations⟩ := supplements_frame casefold
      (AlertDelivery.released state) (originals (AlertDelivery.released state))
    have supplemented : Followed (Watched state) (AlertDelivery.supplements casefold
        (AlertDelivery.released state) (originals (AlertDelivery.released state))).1 :=
      releases.frame events (fun id awaited => .inl (awaited.grows grows)) fun _ watched => watched
    refine (supplemented.refreshAll soundToo _).frame rfl (fun _ => .inl) ?_
    intro id watched
    dsimp only [Watched, Current, Listed, advanceAlertDiagnoses] at watched ⊢
    obtain ⟨-, -, dispatchersToo, evaluationsToo⟩ := refreshAll_frame (AlertDelivery.supplements
      casefold (AlertDelivery.released state) (originals (AlertDelivery.released state))).1
        (waitingEvents (expireDiagnoses state) ++ (AlertDelivery.supplements casefold
          (AlertDelivery.released state) (originals (AlertDelivery.released state))).2)
    have kept := evaluationsToo.trans evaluations
    have keptToo := dispatchersToo.trans dispatchers
    simp only [AlertDelivery.released] at kept keptToo
    rw [kept, keptToo]
    exact watched
  | _ => cases taken

theorem Followed.dispatcher (sound : Sound state) (followed : Followed (Watched state) state)
    (undisturbed : Undisturbed state action) (taken : dispatcherStep state action = some next) :
    Followed (Watched next) next := by
  have listed : ∀ {after : State} (dispatcher : DispatcherId) (phase : Dispatcher),
      after.dispatchers = state.dispatchers → after.evaluations = state.evaluations →
      ∀ id, (∀ events, state.dispatchers dispatcher = .refreshing events → id ∉ events) →
        Watched state id → Watched (setDispatcher after dispatcher phase) id := by
    intro after dispatcher phase dispatchers evaluations id idle watched
    rcases watched with ⟨outbox, current⟩ | ⟨other, events, refreshing, member⟩
    · exact .inl ⟨outbox, (congrFun evaluations outbox).trans current⟩
    · have different : other ≠ dispatcher := by
        rintro rfl
        exact idle events refreshing member
      exact .inr ⟨other, events, (Function.update_of_ne different ..).trans
        ((congrFun dispatchers other).trans refreshing), member⟩
  cases action with
  | startDispatcher dispatcher =>
    simp only [dispatcherStep] at taken
    split at taken
    · rename_i phase
      cases taken
      refine followed.frame rfl (fun _ awaited => .inl awaited) fun id => ?_
      exact listed dispatcher _ rfl rfl id fun _ is => by rw [phase] at is; cases is
    · cases taken
  | listExhausted dispatcher =>
    simp only [dispatcherStep] at taken
    split at taken
    · rename_i phase
      cases taken
      refine followed.frame rfl (fun _ awaited => .inl awaited) fun id => ?_
      exact listed dispatcher _ rfl rfl id fun _ is => by rw [phase] at is; cases is
    · cases taken
  | failExhausted dispatcher =>
    simp only [dispatcherStep] at taken
    split at taken
    · rename_i now events phase
      cases taken
      refine followed.frame rfl ?_ fun id => listed dispatcher _ rfl rfl id fun _ is => by
        rw [phase] at is
        cases is
      intro id awaited
      have either : Awaited (each state fun _ row => failRow now row) id ∨ id ∈ events := by
        apply awaited.each
        intro delivery row found progress
        dsimp only [failRow]
        split
        · rename_i spent
          simp only [Bool.and_eq_true, Option.isNone_iff_eq_none] at spent
          exact ⟨rfl, .inr (undisturbed now events phase delivery row found spent.1 spent.2)⟩
        · exact ⟨rfl, .inl progress⟩
      exact either.imp (Awaited.same rfl) fun member =>
        .inr ⟨dispatcher, events, Function.update_self .., member⟩
    · cases taken
  | refreshExhausted dispatcher =>
    simp only [dispatcherStep] at taken
    split at taken
    · rename_i event rest phase
      cases taken
      refine (followed.refresh sound none event).frame rfl (fun _ awaited => .inl awaited) ?_
      rintro id ⟨watched, different⟩
      by_cases member : id ∈ rest
      · exact .inr ⟨dispatcher, rest, Function.update_self .., member⟩
      · refine listed dispatcher _ rfl rfl id ?_ watched
        intro events is
        rw [phase] at is
        cases is
        simpa only [List.mem_cons, not_or] using ⟨different, member⟩
    · cases taken
  | dispatcherDies dispatcher =>
    cases taken
    refine followed.frame rfl (fun _ awaited => .inl awaited) fun id => ?_
    apply listed dispatcher _ rfl rfl id
    intro events is member
    cases events with
    | nil => cases member
    | cons event rest => exact undisturbed event rest is
  | _ => cases taken

theorem Followed.step (inv : Inv state) (followed : Followed (Watched state) state)
    (undisturbed : Undisturbed state action) (taken : step casefold state action = some next) :
    Followed (Watched next) next := by
  cases action with
  | tick seconds =>
    cases taken
    exact followed.frame rfl (fun _ awaited => .inl awaited) fun _ watched => watched
  | enqueue outbox =>
    simp only [AlertDelivery.step, Option.ite_none_right_eq_some, Option.some.injEq] at taken
    obtain ⟨-, rfl⟩ := taken
    exact followed.frame rfl (fun _ awaited => .inl awaited) fun _ watched => watched
  | openEvaluation _ | matchRule _ _ _ _ | subscribe _ _ _ _ | finishRule _ | closeEvaluation _
  | abandonEvaluation _ =>
    simp only [AlertDelivery.step] at taken
    exact followed.evaluation inv.sound taken
  | startWorker _ _ | claim _ | load _ | deliver _ _ _ | finalize _ | workerDies _ =>
    simp only [AlertDelivery.step] at taken
    exact followed.worker inv taken
  | claimDiagnosis _ | endDiagnosis _ _ | advanceDiagnoses =>
    simp only [AlertDelivery.step] at taken
    exact followed.diagnosis inv.sound taken
  | startDispatcher _ | listExhausted _ | failExhausted _ | refreshExhausted _
  | dispatcherDies _ =>
    simp only [AlertDelivery.step] at taken
    exact followed.dispatcher inv.sound undisturbed taken

theorem followed_of_steps {actions : List Action}
    (run : Steps (step casefold) Undisturbed start actions state) :
    Followed (Watched state) state := by
  have both := run.invariant (fun state => Inv state ∧ Followed (Watched state) state)
    (fun _ _ _ inv allowed taken => ⟨inv.1.step taken, inv.2.step inv.1 allowed taken⟩)
    ⟨.initial, nofun⟩
  exact both.2

structure Attempted (row : Delivery) : Prop where
  few : claims row.history ≤ maxAttempts
  /-- Only the worker whose claim is current finalizes. -/
  own : ∀ later worker earlier, row.history = later ++ .finalized worker :: earlier →
    holder earlier = some worker
  /-- The dispatcher closes a delivery only after the last attempt. -/
  spent : ∀ later earlier, row.history = later ++ .expired :: earlier →
    claims earlier = maxAttempts

theorem RowInv.attempted (inv : RowInv row) : Attempted row where
  few := inv.lawful.claims_le
  own := by
    intro later worker earlier same
    have lawful := inv.lawful
    rw [same] at lawful
    exact And.left (Lawful.suffix lawful)
  spent := by
    intro later earlier same
    have lawful := inv.lawful
    rw [same] at lawful
    exact And.left (Lawful.suffix lawful)

def ClaimableLater (state : State) (row : Delivery) : Prop :=
  ∃ later, state.now ≤ later ∧ claimable later row = true

/-- A worker that has not ended has claimed the delivery, and its claim is current. -/
def HeldByWorker (state : State) (delivery : DeliveryId) (row : Delivery) : Prop :=
  row.status = .sending ∧ ∃ worker, row.claimToken = some worker ∧
    match state.workers worker with
    | .claimed other | .loaded other _ | .decided other _ _ => other = delivery
    | .idle | .started _ _ | .ended => False

/-- The delivery is released by the first `advance_alert_diagnoses` after the deadline. -/
def WaitsForDiagnosis (state : State) (row : Delivery) : Prop :=
  row.status = .diagnosing ∧ ∃ key diagnosis, row.diagnosis = some key ∧
    state.diagnoses key = some diagnosis ∧
      ∀ later, diagnosis.deadlineAt ≤ later → (timeOut later diagnosis).status.final = true

/-- The next dispatcher to come after the lease closes the delivery. -/
def Lapses (row : Delivery) : Prop :=
  ∃ lapse, ∀ now, lapse < now → exhausted now row = true

def CanProgress (state : State) (delivery : DeliveryId) (row : Delivery) : Prop :=
  ClaimableLater state row ∨ HeldByWorker state delivery row ∨ WaitsForDiagnosis state row

theorem Sound.progress (sound : Sound state) {delivery : DeliveryId}
    (found : state.deliveries delivery = some row) (draft : row.draft = none)
    (progress : row.status.inProgress = true) : CanProgress state delivery row ∨ Lapses row := by
  have inv := sound.row delivery row found
  cases status : row.status with
  | pending =>
    refine .inl (.inl ⟨max state.now row.nextAttemptAt, le_max_left .., ?_⟩)
    simp only [claimable, inv.due status, status, decide_true, le_max_right, beq_self_eq_true,
      Bool.and_true, Bool.true_or]
  | sending =>
    obtain ⟨-, some⟩ := inv.claimed status
    obtain ⟨claimed, at'⟩ := Option.isSome_iff_exists.mp some
    by_cases spent : maxAttempts ≤ row.attempts
    · refine .inr ⟨claimed + lease, fun now late => ?_⟩
      simp only [exhausted, status, spent, at', late, Option.any_some, beq_self_eq_true,
        decide_true, Bool.and_true]
    · refine .inl (.inl ⟨max state.now (claimed + lease + 1), le_max_left .., ?_⟩)
      have late : claimed + lease < max state.now (claimed + lease + 1) :=
        lt_of_lt_of_le (Nat.lt_succ_self _) (le_max_right ..)
      simp only [claimable, Nat.lt_of_not_le spent, status, at', late, Option.any_some,
        decide_true, beq_self_eq_true, Bool.and_true, Bool.or_true]
  | diagnosing =>
    obtain ⟨key, diagnosis, is, known, drafted⟩ := sound.waiting delivery row found status
    rw [draft, or_self] at drafted
    refine .inl (.inr (.inr ⟨status, key, diagnosis, is, known, fun later late => ?_⟩))
    dsimp only [timeOut]
    split
    · rfl
    · rename_i ended
      simpa only [drafted, late, true_and, and_true, Bool.not_eq_false] using ended
  | sent | failed | skipped | suppressed =>
    rw [status] at progress
    cases progress

/-- Along every run, a delivery is attempted at most five times and is finalized only under
a current claim; what is in progress can be claimed, is held, waits for a diagnosis that
ends, or lapses. While no dispatcher is disturbed, a pending event has such a delivery, or
is about to be refreshed. -/
theorem deliveries_progress {casefold : String → String} {actions : List Action} {state : State}
    (run : Steps (step casefold) Any start actions state) :
    (∀ delivery row, state.deliveries delivery = some row → row.draft = none →
      Attempted row ∧
        (row.status.inProgress = true → CanProgress state delivery row ∨ Lapses row)) ∧
    (Steps (step casefold) Undisturbed start actions state →
      ∀ id event, state.events id = some event → event.draft = none → event.status = .pending →
        (∃ delivery row, state.deliveries delivery = some row ∧ row.draft = none ∧
          row.event = id ∧ row.status.inProgress = true ∧
            (CanProgress state delivery row ∨ Lapses row)) ∨ Listed state id) := by
  have sound := (inv_of_steps run).sound
  refine ⟨fun delivery row found draft =>
    ⟨(sound.row delivery row found).attempted, sound.progress found draft⟩, ?_⟩
  intro undisturbed id event found draft pending
  rcases followed_of_steps undisturbed id event found pending with awaited | current | listed
  · obtain ⟨delivery, row, is, rfl, progress⟩ := awaited
    obtain ⟨event', known, drafted, -⟩ := sound.event delivery row is
    rw [found] at known
    cases known
    have committed : row.draft = none := drafted.symm.trans draft
    exact .inl ⟨delivery, row, is, committed, rfl, progress, sound.progress is committed progress⟩
  · obtain ⟨outbox, current⟩ := current
    obtain ⟨event', known, drafted⟩ := sound.current outbox _ id current rfl
    rw [found] at known
    cases known
    rw [draft] at drafted
    cases drafted
  · exact .inr listed

def occurrence : OutboxKey := ⟨"run:1", false⟩

def chat : Destination := ⟨"channel", [], "en-US", .direct, none⟩

def evaluated : List Action :=
  [.enqueue occurrence, .openEvaluation occurrence, .matchRule occurrence 1 "run_failed" .direct,
    .subscribe occurrence 1 chat false, .finishRule occurrence, .closeEvaluation occurrence]

def crashed (worker : WorkerId) : List Action :=
  [.startWorker worker 0, .claim worker, .workerDies worker, .tick 301]

theorem deliveries_progress_retried : ∃ state row,
    Steps (step id) Undisturbed start (evaluated ++ crashed 0) state ∧
      state.deliveries 0 = some row ∧ Attempted row ∧ row.status = .sending ∧
        (CanProgress state 0 row ∨ Lapses row) ∧ ((∃ delivery row,
          state.deliveries delivery = some row ∧ row.draft = none ∧ row.event = 0 ∧
            row.status.inProgress = true ∧ (CanProgress state delivery row ∨ Lapses row)) ∨
              Listed state 0) := by
  have executed : ((exec (step id) start (evaluated ++ crashed 0)).bind fun state =>
      (state.deliveries 0).bind fun row => (state.events 0).map fun event =>
        (row.status, row.draft, event.status, event.draft)) =
      some (.sending, none, .pending, none) := by
    decide +kernel
  obtain ⟨state, ran, same⟩ := Option.bind_eq_some_iff.mp executed
  obtain ⟨row, found, rest⟩ := Option.bind_eq_some_iff.mp same
  obtain ⟨event, known, facts⟩ := Option.map_eq_some_iff.mp rest
  simp only [Prod.mk.injEq] at facts
  obtain ⟨sending, draft, pending, drafted⟩ := facts
  have run := exec_steps ran
  have undisturbed : Steps (step id) Undisturbed start (evaluated ++ crashed 0) state :=
    run.everywhere (by simp [evaluated, crashed, Undisturbed])
  obtain ⟨deliveries, events⟩ := deliveries_progress run
  obtain ⟨attempted, progress⟩ := deliveries 0 row found draft
  exact ⟨state, row, undisturbed, found, attempted, sending, progress (by rw [sending]; rfl),
    events undisturbed 0 event known drafted pending⟩

def fiveCrashes : List Action :=
  evaluated ++ crashed 0 ++ crashed 1 ++ crashed 2 ++ crashed 3 ++ crashed 4

theorem deliveries_progress_crash : ∃ state row,
    Steps (step id) Any start fiveCrashes state ∧ state.deliveries 0 = some row ∧
      row.draft = none ∧ row.status.inProgress = true ∧ ¬CanProgress state 0 row := by
  have executed : ((exec (step id) start fiveCrashes).bind fun state =>
      (state.deliveries 0).map fun row =>
        (row.status, row.attempts, row.claimToken, row.draft, state.workers 4)) =
      some (.sending, 5, some 4, none, .ended) := by
    decide +kernel
  obtain ⟨state, run, same⟩ := Option.bind_eq_some_iff.mp executed
  obtain ⟨row, is, facts⟩ := Option.map_eq_some_iff.mp same
  simp only [Prod.mk.injEq] at facts
  obtain ⟨sending, five, token, draft, ended⟩ := facts
  refine ⟨state, row, exec_steps run, is, draft, by rw [sending]; rfl, ?_⟩
  rintro (⟨later, -, able⟩ | ⟨-, worker, held, phase⟩ | ⟨diagnosing, -⟩)
  · have few := (claimable_cases able).1
    rw [five] at few
    exact absurd few (by decide)
  · rw [token] at held
    cases held
    rw [ended] at phase
    exact phase
  · rw [sending] at diagnosing
    cases diagnosing

/-- What the tables agree on: of the deliveries of one identity at most one is neither
suppressed nor skipped, a duplicate names a delivery of its identity that its readers see, a
delivery and its event are seen together, and nothing is left over from an evaluation that
has ended. -/
structure TablesAgree (state : State) : Prop where
  single : ∀ first second one two, state.deliveries first = some one →
    state.deliveries second = some two → one.identity = two.identity →
      one.status ∉ [.suppressed, .skipped] → two.status ∉ [.suppressed, .skipped] → first = second
  linked : ∀ id row, state.deliveries id = some row → row.status = .suppressed →
    ∀ original ∈ row.destination.deduplicatedBy, ∃ other, state.deliveries original = some other ∧
      other.identity = row.identity ∧ (other.draft = none ∨ other.draft = row.draft)
  seen : ∀ id row, state.deliveries id = some row → ∃ event, state.events row.event = some event ∧
    event.draft = row.draft ∧ event.sourceKey = row.identity.sourceKey
  current : ∀ id event outbox, state.events id = some event → event.draft = some outbox →
    event.sourceKey.outbox = outbox ∧ (state.evaluations outbox).isSome = true

theorem tables_agree {casefold : String → String} {actions : List Action} {state : State}
    (run : Steps (step casefold) Any start actions state) : TablesAgree state := by
  have sound := (inv_of_steps run).sound
  have keyed {id : DeliveryId} {row : Delivery} (found : state.deliveries id = some row)
      (live : row.status ∉ [.suppressed, .skipped]) : row.dedupeKey = some row.identity := by
    simp only [List.mem_cons, List.not_mem_nil, or_false, not_or] at live
    exact (sound.row id row found).keyed live.1 live.2
  refine ⟨?_, sound.linked, sound.event, ?_⟩
  · intro first second one two found foundToo same live liveToo
    have key := keyed foundToo liveToo
    rw [← same] at key
    exact sound.unique first second one two one.identity found foundToo (keyed found live) key
  · intro id event outbox found draft
    exact ⟨sound.eventDraft id event found outbox draft, sound.drafted id event outbox found draft⟩

theorem tables_agree_evaluated : ∃ state, exec (step id) start evaluated = some state ∧
    TablesAgree state := by
  have executed : (exec (step id) start evaluated).isSome = true := by decide +kernel
  rcases Option.isSome_iff_exists.mp executed with ⟨state, ran⟩
  exact ⟨state, ran, tables_agree (exec_steps ran)⟩

end SourceLens.AlertDelivery
