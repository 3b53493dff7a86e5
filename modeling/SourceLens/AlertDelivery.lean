import Mathlib.Data.Finset.Image
import SourceLens.Library.Transition

/-! Alert deliveries: occurrences evaluated into destination jobs, the workers that claim
and send them, the diagnoses they wait for, and the dispatcher that recovers them. -/

namespace SourceLens.AlertDelivery

abbrev EventId := Nat
abbrev DeliveryId := Nat
abbrev RuleId := Nat
abbrev SubscriptionId := Nat
abbrev WorkerId := Nat
abbrev DispatcherId := Nat
abbrev Time := Nat

/-- `AlertOutbox.source_key` without its last part, and whether that is `running`. -/
structure OutboxKey where
  source : String
  running : Bool
  deriving DecidableEq

/-- `AlertEvent.source_key`: a running occurrence adds the first matched event. -/
structure SourceKey where
  outbox : OutboxKey
  matched : Option String
  deriving DecidableEq

inductive DiagnosisPolicy
  | direct
  | notifyThenDiagnose (maxTokens timeoutSeconds : Nat)
  | diagnoseFirst (maxTokens timeoutSeconds : Nat)
  deriving DecidableEq

inductive Phase
  | initial
  | diagnosis
  deriving DecidableEq

structure Destination where
  channelUuid : String
  recipients : List String
  language : String
  diagnosisPolicy : DiagnosisPolicy
  deduplicatedBy : Option DeliveryId
  deriving DecidableEq

/-- What `delivery_identity` digests; the digest is taken to be injective. -/
structure Identity where
  sourceKey : SourceKey
  channelUuid : String
  recipients : Finset String
  language : String
  phase : Phase
  diagnosisPolicy : DiagnosisPolicy
  deriving DecidableEq

/-- What `attach_diagnosis` digests. -/
structure DiagnosisKey where
  sourceKey : SourceKey
  language : String
  maxTokens : Nat
  timeoutSeconds : Nat
  deriving DecidableEq

inductive Status
  | pending
  | sending
  | diagnosing
  | sent
  | failed
  | skipped
  | suppressed
  deriving DecidableEq

def Status.inProgress : Status → Bool
  | .pending | .sending | .diagnosing => true
  | .sent | .failed | .skipped | .suppressed => false

inductive EventStatus
  | pending
  | sent
  | partly
  | failed
  | skipped
  deriving DecidableEq

inductive DiagnosisStatus
  | pending
  | running
  | completed
  | failed
  | timedOut
  deriving DecidableEq

/-- `FINAL_STATUSES`. -/
def DiagnosisStatus.final : DiagnosisStatus → Bool
  | .completed | .failed | .timedOut => true
  | .pending | .running => false

/-- What was done to a delivery by its workers and by the dispatcher. -/
inductive Mark
  | claimed (worker : WorkerId)
  | finalized (worker : WorkerId)
  | expired
  deriving DecidableEq

/-- `draft` names the evaluation that has inserted a row and not committed yet. -/
structure Event where
  rule : RuleId
  sourceKey : SourceKey
  diagnosisPolicy : DiagnosisPolicy
  status : EventStatus
  draft : Option OutboxKey
  deriving DecidableEq

structure Diagnosis where
  status : DiagnosisStatus
  deadlineAt : Time
  draft : Option OutboxKey
  deriving DecidableEq

/-- `AlertDelivery`; `identity`, as computed when the row was made, and `history`, newest
first, are no columns. -/
structure Delivery where
  event : EventId
  subscription : SubscriptionId
  phase : Phase
  diagnosis : Option DiagnosisKey
  dedupeKey : Option Identity
  destination : Destination
  status : Status
  attempts : Nat
  nextAttemptAt : Time
  claimedAt : Option Time
  claimToken : Option WorkerId
  errorMessage : String
  draft : Option OutboxKey
  identity : Identity
  history : List Mark
  deriving DecidableEq

/-- What `_delivery_result` comes to; an exception counts as a rejection. -/
inductive Outcome
  | skipped (reason : String)
  | success
  | rejected
  deriving DecidableEq

/-- One call of `send_alert_delivery`, whose claim token is the worker's number. -/
inductive Worker
  | idle
  | started (delivery : DeliveryId) (now : Time)
  | claimed (delivery : DeliveryId)
  | loaded (delivery : DeliveryId) (read : Delivery)
  | decided (delivery : DeliveryId) (read : Delivery) (outcome : Outcome)
  | ended
  deriving DecidableEq

/-- The part of `dispatch_alerts_task` that fails what no worker may claim again. -/
inductive Dispatcher
  | idle
  | started (now : Time)
  | listed (now : Time) (exhausted : List EventId)
  | refreshing (events : List EventId)
  | ended
  deriving DecidableEq

/-- An evaluation in progress, with the event of the rule it is at. -/
structure Evaluation where
  current : Option EventId
  deriving DecidableEq

structure State where
  now : Time
  events : EventId → Option Event
  deliveries : DeliveryId → Option Delivery
  diagnoses : DiagnosisKey → Option Diagnosis
  nextEvent : EventId
  nextDelivery : DeliveryId
  processed : OutboxKey → Bool
  /-- The transaction that has locked the outbox row. -/
  evaluations : OutboxKey → Option Evaluation
  workers : WorkerId → Worker
  dispatchers : DispatcherId → Dispatcher

def start : State where
  now := 0
  events := fun _ => none
  deliveries := fun _ => none
  diagnoses := fun _ => none
  nextEvent := 0
  nextDelivery := 0
  processed := fun _ => true
  evaluations := fun _ => none
  workers := fun _ => .idle
  dispatchers := fun _ => .idle

inductive Action
  | tick (seconds : Nat)
  /-- `_enqueue_occurrence` with a payload that has changed. -/
  | enqueue (outbox : OutboxKey)
  /-- `_evaluate_occurrence`: the row lock, then each rule that matches and each of its
  subscriptions, then the commit. -/
  | openEvaluation (outbox : OutboxKey)
  | matchRule (outbox : OutboxKey) (rule : RuleId) (matched : String) (policy : DiagnosisPolicy)
  | subscribe (outbox : OutboxKey) (subscription : SubscriptionId) (destination : Destination)
      (cooling : Bool)
  | finishRule (outbox : OutboxKey)
  | closeEvaluation (outbox : OutboxKey)
  | abandonEvaluation (outbox : OutboxKey)
  /-- `send_alert_delivery`: the clock, the claim, the row, the notification and the
  transaction that finalizes. -/
  | startWorker (worker : WorkerId) (delivery : DeliveryId)
  | claim (worker : WorkerId)
  | load (worker : WorkerId)
  | deliver (worker : WorkerId) (language : Option String) (outcome : Outcome)
  | finalize (worker : WorkerId)
  | workerDies (worker : WorkerId)
  /-- `execute_alert_diagnosis`. -/
  | claimDiagnosis (key : DiagnosisKey)
  | endDiagnosis (key : DiagnosisKey) (completed : Bool)
  | advanceDiagnoses
  | startDispatcher (dispatcher : DispatcherId)
  | listExhausted (dispatcher : DispatcherId)
  | failExhausted (dispatcher : DispatcherId)
  | refreshExhausted (dispatcher : DispatcherId)
  | dispatcherDies (dispatcher : DispatcherId)
  deriving DecidableEq

/-- A row is seen once it is committed, and by the transaction that made it before. -/
def visible (viewer draft : Option OutboxKey) : Bool := draft.isNone || draft == viewer

def each (state : State) (change : DeliveryId → Delivery → Delivery) : State :=
  { state with deliveries := fun id => (state.deliveries id).map (change id) }

def alter (state : State) (delivery : DeliveryId) (change : Delivery → Delivery) : State :=
  each state fun id row => if id = delivery then change row else row

def insert (state : State) (row : Delivery) : State :=
  { state with
    deliveries := Function.update state.deliveries state.nextDelivery (some row)
    nextDelivery := state.nextDelivery + 1 }

/-- The deliveries that a query of a transaction returns, in the order they were made. -/
def query (state : State) (viewer : Option OutboxKey) (found : DeliveryId → Delivery → Bool) :
    List DeliveryId :=
  (List.range state.nextDelivery).filter fun id =>
    (state.deliveries id).any fun row => visible viewer row.draft && found id row

/-- `delivery_identity`. -/
def deliveryIdentity (casefold : String → String) (sourceKey : SourceKey)
    (destination : Destination) (phase : Phase) : Identity where
  sourceKey := sourceKey
  channelUuid := destination.channelUuid
  recipients := (destination.recipients.map casefold).toFinset
  language := destination.language
  phase := phase
  diagnosisPolicy := destination.diagnosisPolicy

def newDelivery (now : Time) (event : EventId) (subscription : SubscriptionId) (phase : Phase)
    (destination : Destination) (identity : Identity) : Delivery where
  event := event
  subscription := subscription
  phase := phase
  diagnosis := none
  dedupeKey := none
  destination := destination
  status := .pending
  attempts := 0
  nextAttemptAt := now
  claimedAt := none
  claimToken := none
  errorMessage := ""
  draft := none
  identity := identity
  history := []

def summary (statuses : List Status) : EventStatus :=
  if statuses.any Status.inProgress then .pending
  else if statuses ≠ [] ∧ ∀ status ∈ statuses, status = .sent then .sent
  else if .sent ∈ statuses then .partly
  else if .failed ∈ statuses then .failed
  else .skipped

def statuses (state : State) (viewer : Option OutboxKey) (event : EventId) : List Status :=
  (query state viewer fun _ row => row.event == event).filterMap fun id =>
    (state.deliveries id).map fun row => row.status

/-- `_refresh_event_status`. -/
def refreshEventStatus (state : State) (viewer : Option OutboxKey) (event : EventId) : State :=
  { state with
    events := Function.update state.events event
      ((state.events event).map fun row =>
        { row with status := summary (statuses state viewer event) }) }

/-! ### `_evaluate_occurrence` -/

def sourceKeyOf (outbox : OutboxKey) (matched : String) : SourceKey :=
  ⟨outbox, if outbox.running then some matched else none⟩

def eventFor (state : State) (outbox : OutboxKey) (rule : RuleId) (key : SourceKey) :
    Option EventId :=
  (List.range state.nextEvent).find? fun id => (state.events id).any fun event =>
    visible (some outbox) event.draft && event.rule == rule && event.sourceKey == key

def matchRule (state : State) (outbox : OutboxKey) (rule : RuleId) (matched : String)
    (policy : DiagnosisPolicy) : State :=
  match eventFor state outbox rule (sourceKeyOf outbox matched) with
  | some _ => state
  | none =>
    { state with
      events := Function.update state.events state.nextEvent (some
        { rule := rule, sourceKey := sourceKeyOf outbox matched, diagnosisPolicy := policy,
          status := .pending, draft := some outbox })
      nextEvent := state.nextEvent + 1
      evaluations := Function.update state.evaluations outbox (some ⟨some state.nextEvent⟩) }

def keyHolder (state : State) (viewer : Option OutboxKey) (key : Identity) : Option DeliveryId :=
  (query state viewer fun _ row => row.dedupeKey == some key).head?

/-- `AlertDiagnosis.objects.get_or_create`. -/
def getDiagnosis (state : State) (outbox : OutboxKey) (key : DiagnosisKey) : State :=
  { state with
    diagnoses := Function.update state.diagnoses key (some ((state.diagnoses key).getD
      { status := .pending, deadlineAt := state.now + key.timeoutSeconds, draft := some outbox })) }

/-- `attach_diagnosis`, and the delivery as it is saved. -/
def attachDiagnosis (state : State) (outbox : OutboxKey) (key : SourceKey) (row : Delivery) :
    State :=
  match row.destination.diagnosisPolicy with
  | .direct => insert state row
  | .notifyThenDiagnose maxTokens timeoutSeconds =>
    let key := ⟨key, row.destination.language, maxTokens, timeoutSeconds⟩
    insert (getDiagnosis state outbox key) { row with diagnosis := some key }
  | .diagnoseFirst maxTokens timeoutSeconds =>
    let key := ⟨key, row.destination.language, maxTokens, timeoutSeconds⟩
    insert (getDiagnosis state outbox key)
      { row with diagnosis := some key, status := .diagnosing }

/-- One subscription of the rule; `cooling` tells that a recent delivery was found. -/
def subscribe (casefold : String → String) (state : State) (outbox : OutboxKey) (event : EventId)
    (key : SourceKey) (subscription : SubscriptionId) (destination : Destination)
    (cooling : Bool) : State :=
  let identity := deliveryIdentity casefold key destination .initial
  let row := { newDelivery state.now event subscription .initial destination identity with
    draft := some outbox }
  if cooling then insert state { row with status := .suppressed }
  else match keyHolder state (some outbox) identity with
    | none => attachDiagnosis state outbox key { row with dedupeKey := some identity }
    | some original =>
      insert state { row with
        status := .suppressed
        destination := { destination with deduplicatedBy := some original }
        errorMessage := "Duplicate destination for this occurrence" }

def delivered (state : State) (event : EventId) (subscription : SubscriptionId) (phase : Phase) :
    List DeliveryId :=
  (List.range state.nextDelivery).filter fun id => (state.deliveries id).any fun row =>
    row.event == event && row.subscription == subscription && row.phase == phase

def publish (outbox : OutboxKey) (draft : Option OutboxKey) : Option OutboxKey :=
  if draft = some outbox then none else draft

def closeEvaluation (state : State) (outbox : OutboxKey) : State :=
  { state with
    events := fun id => (state.events id).map fun row => { row with draft := publish outbox row.draft }
    deliveries := fun id => (state.deliveries id).map fun row =>
      { row with draft := publish outbox row.draft }
    diagnoses := fun key => (state.diagnoses key).map fun row =>
      { row with draft := publish outbox row.draft }
    processed := Function.update state.processed outbox true
    evaluations := Function.update state.evaluations outbox none }

def abandonEvaluation (state : State) (outbox : OutboxKey) : State :=
  { state with
    events := fun id => (state.events id).filter fun row => row.draft != some outbox
    deliveries := fun id => (state.deliveries id).filter fun row => row.draft != some outbox
    diagnoses := fun key => (state.diagnoses key).filter fun row => row.draft != some outbox
    evaluations := Function.update state.evaluations outbox none }

/-! ### `send_alert_delivery` -/

def lease : Nat := 300

def maxAttempts : Nat := 5

def claimable (now : Time) (row : Delivery) : Bool :=
  decide (row.attempts < maxAttempts) &&
    ((row.status == .pending && decide (row.nextAttemptAt ≤ now)) ||
      (row.status == .sending && row.claimedAt.any fun claimed => decide (claimed + lease < now)))

def claimRow (worker : WorkerId) (now : Time) (row : Delivery) : Delivery :=
  { row with
    status := .sending
    claimedAt := some now
    claimToken := some worker
    attempts := row.attempts + 1
    history := .claimed worker :: row.history }

def backoff (attempts : Nat) : Nat := min (60 * Nat.pow 2 (attempts - 1)) 3600

def Outcome.status (outcome : Outcome) (attempts : Nat) : Status :=
  match outcome with
  | .skipped _ => .skipped
  | .success => .sent
  | .rejected => if maxAttempts ≤ attempts then .failed else .pending

def Outcome.error : Outcome → String
  | .skipped reason => (reason.take 500).toString
  | .success => ""
  | .rejected => "Notification provider rejected the delivery"

def finalizeRow (worker : WorkerId) (now : Time) (attempts : Nat) (outcome : Outcome)
    (row : Delivery) : Delivery :=
  { row with
    status := outcome.status attempts
    attempts := attempts
    errorMessage := outcome.error
    claimToken := none
    nextAttemptAt := now + backoff attempts
    history := .finalized worker :: row.history }

def replaceRow (now : Time) (read row : Delivery) : Delivery :=
  { row with
    dedupeKey := read.dedupeKey
    destination := { row.destination with deduplicatedBy := none }
    diagnosis := read.diagnosis
    status := .pending
    errorMessage := ""
    nextAttemptAt := now }

def relink (replacement : DeliveryId) (row : Delivery) : Delivery :=
  { row with destination := { row.destination with deduplicatedBy := some replacement } }

def duplicatesOf (state : State) (delivery : DeliveryId) : List DeliveryId :=
  query state none fun _ row =>
    row.status == .suppressed && row.destination.deduplicatedBy == some delivery

def replacementEvent (state : State) (replacement : DeliveryId) (fallback : EventId) : EventId :=
  ((state.deliveries replacement).map fun row => row.event).getD fallback

/-- `_promote_duplicate_delivery`, with the delivery as the worker has read it. -/
def promoteDuplicateDelivery (state : State) (delivery : DeliveryId) (read : Delivery) : State :=
  if read.dedupeKey.isNone then state
  else match duplicatesOf state delivery with
    | [] => state
    | replacement :: others =>
      let promoted := each state fun id row =>
        if id = delivery then { row with dedupeKey := none }
        else if id = replacement then replaceRow state.now read row
        else if id ∈ others then relink replacement row
        else row
      refreshEventStatus promoted none (replacementEvent promoted replacement read.event)

def holds (state : State) (worker : WorkerId) (delivery : DeliveryId) : Bool :=
  (state.deliveries delivery).any fun row => row.claimToken == some worker

/-- The transaction that finalizes, when the claim is still the worker's. -/
def finalize (state : State) (worker : WorkerId) (delivery : DeliveryId) (read : Delivery)
    (outcome : Outcome) : State :=
  if holds state worker delivery then
    let written := alter state delivery (finalizeRow worker state.now read.attempts outcome)
    let promoted := match outcome with
      | .skipped _ => promoteDuplicateDelivery written delivery read
      | .success | .rejected => written
    refreshEventStatus promoted none read.event
  else state

def setWorker (state : State) (worker : WorkerId) (phase : Worker) : State :=
  { state with workers := Function.update state.workers worker phase }

/-- `_delivery_result` saves the destination it has read in the subscriber's language. -/
def localize (language : Option String) (read : Delivery) (row : Delivery) : Delivery :=
  match language with
  | none => row
  | some language => { row with destination := { read.destination with language := language } }

def localized (language : Option String) (read : Delivery) : Delivery := localize language read read

/-! ### `advance_alert_diagnoses` -/

def timeOut (now : Time) (row : Diagnosis) : Diagnosis :=
  if row.draft = none ∧ row.status.final = false ∧ row.deadlineAt ≤ now then
    { row with status := .timedOut }
  else row

def expireDiagnoses (state : State) : State :=
  { state with diagnoses := fun key => (state.diagnoses key).map (timeOut state.now) }

def diagnosisStatus (state : State) (row : Delivery) : Option DiagnosisStatus :=
  row.diagnosis.bind fun key => ((state.diagnoses key).filter fun diagnosis =>
    diagnosis.draft.isNone).map fun diagnosis => diagnosis.status

def waits (state : State) (row : Delivery) : Bool :=
  row.draft.isNone && row.status == .diagnosing &&
    (diagnosisStatus state row).any DiagnosisStatus.final

def waitingEvents (state : State) : List EventId :=
  (query state none fun _ row => waits state row).filterMap fun id =>
    (state.deliveries id).map fun row => row.event

def release (state : State) : State :=
  each state fun _ row =>
    if waits state row then { row with status := .pending, nextAttemptAt := state.now } else row

def notifies (state : State) (row : Delivery) : Bool :=
  (state.events row.event).any fun event => match event.diagnosisPolicy with
    | .notifyThenDiagnose _ _ => true
    | .direct | .diagnoseFirst _ _ => false

/-- The notified deliveries that have a completed diagnosis and no supplement yet. -/
def originals (state : State) : List DeliveryId :=
  (query state none fun _ row =>
    row.status == .sent && row.phase == .initial && diagnosisStatus state row == some .completed &&
      notifies state row && (delivered state row.event row.subscription .diagnosis).isEmpty).take 100

/-- The supplement of one delivery, and the event that gets a new delivery by it. -/
def supplement (casefold : String → String) (state : State) (original : DeliveryId) :
    State × List EventId :=
  match state.deliveries original with
  | none => (state, [])
  | some row => match state.events row.event with
    | none => (state, [])
    | some event =>
      let identity := deliveryIdentity casefold event.sourceKey row.destination .diagnosis
      let fresh := newDelivery state.now row.event row.subscription .diagnosis row.destination
        identity
      match keyHolder state none identity with
      | none => (insert state { fresh with
          dedupeKey := some identity
          diagnosis := row.diagnosis }, [row.event])
      | some holder =>
        let same := (state.deliveries holder).any fun other =>
          other.event == row.event && other.subscription == row.subscription
        if same || !(delivered state row.event row.subscription .diagnosis).isEmpty then
          (state, [])
        else (insert state { fresh with
          status := .suppressed
          errorMessage := "Duplicate diagnosis destination" }, [])

def supplements (casefold : String → String) : State → List DeliveryId → State × List EventId
  | state, [] => (state, [])
  | state, original :: rest =>
    let added := supplement casefold state original
    let later := supplements casefold added.1 rest
    (later.1, added.2 ++ later.2)

def refreshAll (state : State) : List EventId → State
  | [] => state
  | event :: rest => refreshAll (refreshEventStatus state none event) rest

def advanceAlertDiagnoses (casefold : String → String) (state : State) : State :=
  let expired := expireDiagnoses state
  let released := release expired
  let added := supplements casefold released (originals released)
  refreshAll added.1 (waitingEvents expired ++ added.2)

/-! ### `dispatch_alerts_task` -/

def exhausted (now : Time) (row : Delivery) : Bool :=
  row.status == .sending && decide (maxAttempts ≤ row.attempts) &&
    row.claimedAt.any fun claimed => decide (claimed + lease < now)

def exhaustedEvents (state : State) (now : Time) : List EventId :=
  (query state none fun _ row => exhausted now row).filterMap fun id =>
    (state.deliveries id).map fun row => row.event

def failRow (now : Time) (row : Delivery) : Delivery :=
  if row.draft.isNone && exhausted now row then
    { row with
      status := .failed
      errorMessage := "Delivery worker lease expired after final attempt"
      history := .expired :: row.history }
  else row

def setDispatcher (state : State) (dispatcher : DispatcherId) (phase : Dispatcher) : State :=
  { state with dispatchers := Function.update state.dispatchers dispatcher phase }

def setDiagnosis (state : State) (key : DiagnosisKey) (row : Diagnosis) : State :=
  { state with diagnoses := Function.update state.diagnoses key (some row) }

def setEvaluation (state : State) (outbox : OutboxKey) (evaluation : Evaluation) : State :=
  { state with evaluations := Function.update state.evaluations outbox (some evaluation) }

def evaluationStep (casefold : String → String) (state : State) : Action → Option State
  | .openEvaluation outbox =>
    if (state.evaluations outbox).isNone && (outbox.running || !state.processed outbox) then
      some (setEvaluation state outbox ⟨none⟩)
    else none
  | .matchRule outbox rule matched policy =>
    match state.evaluations outbox with
    | some ⟨none⟩ => some (matchRule state outbox rule matched policy)
    | _ => none
  | .subscribe outbox subscription destination cooling =>
    match state.evaluations outbox with
    | some ⟨some event⟩ => match state.events event with
      | some row =>
        if destination.deduplicatedBy = none ∧
            delivered state event subscription .initial = [] then
          some (subscribe casefold state outbox event row.sourceKey subscription destination
            cooling)
        else none
      | none => none
    | _ => none
  | .finishRule outbox =>
    match state.evaluations outbox with
    | some ⟨some event⟩ =>
      some (setEvaluation (refreshEventStatus state (some outbox) event) outbox ⟨none⟩)
    | _ => none
  | .closeEvaluation outbox =>
    match state.evaluations outbox with
    | some ⟨none⟩ => some (closeEvaluation state outbox)
    | _ => none
  | .abandonEvaluation outbox =>
    match state.evaluations outbox with
    | some _ => some (abandonEvaluation state outbox)
    | none => none
  | _ => none

def workerStep (state : State) : Action → Option State
  | .startWorker worker delivery =>
    match state.workers worker with
    | .idle => some (setWorker state worker (.started delivery state.now))
    | _ => none
  | .claim worker =>
    match state.workers worker with
    | .started delivery now =>
      if (state.deliveries delivery).any fun row => row.draft.isNone && claimable now row then
        some (setWorker (alter state delivery (claimRow worker now)) worker (.claimed delivery))
      else some (setWorker state worker .ended)
    | _ => none
  | .load worker =>
    match state.workers worker with
    | .claimed delivery => (state.deliveries delivery).map fun row =>
      setWorker state worker (.loaded delivery row)
    | _ => none
  | .deliver worker language outcome =>
    match state.workers worker with
    | .loaded delivery read =>
      some (setWorker (alter state delivery (localize language read)) worker
        (.decided delivery (localized language read) outcome))
    | _ => none
  | .finalize worker =>
    match state.workers worker with
    | .decided delivery read outcome =>
      some (setWorker (finalize state worker delivery read outcome) worker .ended)
    | _ => none
  | .workerDies worker => some (setWorker state worker .ended)
  | _ => none

def diagnosisStep (casefold : String → String) (state : State) : Action → Option State
  | .claimDiagnosis key =>
    match state.diagnoses key with
    | some row =>
      if row.draft = none ∧ row.status = .pending ∧ state.now < row.deadlineAt then
        some (setDiagnosis state key { row with status := .running })
      else none
    | none => none
  | .endDiagnosis key completed =>
    match state.diagnoses key with
    | some row =>
      if row.draft = none ∧ row.status = .running ∧ state.now < row.deadlineAt then
        some (setDiagnosis state key
          { row with status := if completed then .completed else .failed })
      else none
    | none => none
  | .advanceDiagnoses => some (advanceAlertDiagnoses casefold state)
  | _ => none

def dispatcherStep (state : State) : Action → Option State
  | .startDispatcher dispatcher =>
    match state.dispatchers dispatcher with
    | .idle => some (setDispatcher state dispatcher (.started state.now))
    | _ => none
  | .listExhausted dispatcher =>
    match state.dispatchers dispatcher with
    | .started now => some (setDispatcher state dispatcher (.listed now (exhaustedEvents state now)))
    | _ => none
  | .failExhausted dispatcher =>
    match state.dispatchers dispatcher with
    | .listed now events =>
      some (setDispatcher (each state fun _ row => failRow now row) dispatcher
        (.refreshing events))
    | _ => none
  | .refreshExhausted dispatcher =>
    match state.dispatchers dispatcher with
    | .refreshing (event :: rest) =>
      some (setDispatcher (refreshEventStatus state none event) dispatcher (.refreshing rest))
    | _ => none
  | .dispatcherDies dispatcher => some (setDispatcher state dispatcher .ended)
  | _ => none

def step (casefold : String → String) (state : State) (action : Action) : Option State :=
  match action with
  | .tick seconds => some { state with now := state.now + seconds }
  | .enqueue outbox =>
    if (state.evaluations outbox).isNone then
      some { state with processed := Function.update state.processed outbox false }
    else none
  | .openEvaluation _ | .matchRule _ _ _ _ | .subscribe _ _ _ _ | .finishRule _
  | .closeEvaluation _ | .abandonEvaluation _ => evaluationStep casefold state action
  | .startWorker _ _ | .claim _ | .load _ | .deliver _ _ _ | .finalize _ | .workerDies _ =>
    workerStep state action
  | .claimDiagnosis _ | .endDiagnosis _ _ | .advanceDiagnoses => diagnosisStep casefold state action
  | .startDispatcher _ | .listExhausted _ | .failExhausted _ | .refreshExhausted _
  | .dispatcherDies _ => dispatcherStep state action

end SourceLens.AlertDelivery
