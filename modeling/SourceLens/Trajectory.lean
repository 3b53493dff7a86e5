import SourceLens.Library.Json
import SourceLens.Library.OrderedDict
import SourceLens.Library.PyText

/-! The node's side of a run's trajectory (`trajectory.py`): events numbered in
order, with the call bookkeeping that a checkpoint carries over to a resume. -/

namespace SourceLens.Trajectory

open List

variable {start : RunTrajectory}

variable (runtime : Runtime) (trajectory : RunTrajectory)

def traceSchemaVersion : Nat := 1

/-- What an operation takes from its surroundings: the identifiers and times of
the events by sequence, `str` on other values than text, the context's spans. -/
structure Runtime where
  uuid4 : Nat → String
  utcNow : Nat → String
  describe : Json → String
  spans : List String

structure RunTrajectory where
  runUuid : String
  sequence : Nat
  attempt : Nat
  openCallIds : List String
  openSpanIds : List String
  parentCallMap : OrderedDict String String
  closedCallIds : List String
  callNames : OrderedDict String String
  callCategories : OrderedDict String String
  finished : Bool
  degraded : Bool

/-- `_snapshot_unlocked`: what a checkpoint keeps. -/
structure TraceState where
  traceSchemaVersion : Nat
  lastTraceSeq : Nat
  currentAttempt : Nat
  openCallIds : List String
  openSpanIds : List String
  parentCallMap : OrderedDict String String
  spanStack : List String
  callCategories : OrderedDict String String
  callNames : OrderedDict String String

/-- The constructor without a trace state; a falsy attempt counts as the first. -/
def RunTrajectory.new (runUuid : String) (startSequence attempt : Nat) : RunTrajectory where
  runUuid := runUuid
  sequence := startSequence
  attempt := max attempt 1
  openCallIds := []
  openSpanIds := []
  parentCallMap := .empty
  closedCallIds := []
  callNames := .empty
  callCategories := .empty
  finished := false
  degraded := false

def snapshot (runtime : Runtime) (trajectory : RunTrajectory) : TraceState where
  traceSchemaVersion := traceSchemaVersion
  lastTraceSeq := trajectory.sequence
  currentAttempt := trajectory.attempt
  openCallIds := trajectory.openCallIds.insertionSort (· ≤ ·)
  openSpanIds := trajectory.openSpanIds.insertionSort (· ≤ ·)
  parentCallMap := trajectory.parentCallMap
  spanStack := runtime.spans
  callCategories := trajectory.callCategories
  callNames := trajectory.callNames

/-- `_json_value`: the copy, or a description where a number cannot be encoded. -/
def jsonValue (runtime : Runtime) (value : Json) : Json :=
  if value.finite then value
  else .obj [("serialization_error", .str "ValueError"), ("value", .str (runtime.describe value))]

def pyStr (runtime : Runtime) : Json → String
  | .str text => text
  | value => runtime.describe value

/-- `str(payload.get("name") or "")`. -/
def payloadName (runtime : Runtime) (payload : List (String × Json)) : String :=
  let name := Json.getOrNull payload "name"
  if name.truthy then pyStr runtime name else ""

/-- `list(payload.get("diagnostics") or [])`, whose items are texts. -/
def payloadDiagnostics (payload : List (String × Json)) : List String :=
  match Json.getOrNull payload "diagnostics" with
  | .arr items => items.filterMap fun
      | .str text => some text
      | _ => none
  | _ => []

/-- `_current_span` of the calling context. -/
def currentSpan (runtime : Runtime) (trajectory : RunTrajectory) : String :=
  runtime.spans.getLast?.getD s!"run:{trajectory.runUuid}"

structure RecordArgs where
  eventType : String
  payload : List (String × Json) := []
  checkpointId : Option String := none
  turn : Option Int := none
  step : Option Int := none
  callId : Option String := none
  parentCallId : Option String := none

def lifecycleSuffixes : List String :=
  ["start", "started", "done", "completed", "failed", "cancelled", "interrupted"]

def boundaryCategories : List String := ["model", "tool", "subtool", "run", "step"]

/-- `if call_id`: present and not empty. -/
def given : Option String → Bool
  | some text => text != ""
  | none => false

/-- `str(call_id)`. -/
def callKey (callId : Option String) : String := callId.getD "None"

def eventCategory (args : RecordArgs) : String := PyText.beforeFirst '.' args.eventType

def eventSuffix (runtime : Runtime) (args : RecordArgs) : String :=
  PyText.afterLast '.'
    (if eventCategory args = "step" then payloadName runtime args.payload else args.eventType)

def resolveParent (runtime : Runtime) (trajectory : RunTrajectory) (args : RecordArgs) :
    Option String × List String :=
  let diagnostics := payloadDiagnostics args.payload
  match (if given args.callId then trajectory.parentCallMap.get? (callKey args.callId) else none) with
  | some boundParent =>
    (some boundParent,
      if args.parentCallId.any (· ≠ boundParent) then diagnostics ++ ["parent_context_mismatch"]
      else diagnostics)
  | none =>
    match args.parentCallId with
    | some parent => (some parent, diagnostics)
    | none =>
      let current := currentSpan runtime trajectory
      (if current ≠ callKey args.callId then some current else none, diagnostics)

/-- `_parent_call_map[str(call_id)] = str(parent_call_id)` where both are given. -/
def bindCall (trajectory : RunTrajectory) (callId parentCallId : Option String) : RunTrajectory :=
  match callId, parentCallId with
  | some call, some parent =>
    if call ≠ "" ∧ parent ≠ "" then
      { trajectory with parentCallMap := trajectory.parentCallMap.set call parent }
    else trajectory
  | _, _ => trajectory

def isBoundary (runtime : Runtime) (trajectory : RunTrajectory) (args : RecordArgs) : Bool :=
  let category := eventCategory args
  let name := payloadName runtime args.payload
  let key := callKey args.callId
  let base :=
    if eventSuffix runtime args ∈ lifecycleSuffixes then PyText.beforeLast '.' name else name
  category ∈ boundaryCategories && args.eventType != "model.recovered" &&
    !(trajectory.callCategories.get? key).any (fun registered =>
      registered != "" && registered != category) &&
    !(category == "step" && (trajectory.callNames.get? key).any (· != base)) &&
    !(key == s!"run:{trajectory.runUuid}" && category != "run")

def startsCall (runtime : Runtime) (args : RecordArgs) : Bool :=
  eventSuffix runtime args ∈ ["start", "started"] ||
    payloadName runtime args.payload ∈ ["deepagents.agent.create", "deepagents.agent.invoke"]

def endsCall (runtime : Runtime) (args : RecordArgs) : Bool :=
  eventSuffix runtime args ∈ ["done", "completed", "failed", "cancelled", "interrupted"]

def addTo (items : List String) (item : String) : List String :=
  if item ∈ items then items else items ++ [item]

/-- The call bookkeeping of one event, with the diagnostics it adds. -/
def trackCall (runtime : Runtime) (trajectory : RunTrajectory) (args : RecordArgs) :
    RunTrajectory × List String :=
  let key := callKey args.callId
  let name := payloadName runtime args.payload
  if given args.callId && isBoundary runtime trajectory args then
    if key ∈ trajectory.closedCallIds then (trajectory, ["late_event"])
    else if startsCall runtime args then
      ({ trajectory with
          openCallIds := addTo trajectory.openCallIds key
          callCategories := trajectory.callCategories.set key (eventCategory args)
          callNames := trajectory.callNames.set key
            (if eventSuffix runtime args ∈ ["start", "started"] then PyText.beforeLast '.' name
              else name) }, [])
    else if endsCall runtime args then
      ({ trajectory with
          openCallIds := trajectory.openCallIds.filter (· ≠ key)
          openSpanIds := trajectory.openSpanIds.filter (· ≠ key)
          closedCallIds := addTo trajectory.closedCallIds key },
        if key ∈ trajectory.openCallIds then [] else ["missing_start"])
    else (trajectory, [])
  else (trajectory, [])

def optionalText (key : String) : Option String → List (String × Json)
  | some text => if text = "" then [] else [(key, .str text)]
  | none => []

def optionalPositive (key : String) : Option Int → List (String × Json)
  | some value => if value < 1 then [] else [(key, .int value)]
  | none => []

def eventOf (runtime : Runtime) (trajectory : RunTrajectory) (args : RecordArgs)
    (payload : List (String × Json)) (parentCallId : Option String) : Json :=
  .obj ([("event_id", .str (runtime.uuid4 trajectory.sequence)),
      ("sequence", .int trajectory.sequence),
      ("attempt", .int trajectory.attempt),
      ("event_type", .str args.eventType),
      ("timestamp", .str (runtime.utcNow trajectory.sequence)),
      ("payload", jsonValue runtime (.obj payload))] ++
    optionalText "checkpoint_id" args.checkpointId ++ optionalPositive "turn" args.turn ++
    optionalPositive "step" args.step ++ optionalText "call_id" args.callId ++
    optionalText "parent_call_id" parentCallId)

/-- The outcome of an operation: the events it emits in order, and the last
snapshot it offers to `persist_state`. -/
structure Recorded where
  trajectory : RunTrajectory
  events : List Json
  offered : Option TraceState

def record (runtime : Runtime) (trajectory : RunTrajectory) (args : RecordArgs) : Recorded :=
  let (parentCallId, inherited) := resolveParent runtime trajectory args
  let bound := bindCall trajectory args.callId parentCallId
  let (tracked, found) := trackCall runtime bound args
  let diagnostics :=
    inherited ++ (if trajectory.finished then ["after_run_finished"] else []) ++ found
  let payload :=
    if diagnostics = [] then args.payload
    else Json.setField args.payload "diagnostics"
      (.arr ((diagnostics.dedup.insertionSort (· ≤ ·)).map .str))
  let failing := (Json.getOrNull args.payload "fallback_reason").truthy ||
    Json.getOrNull args.payload "ok" == .bool false ||
    eventSuffix runtime args ∈ ["failed", "interrupted"]
  let next := { tracked with
    degraded := tracked.degraded || failing || !diagnostics.isEmpty
    finished := tracked.finished || (eventCategory args == "run" && endsCall runtime args)
    sequence := tracked.sequence + 1 }
  { trajectory := next
    events := [eventOf runtime next args payload parentCallId]
    offered :=
      if "after_run_finished" ∈ diagnostics then none else some (snapshot runtime next) }

/-- A sequence of calls of `record`. -/
def recordAll (runtime : Runtime) (trajectory : RunTrajectory) : List RecordArgs → Recorded
  | [] => ⟨trajectory, [], none⟩
  | args :: rest =>
    let first := record runtime trajectory args
    let later := recordAll runtime first.trajectory rest
    ⟨later.trajectory, first.events ++ later.events, later.offered <|> first.offered⟩

def startCall (runtime : Runtime) (trajectory : RunTrajectory) (category name callId : String)
    (payload : List (String × Json)) (parentCallId : Option String) (turn step : Option Int) :
    Recorded :=
  let parent := parentCallId.getD
    ((trajectory.parentCallMap.get? callId).getD (currentSpan runtime trajectory))
  let opened := { trajectory with
    openCallIds := addTo trajectory.openCallIds callId
    openSpanIds :=
      if category = "tool" ∨ category = "subtool" then addTo trajectory.openSpanIds callId
      else trajectory.openSpanIds
    parentCallMap :=
      if parent = "" then trajectory.parentCallMap else trajectory.parentCallMap.set callId parent
    callCategories := trajectory.callCategories.set callId category }
  let detail :=
    if "name" ∈ payload.map Prod.fst then payload else payload ++ [("name", .str name)]
  record runtime opened
    { eventType := category ++ ".started", payload := detail, turn := turn, step := step,
      callId := some callId, parentCallId := some parent }

def finishCall (runtime : Runtime) (trajectory : RunTrajectory) (callId status : String)
    (payload : List (String × Json)) (turn step : Option Int) : Recorded :=
  let category := (trajectory.callCategories.get? callId).getD "tool"
  record runtime trajectory
    { eventType := category ++ "." ++ status, payload := payload, turn := turn, step := step,
      callId := some callId, parentCallId := trajectory.parentCallMap.get? callId }

/-- Merge checkpoint-only open-call state without moving backwards; `none` for
an unsupported schema. -/
def mergeResumeState (trajectory : RunTrajectory) (state : TraceState) : Option RunTrajectory :=
  if state.traceSchemaVersion ≠ traceSchemaVersion then none
  else some { trajectory with
    sequence := max trajectory.sequence state.lastTraceSeq
    attempt := max trajectory.attempt (max state.currentAttempt 1)
    openCallIds := state.openCallIds.foldl addTo trajectory.openCallIds
    openSpanIds := state.openSpanIds.foldl addTo trajectory.openSpanIds
    callCategories := trajectory.callCategories.update state.callCategories
    callNames := trajectory.callNames.update state.callNames
    parentCallMap := trajectory.parentCallMap.update state.parentCallMap }

def interruption (trajectory : RunTrajectory) (reason callId : String) : RecordArgs :=
  let category := (trajectory.callCategories.get? callId).getD
    (if callId ∈ trajectory.openSpanIds then "tool" else "model")
  let payload := [("reason", .str reason), ("category", .str category)]
  { eventType := if category = "step" then "step.event" else category ++ ".interrupted"
    payload :=
      if category = "step" then
        payload ++
          [("name", .str ((trajectory.callNames.get? callId).getD callId ++ ".interrupted"))]
      else payload
    callId := some callId
    parentCallId := trajectory.parentCallMap.get? callId }

/-- The loop of `interrupt_open_calls` over the calls that were open at its start. -/
def interruptCalls (runtime : Runtime) (reason : String) :
    RunTrajectory → List String → Recorded
  | trajectory, [] => ⟨trajectory, [], none⟩
  | trajectory, callId :: rest =>
    if callId = s!"run:{trajectory.runUuid}" then interruptCalls runtime reason trajectory rest
    else
      let first := record runtime trajectory (interruption trajectory reason callId)
      let later := interruptCalls runtime reason first.trajectory rest
      ⟨later.trajectory, first.events ++ later.events, later.offered <|> first.offered⟩

def interruptOpenCalls (runtime : Runtime) (trajectory : RunTrajectory) (reason : String) :
    Recorded :=
  interruptCalls runtime reason trajectory (trajectory.openCallIds.insertionSort (· ≤ ·))

inductive Operation
  | record (args : RecordArgs)
  | startCall (category name callId : String) (payload : List (String × Json))
      (parentCallId : Option String) (turn step : Option Int)
  | finishCall (callId status : String) (payload : List (String × Json)) (turn step : Option Int)
  | interruptOpenCalls (reason : String)

def perform (runtime : Runtime) (trajectory : RunTrajectory) : Operation → Recorded
  | .record args => Trajectory.record runtime trajectory args
  | .startCall category name callId payload parentCallId turn step =>
    Trajectory.startCall runtime trajectory category name callId payload parentCallId turn step
  | .finishCall callId status payload turn step =>
    Trajectory.finishCall runtime trajectory callId status payload turn step
  | .interruptOpenCalls reason => Trajectory.interruptOpenCalls runtime trajectory reason

/-- The sequences of events numbered from `first` on. -/
def numbered (first count : Nat) : List (Option Int) :=
  (List.range' first count).map fun (number : Nat) => some (number : Int)

def sequences (events : List Json) : List (Option Int) :=
  events.map fun event => event.intField "sequence"

/-- The events of an operation continue the trajectory's cursor, and what it
offers for the checkpoint is no further. -/
structure Numbers (start : RunTrajectory) (recorded : Recorded) : Prop where
  events : sequences recorded.events = numbered (start.sequence + 1) recorded.events.length
  cursor : recorded.trajectory.sequence = start.sequence + recorded.events.length
  run : recorded.trajectory.runUuid = start.runUuid
  offered : ∀ state ∈ recorded.offered, state.traceSchemaVersion = traceSchemaVersion ∧
    state.lastTraceSeq ≤ recorded.trajectory.sequence

theorem sequences_append (front back : List Json) :
    sequences (front ++ back) = sequences front ++ sequences back := map_append

theorem numbered_append (first front back : Nat) :
    numbered first (front + back) = numbered first front ++ numbered (first + front) back := by
  rw [numbered, numbered, numbered, ← map_append, List.range'_append_1]

theorem eventOf_sequence (args : RecordArgs)
    (payload : List (String × Json)) (parentCallId : Option String) :
    (eventOf runtime trajectory args payload parentCallId).intField "sequence" =
      some (trajectory.sequence : Int) := rfl

theorem trackCall_sequence (args : RecordArgs) :
    (trackCall runtime trajectory args).1.sequence = trajectory.sequence ∧
      (trackCall runtime trajectory args).1.runUuid = trajectory.runUuid := by
  simp only [trackCall]
  split
  · split
    · exact ⟨rfl, rfl⟩
    · split
      · exact ⟨rfl, rfl⟩
      · split <;> exact ⟨rfl, rfl⟩
  · exact ⟨rfl, rfl⟩

theorem bindCall_sequence (callId parentCallId : Option String) :
    (bindCall trajectory callId parentCallId).sequence = trajectory.sequence ∧
      (bindCall trajectory callId parentCallId).runUuid = trajectory.runUuid := by
  unfold bindCall
  split
  · split <;> exact ⟨rfl, rfl⟩
  · exact ⟨rfl, rfl⟩

theorem Numbers.none : Numbers trajectory ⟨trajectory, [], none⟩ :=
  ⟨rfl, rfl, rfl, nofun⟩

theorem Numbers.event_sequence {recorded : Recorded} (numbers : Numbers start recorded) :
    ∀ event ∈ recorded.events, ∃ number, event.intField "sequence" = some number := by
  intro event member
  have mapped : event.intField "sequence" ∈ sequences recorded.events :=
    mem_map_of_mem member
  rw [numbers.events] at mapped
  obtain ⟨number, -, same⟩ := mem_map.mp mapped
  exact ⟨_, same.symm⟩

theorem Numbers.of_same {other : RunTrajectory} {recorded : Recorded}
    (numbers : Numbers start recorded) (cursor : other.sequence = start.sequence)
    (run : other.runUuid = start.runUuid) : Numbers other recorded :=
  ⟨cursor ▸ numbers.events, cursor ▸ numbers.cursor, run ▸ numbers.run, numbers.offered⟩

theorem Numbers.append {first later : Recorded} (one : Numbers start first)
    (two : Numbers first.trajectory later) : Numbers start
      ⟨later.trajectory, first.events ++ later.events, later.offered <|> first.offered⟩ where
  events := by
    rw [sequences_append, one.events, two.events, one.cursor, length_append, numbered_append,
      Nat.add_right_comm]
  cursor := by
    rw [two.cursor, one.cursor, length_append, Nat.add_assoc]
  run := two.run.trans one.run
  offered := by
    intro state member
    cases saved : later.offered with
    | some latest =>
      rw [saved] at member
      exact two.offered state (saved ▸ member)
    | none =>
      rw [saved] at member
      obtain ⟨schema, bounded⟩ := one.offered state member
      exact ⟨schema, bounded.trans (two.cursor ▸ Nat.le_add_right _ _)⟩

theorem record_numbers (args : RecordArgs) :
    Numbers trajectory (record runtime trajectory args) := by
  simp only [record]
  obtain ⟨kept, same⟩ :=
    bindCall_sequence trajectory args.callId (resolveParent runtime trajectory args).1
  rcases trackCall_sequence runtime (bindCall trajectory args.callId (resolveParent runtime
      trajectory args).1) args with
    ⟨cursor, run⟩
  refine ⟨?_, ?_, ?_, ?_⟩
  · simp only [sequences, map_cons, map_nil, eventOf_sequence, cursor, kept]
    rfl
  · simp only [cursor, kept, length_singleton]
  · exact run.trans same
  · intro state member
    rw [Option.mem_def, Option.ite_none_left_eq_some] at member
    obtain ⟨-, taken⟩ := member
    cases taken
    exact ⟨rfl, Nat.le_refl _⟩

theorem record_length (args : RecordArgs) :
    (record runtime trajectory args).events.length = 1 := rfl

theorem recordAll_numbers
    (calls : List RecordArgs) :
    Numbers trajectory (recordAll runtime trajectory calls) ∧
      (recordAll runtime trajectory calls).events.length = calls.length := by
  induction calls generalizing trajectory with
  | nil => exact ⟨.none trajectory, rfl⟩
  | cons args rest ih =>
    obtain ⟨later, count⟩ := ih (record runtime trajectory args).trajectory
    refine ⟨(record_numbers runtime trajectory args).append later, ?_⟩
    simp only [recordAll, length_append, count, length_cons]
    exact Nat.add_comm 1 _

theorem interruptCalls_numbers (reason : String)
    (trajectory : RunTrajectory) (calls : List String) :
    Numbers trajectory (interruptCalls runtime reason trajectory calls) := by
  induction calls generalizing trajectory with
  | nil => exact .none trajectory
  | cons callId rest ih =>
    simp only [interruptCalls]
    split
    · exact ih trajectory
    · exact (record_numbers runtime trajectory _).append (ih _)

theorem startCall_numbers
    (category name callId : String) (payload : List (String × Json))
    (parentCallId : Option String) (turn step : Option Int) :
    Numbers trajectory
      (startCall runtime trajectory category name callId payload parentCallId turn step) :=
  let recorded := record_numbers runtime _ _
  ⟨recorded.events, recorded.cursor, recorded.run, recorded.offered⟩

theorem perform_numbers
    (operation : Operation) : Numbers trajectory (perform runtime trajectory operation) := by
  cases operation with
  | record args => exact record_numbers runtime trajectory args
  | startCall category name callId payload parentCallId turn step =>
    exact startCall_numbers runtime trajectory category name callId payload parentCallId turn step
  | finishCall callId status payload turn step => exact record_numbers runtime trajectory _
  | interruptOpenCalls reason => exact interruptCalls_numbers runtime reason trajectory _

end SourceLens.Trajectory
