import Mathlib.Data.List.Sort
import SourceLens.Library.TextEdits
import SourceLens.RunStatus

/-! The two event streams of a run (`stream_run_events`, `stream_run_events_async`): a
generator that reads the run's row and the cache mirror of its answer, between other
writers of both, and a client that takes one event after the other. Times are
microseconds. -/

namespace SourceLens.RunEvents

open RunStatus (Status Outcome)
open TextEdits

abbrev Text := List Char

def STREAM_STATE_POLL_INTERVAL : Nat := 250000

def STREAM_PING_INTERVAL : Nat := 15000000

/-- A step of the run or of a run delegated by it; `event` is what
`_build_stream_step_event` makes of the step and its owner. -/
structure RunStep where
  owner : Nat
  sequence : Nat
  status : Text
  updatedAt : Nat
  event : Text
  deriving DecidableEq, Repr

abbrev StepKey := Nat × Nat × Text × Nat

def RunStep.key (step : RunStep) : StepKey :=
  (step.owner, step.sequence, step.status, step.updatedAt)

/-- What `_load_run_stream_state` loads; the termination detail is the sanitized one. -/
structure Run where
  status : Status
  resumeBy : Option Nat
  outcome : Option Outcome
  terminationDetail : Text
  error : Text
  outputMessage : Option Text
  steps : List RunStep
  deriving DecidableEq, Repr

def runContent (run : Run) : Text := run.outputMessage.getD []

def RunStep.Before (first second : RunStep) : Prop :=
  first.updatedAt < second.updatedAt ∨ first.updatedAt = second.updatedAt ∧
    (first.owner < second.owner ∨ first.owner = second.owner ∧ first.sequence ≤ second.sequence)

instance : DecidableRel RunStep.Before := fun _ _ => inferInstanceAs (Decidable (_ ∨ _))

def runStreamSteps (run : Run) : List RunStep := run.steps.insertionSort RunStep.Before

inductive Event
  | sync (status : Status) (resumeBy : Option Nat) (outcome : Option Outcome)
      (terminationDetail : Text) (steps : List Text) (content : Text)
  | status (status : Status) (resumeBy : Option Nat)
  | queuePosition (position : Nat) (datasourceWaiting : Bool)
  | step (event : Text)
  | tokenReset
  | token (content : Text)
  | ping
  | awaitingUserInput (status : Status) (outcome : Option Outcome) (terminationDetail : Text)
  | error (status : Status) (outcome : Option Outcome) (terminationDetail : Text)
      (code message : Text)
  | done (status : Status) (outcome : Option Outcome) (terminationDetail : Text)
  deriving DecidableEq, Repr

def Event.terminal : Event → Bool
  | .awaitingUserInput .. | .error .. | .done .. => true
  | _ => false

def Event.edit : Event → Option (Edit Char)
  | .sync _ _ _ _ _ content => some (.write content)
  | .tokenReset => some .clear
  | .token content => some (.append content)
  | _ => none

def buildSyncEvent (run : Run) : Event :=
  .sync run.status run.resumeBy run.outcome run.terminationDetail
    ((runStreamSteps run).map (·.event)) (runContent run)

def orDefault (text default : Text) : Text := if text = [] then default else text

def terminalStreamEvent (run : Run) : Event :=
  match run.status with
  | .awaitingUserInput => .awaitingUserInput run.status run.outcome run.terminationDetail
  | .failed =>
    .error run.status run.outcome run.terminationDetail
      (orDefault run.error "LENS_RUN_FAILED".toList) (orDefault run.error "Run failed.".toList)
  | .cancelled =>
    .error run.status run.outcome run.terminationDetail
      "LENS_RUN_CANCELLED".toList "Run was cancelled.".toList
  | _ => .done run.status run.outcome run.terminationDetail

def contentDiffEvents (content emittedContent : Text) : List Event × Text :=
  let (events, emittedContent) :=
    if emittedContent.isPrefixOf content then ([], emittedContent) else ([Event.tokenReset], [])
  let delta := content.drop emittedContent.length
  (if delta = [] then events else events ++ [.token delta], content)

/-- `stream_run_events` or `stream_run_events_async`. -/
inductive Mode
  | polling
  | async
  deriving DecidableEq, Repr

inductive Phase
  /-- before the first read -/
  | starting
  /-- behind the `sync` event -/
  | seeding
  /-- the fast path of the async stream: the mirror -/
  | live
  /-- the read of the row -/
  | poll
  /-- behind the `status` event of the row read -/
  | reconcile
  /-- the ping and the sleep -/
  | resting
  | returned
  /-- the row was gone -/
  | raised
  deriving DecidableEq, Repr

/-- The local variables of a generator; `pending` are the events it yields before it
reads anything again. -/
structure Stream where
  mode : Mode
  phase : Phase
  run : Option Run
  emittedSteps : List StepKey
  emittedContent : Text
  lastStatus : Option Status
  lastResumeBy : Option Nat
  lastQueuePosition : Option (Nat × Bool)
  lastPingAt : Nat
  nextStatePoll : Nat
  pending : List Event
  deriving DecidableEq, Repr

def Stream.new (mode : Mode) : Stream where
  mode
  phase := .starting
  run := none
  emittedSteps := []
  emittedContent := []
  lastStatus := none
  lastResumeBy := none
  lastQueuePosition := none
  lastPingAt := 0
  nextStatePoll := 0
  pending := []

/-- What a generator can read; a mirror that is absent, unreadable or not a text is
`none`. -/
structure Stores where
  run : Option Run
  queuePosition : Nat
  datasourceWaiting : Bool
  mirror : Option Text
  /-- `loop.time()` and `timezone.now()` -/
  loopTime : Nat
  now : Nat
  deriving DecidableEq, Repr

def startBlock (stores : Stores) (stream : Stream) : Stream :=
  match stores.run with
  | none => { stream with phase := .raised }
  | some run =>
    { stream with
      phase := .seeding
      run := some run
      lastPingAt := stores.now
      pending := [buildSyncEvent run] }

/-- The snapshot is not replayed; the async stream also seeds what it compares the
status, the deadline and the steps with. -/
def seedBlock (stores : Stores) (run : Run) (stream : Stream) : Stream :=
  match stream.mode with
  | .polling => { stream with phase := .poll, emittedContent := runContent run }
  | .async =>
    { stream with
      phase := .live
      emittedContent := runContent run
      lastStatus := some run.status
      lastResumeBy := run.resumeBy
      emittedSteps := (runStreamSteps run).map (·.key)
      nextStatePoll := stores.loopTime }

def publishContent (content : Text) (stream : Stream) : Stream :=
  if content = stream.emittedContent then stream
  else
    let (events, emittedContent) := contentDiffEvents content stream.emittedContent
    { stream with emittedContent, pending := stream.pending ++ events }

def liveBlock (stores : Stores) (stream : Stream) : Stream :=
  match stores.mirror with
  | none => { stream with phase := .poll }
  | some content => { publishContent content stream with phase := .poll }

/-- The row that was read, and a `status` event for a change of its status or deadline. -/
def readRun (run : Run) (stream : Stream) : Stream :=
  let changed := some run.status ≠ stream.lastStatus ∨ run.resumeBy ≠ stream.lastResumeBy
  { stream with
    phase := .reconcile
    run := some run
    lastStatus := some run.status
    lastResumeBy := run.resumeBy
    pending := if changed then [.status run.status run.resumeBy] else [] }

def pollBlock (stores : Stores) (stream : Stream) : Stream :=
  if stream.mode = .async ∧ stores.loopTime < stream.nextStatePoll then
    { stream with phase := .live }
  else
    match stores.run with
    | none => { stream with phase := .raised }
    | some run =>
      readRun run
        { stream with nextStatePoll := stores.loopTime + STREAM_STATE_POLL_INTERVAL }

def publishQueue (stores : Stores) (run : Run) (stream : Stream) : Stream :=
  if run.status = .queued then
    let place := (stores.queuePosition, stores.datasourceWaiting)
    if some place = stream.lastQueuePosition then stream
    else
      { stream with
        lastQueuePosition := some place
        pending := stream.pending ++ [.queuePosition place.1 place.2] }
  else { stream with lastQueuePosition := none }

def publishStep (stream : Stream) (step : RunStep) : Stream :=
  if stream.emittedSteps.contains step.key then stream
  else
    { stream with
      emittedSteps := step.key :: stream.emittedSteps
      pending := stream.pending ++ [.step step.event] }

def publishSteps (run : Run) (stream : Stream) : Stream :=
  (runStreamSteps run).foldl publishStep stream

def finishPoll (run : Run) (stream : Stream) : Stream :=
  if run.status.terminal then
    { stream with phase := .returned, pending := stream.pending ++ [terminalStreamEvent run] }
  else { stream with phase := .resting }

/-- The slow path behind the `status` event: queue, steps, content and terminal state. -/
def reconcileBlock (stores : Stores) (run : Run) (stream : Stream) : Stream :=
  finishPoll run
    (publishContent (runContent run) (publishSteps run (publishQueue stores run stream)))

def Mode.top : Mode → Phase
  | .polling => .poll
  | .async => .live

def restBlock (stores : Stores) (stream : Stream) : Stream :=
  if stream.lastPingAt + STREAM_PING_INTERVAL ≤ stores.now then
    { stream with phase := stream.mode.top, lastPingAt := stores.now, pending := [.ping] }
  else { stream with phase := stream.mode.top }

def advance (stores : Stores) (stream : Stream) : Option Stream :=
  match stream.phase, stream.run with
  | .starting, _ => some (startBlock stores stream)
  | .seeding, some run => some (seedBlock stores run stream)
  | .live, _ => some (liveBlock stores stream)
  | .poll, _ => some (pollBlock stores stream)
  | .reconcile, some run => some (reconcileBlock stores run stream)
  | .resting, _ => some (restBlock stores stream)
  | _, _ => none

/-- The stores, one stream and the client attached to it; also every row and every
mirrored text there was since then. -/
structure System where
  stores : Stores
  stream : Stream
  received : List Event
  rows : List Run
  mirrored : List Text
  deriving DecidableEq, Repr

inductive Action
  | writeRun (run : Option Run)
  | writeQueue (position : Nat) (waiting : Bool)
  | writeMirror (content : Option Text)
  | pass (loopTime now : Nat)
  /-- The client takes the next event, or the generator goes on to yield one. -/
  | next
  deriving DecidableEq, Repr

def step (system : System) : Action → Option System
  | .writeRun run =>
    some { system with
      stores := { system.stores with run }
      rows := system.rows ++ run.toList }
  | .writeQueue position waiting =>
    some { system with
      stores := { system.stores with queuePosition := position, datasourceWaiting := waiting } }
  | .writeMirror content =>
    some { system with
      stores := { system.stores with mirror := content }
      mirrored := system.mirrored ++ content.toList }
  | .pass loopTime now => some { system with stores := { system.stores with loopTime, now } }
  | .next =>
    match system.stream.pending with
    | event :: pending =>
      some { system with
        stream := { system.stream with pending }
        received := system.received ++ [event] }
    | [] => (advance system.stores system.stream).map fun stream => { system with stream }

def attach (mode : Mode) (stores : Stores) : System where
  stores
  stream := .new mode
  received := []
  rows := stores.run.toList
  mirrored := stores.mirror.toList

def System.text (system : System) : Text := shown Event.edit [] system.received

/-- A text that the row or the mirror held while the client was attached. -/
def System.Held (system : System) (text : Text) : Prop :=
  (∃ run ∈ system.rows, runContent run = text) ∨ text ∈ system.mirrored

end SourceLens.RunEvents
