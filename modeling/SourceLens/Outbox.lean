import Mathlib.Data.List.Dedup
import SourceLens.Library.Json
import SourceLens.Library.OrderedDict

/-! The durable outbound buffer of a LensNode client (`main.py`): coalesced text
deltas, the bounded outbox, the unacknowledged frames and their restore steps. -/

namespace SourceLens.Outbox

def outputBatchMaxChars : Nat := 32768
def outboxCoalesceWindow : Nat := 500

def datasourceProgressSteps : List String :=
  ["item_skipped", "item_started", "item_done", "scan_progress", "scan_folder", "sync_progress",
    "conversion_progress", "conversion_discovery_progress", "repository_started"]

def datasourceTerminalTypes : List String :=
  ["datasource_sync_done", "datasource_convert_done", "datasource_convert_stopped",
    "datasource_upload_done"]

/-- The entries of a payload that the client reads or writes; `otherKeys` tells
whether it has any key but `type`, `run_uuid`, `content_delta` and `reset`. -/
structure Frame where
  type : String
  runUuid : Option String := none
  taskId : Option String := none
  step : Option String := none
  contentDelta : Option String := none
  reset : Bool := false
  otherKeys : Bool := true
  events : List Json := []
  nodeEnqueuedAt : Option String := none
  nodeSentAt : Option String := none
  deriving DecidableEq

/-- `str(value or "")`. -/
def textOrEmpty (value : Option String) : String := value.getD ""

def Frame.run (frame : Frame) : String := textOrEmpty frame.runUuid
def Frame.task (frame : Frame) : String := textOrEmpty frame.taskId
def Frame.isTrace (frame : Frame) : Bool := frame.type = "run_trace_events"

/-- The `sequence` of an event where it is an integer. -/
def eventSequence (event : Json) : Option Int := event.intField "sequence"

def Frame.sequences (frame : Frame) : List (Option Int) := frame.events.map eventSequence

/-- One dict object in the client's memory. `carries` numbers the hand-overs to
`_enqueue` whose content it holds; a frame that is never merged carries one, and
that number is its identity. -/
structure Payload where
  carries : List Nat
  frame : Frame
  deriving DecidableEq

structure Client where
  outboxMax : Nat
  outboxSoftLimit : Nat
  outbox : List Payload
  outboxDropped : Nat
  outboxCoalesced : Nat
  pendingTraceFrames : OrderedDict (String × Int) Payload
  pendingTerminalFrames : OrderedDict String Payload
  pendingDatasourceTerminalFrames : OrderedDict String Payload
  bufferedOutput : Option Payload

def Client.new (outboxMax outboxSoftLimit : Nat) : Client where
  outboxMax := outboxMax
  outboxSoftLimit := outboxSoftLimit
  outbox := []
  outboxDropped := 0
  outboxCoalesced := 0
  pendingTraceFrames := .empty
  pendingTerminalFrames := .empty
  pendingDatasourceTerminalFrames := .empty
  bufferedOutput := none

def notePendingTrace (client : Client) (payload : Payload) : Client :=
  if payload.frame.isTrace then
    let noted := payload.frame.events.foldl (fun pending event =>
      match eventSequence event with
      | some sequence =>
        (pending.set (payload.frame.run, sequence) payload).moveToEnd
          (payload.frame.run, sequence)
      | none => pending) client.pendingTraceFrames
    { client with pendingTraceFrames := noted.trim client.outboxMax }
  else client

/-- A terminal Run frame is stamped and remembered until it is acknowledged. -/
def notePendingTerminal (now : String) (client : Client) (payload : Payload) :
    Client × Payload :=
  if payload.frame.type = "run_done" ∧ payload.frame.run ≠ "" then
    let enqueuedAt := match payload.frame.nodeEnqueuedAt with
      | some text => if text = "" then now else text
      | none => now
    let stamped := { payload with
      frame := { payload.frame with nodeEnqueuedAt := some enqueuedAt, otherKeys := true } }
    let noted := (client.pendingTerminalFrames.set stamped.frame.run stamped).moveToEnd
      stamped.frame.run
    ({ client with pendingTerminalFrames := noted.trim client.outboxMax }, stamped)
  else (client, payload)

def notePendingDatasourceTerminal (client : Client) (payload : Payload) : Client :=
  if payload.frame.type ∈ datasourceTerminalTypes ∧ payload.frame.task ≠ "" then
    let noted := (client.pendingDatasourceTerminalFrames.set payload.frame.task payload).moveToEnd
      payload.frame.task
    { client with pendingDatasourceTerminalFrames := noted.trim client.outboxMax }
  else client

/-- The newest queued progress frame of the same task and step, within the window. -/
def newestProgress (outbox : List Payload) (frame : Frame) : Option Nat :=
  ((outbox.zipIdx.reverse.take outboxCoalesceWindow).find? fun (queued, _) =>
    queued.frame.type = "datasource_sync_event" ∧ queued.frame.taskId = frame.taskId ∧
      queued.frame.step = frame.step).map Prod.snd

/-- `_coalesce_progress_frame`; `none` where it returns `False`. -/
def coalesceProgressFrame (client : Client) (payload : Payload) : Option Client :=
  if client.outbox.length < client.outboxSoftLimit then none
  else if payload.frame.type ≠ "datasource_sync_event" then none
  else if textOrEmpty payload.frame.step ∉ datasourceProgressSteps then none
  else
    (newestProgress client.outbox payload.frame).map fun index =>
      { client with
        outbox := client.outbox.set index payload
        outboxCoalesced := client.outboxCoalesced + 1 }

def appendFrame (client : Client) (payload : Payload) : Client :=
  let excess := client.outbox.length + 1 - client.outboxMax
  { client with
    outbox := client.outbox.drop excess ++ [payload]
    outboxDropped := client.outboxDropped + excess }

/-- The frames remembered before queueing, and the payload that is queued. -/
def notePending (now : String) (client : Client) (payload : Payload) : Client × Payload :=
  let stamped := notePendingTerminal now (notePendingTrace client payload) payload
  (notePendingDatasourceTerminal stamped.1 stamped.2, stamped.2)

def enqueueFrame (now : String) (client : Client) (payload : Payload) : Client :=
  let noted := notePending now client payload
  match coalesceProgressFrame noted.1 noted.2 with
  | some coalesced => coalesced
  | none => appendFrame noted.1 noted.2

def flushBufferedOutput (now : String) (client : Client) : Client :=
  match client.bufferedOutput with
  | none => client
  | some payload => enqueueFrame now { client with bufferedOutput := none } payload

def isDelta (frame : Frame) : Bool :=
  frame.type = "run_output" && frame.run != "" && frame.contentDelta.isSome && !frame.reset &&
    !frame.otherKeys

def mergeDelta (buffered payload : Payload) : Payload :=
  { carries := buffered.carries ++ payload.carries
    frame := { buffered.frame with
      contentDelta := some
        (textOrEmpty buffered.frame.contentDelta ++ textOrEmpty payload.frame.contentDelta) } }

def flushOtherRun (now : String) (client : Client) (payload : Payload) : Client :=
  match client.bufferedOutput with
  | some buffered =>
    if buffered.frame.runUuid = payload.frame.runUuid then client
    else flushBufferedOutput now client
  | none => client

def bufferDelta (client : Client) (payload : Payload) : Client :=
  { client with bufferedOutput := some (match client.bufferedOutput with
      | some buffered => mergeDelta buffered payload
      | none => payload) }

def bufferedLength (client : Client) : Nat :=
  match client.bufferedOutput with
  | some buffered => (textOrEmpty buffered.frame.contentDelta).length
  | none => 0

def enqueue (now : String) (client : Client) (payload : Payload) : Client :=
  if isDelta payload.frame then
    let buffered := bufferDelta (flushOtherRun now client payload) payload
    if outputBatchMaxChars ≤ bufferedLength buffered then flushBufferedOutput now buffered
    else buffered
  else enqueueFrame now (flushBufferedOutput now client) payload

/-- The pending maps and the drop count aside, the two clients agree. -/
structure SameQueues (client next : Client) : Prop where
  limit : next.outboxMax = client.outboxMax
  outbox : next.outbox = client.outbox
  coalesced : next.outboxCoalesced = client.outboxCoalesced
  buffered : next.bufferedOutput = client.bufferedOutput

theorem SameQueues.trans {first second third : Client} (one : SameQueues first second)
    (two : SameQueues second third) : SameQueues first third :=
  ⟨two.limit.trans one.limit, two.outbox.trans one.outbox, two.coalesced.trans one.coalesced,
    two.buffered.trans one.buffered⟩

theorem notePendingTrace_queues (client : Client) (payload : Payload) :
    SameQueues client (notePendingTrace client payload) := by
  unfold notePendingTrace
  split <;> exact ⟨rfl, rfl, rfl, rfl⟩

theorem notePendingTerminal_queues (now : String) (client : Client) (payload : Payload) :
    SameQueues client (notePendingTerminal now client payload).1 := by
  unfold notePendingTerminal
  split <;> exact ⟨rfl, rfl, rfl, rfl⟩

theorem notePendingDatasourceTerminal_queues (client : Client) (payload : Payload) :
    SameQueues client (notePendingDatasourceTerminal client payload) := by
  unfold notePendingDatasourceTerminal
  split <;> exact ⟨rfl, rfl, rfl, rfl⟩

theorem notePending_queues (now : String) (client : Client) (payload : Payload) :
    SameQueues client (notePending now client payload).1 :=
  ((notePendingTrace_queues client payload).trans (notePendingTerminal_queues now _ payload)).trans
    (notePendingDatasourceTerminal_queues _ _)

theorem notePending_carries (now : String) (client : Client) (payload : Payload) :
    (notePending now client payload).2.carries = payload.carries := by
  unfold notePending notePendingTerminal
  split <;> rfl

theorem coalesceProgressFrame_some {client next : Client} {payload : Payload}
    (coalesced : coalesceProgressFrame client payload = some next) :
    payload.frame.type = "datasource_sync_event" ∧
      ∃ index, newestProgress client.outbox payload.frame = some index ∧
        next = { client with
          outbox := client.outbox.set index payload
          outboxCoalesced := client.outboxCoalesced + 1 } := by
  unfold coalesceProgressFrame at coalesced
  split at coalesced
  · cases coalesced
  · split at coalesced
    · cases coalesced
    · rename_i progress
      split at coalesced
      · cases coalesced
      · obtain ⟨index, newest, rfl⟩ := Option.map_eq_some_iff.mp coalesced
        exact ⟨not_not.mp progress, index, newest, rfl⟩

/-- The two sets and the dict that `_restore_pending_trace_frames` fills. -/
structure TraceFrames where
  frames : OrderedDict (String × List (Option Int)) Payload
  known : List (List Nat)
  covered : List (String × Option Int)

def collectQueued (collected : TraceFrames) (payload : Payload) : TraceFrames :=
  if payload.frame.isTrace ∧ payload.frame.run ≠ "" ∧ payload.frame.events ≠ [] then
    { frames := collected.frames.set (payload.frame.run, payload.frame.sequences) payload
      known := payload.carries :: collected.known
      covered := payload.frame.sequences.map (payload.frame.run, ·) ++ collected.covered }
  else collected

def collectPending (collected : TraceFrames) (entry : (String × Int) × Payload) : TraceFrames :=
  let ((runUuid, sequence), payload) := entry
  if payload.carries ∈ collected.known ∨ (runUuid, some sequence) ∈ collected.covered then
    collected
  else
    { frames := collected.frames.setDefault (runUuid, [some sequence]) payload
      known := payload.carries :: collected.known
      covered := (runUuid, some sequence) :: collected.covered }

def collectTraceFrames (client : Client) : TraceFrames :=
  client.pendingTraceFrames.entries.foldl collectPending
    (client.outbox.foldl collectQueued ⟨.empty, [], []⟩)

/-- `min(event.get("sequence", 0) for event in events)`. -/
def firstSequence (payload : Payload) : Int :=
  match payload.frame.sequences.map (fun sequence => sequence.getD 0) with
  | [] => 0
  | sequence :: rest => rest.foldl min sequence

def orderedFrames (collected : TraceFrames) (runUuid : String) : List Payload :=
  ((collected.frames.entries.filter fun entry => entry.1.1 = runUuid).map Prod.snd).insertionSort
    fun left right => firstSequence left ≤ firstSequence right

def tracedRuns (collected : TraceFrames) : List String :=
  (collected.frames.entries.map fun entry => entry.1.1).eraseDups

/-- The loop that rebuilds the outbox: a run's whole segment stands where its
first frame of any type stood, or at the end. -/
def rebuild (runs : List String) (segment : String → List Payload) :
    List Payload → List String → List Payload
  | [], emitted => (runs.filter (· ∉ emitted)).flatMap segment
  | payload :: rest, emitted =>
    let runUuid := payload.frame.run
    let own := if payload.frame.isTrace then [] else [payload]
    if runUuid ∈ runs ∧ runUuid ∉ emitted then
      segment runUuid ++ own ++ rebuild runs segment rest (runUuid :: emitted)
    else own ++ rebuild runs segment rest emitted

def restorePendingTraceFrames (client : Client) : Client :=
  let collected := collectTraceFrames client
  { client with
    outbox := rebuild (tracedRuns collected) (orderedFrames collected) client.outbox [] }

def restorePendingTerminalFrames (client : Client) : Client :=
  let queued := (client.outbox.filter fun payload => payload.frame.type = "run_done").map
    (·.frame.run)
  { client with
    outbox := client.outbox ++
      (client.pendingTerminalFrames.entries.filter (·.1 ∉ queued)).map Prod.snd }

def restorePendingDatasourceTerminalFrames (client : Client) : Client :=
  let queued := (client.outbox.filter fun payload =>
    payload.frame.type ∈ datasourceTerminalTypes).map (·.frame.task)
  { client with
    outbox := client.outbox ++
      (client.pendingDatasourceTerminalFrames.entries.filter (·.1 ∉ queued)).map Prod.snd }

/-- `_on_connected` after the hello frame. -/
def onConnected (client : Client) : Client :=
  restorePendingDatasourceTerminalFrames
    (restorePendingTerminalFrames (restorePendingTraceFrames client))

/-- The send loop of one connection: at its wait, or awaiting `websocket.send`
of a frame it has popped. -/
inductive SendLoop
  | stopped
  | ready
  | awaiting (payload : Payload)
  deriving DecidableEq

def sentFrame (now : String) (payload : Payload) : Payload :=
  if payload.frame.type = "run_done" then
    { payload with frame := { payload.frame with nodeSentAt := some now } }
  else payload

def requeue (client : Client) (payload : Payload) : Client :=
  { client with outbox := payload :: client.outbox }

/-- The `run_trace_events_ack` branch of `_handle_message`. -/
def handleRunTraceEventsAck (client : Client) (runUuid : String) (lastSequence : Int) : Client :=
  { client with
    pendingTraceFrames := client.pendingTraceFrames.filterKeys fun key =>
      ¬ (key.1 = runUuid ∧ key.2 ≤ lastSequence) }

end SourceLens.Outbox
