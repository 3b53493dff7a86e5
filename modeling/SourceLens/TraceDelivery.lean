import SourceLens.RunTraceLog
import SourceLens.Trajectory
import SourceLens.OutboxDelivery
import SourceLens.OutboxTrace
import SourceLens.Library.Cursor

/-! Trajectories of one LensNode process on their way to the server: recorded
events, the outbox and its connections, the network, the persisted logs and the
acknowledgements. -/

namespace SourceLens.TraceDelivery

open Transition Outbox

/-- The server's side that the run leaves as it is; `parseUuid` gives the text of
the UUID a frame names. -/
structure Server where
  backend : RunTrace.Backend
  lensnodeUuid : String
  runRow : String → Option RunTrace.RunRow
  parseUuid : String → Option String

/-- `recorded`, `handed`, `restored`, `restoredFrom`, `restoredCount` and `processed` are
history: every event recorded for a run, every frame handed to `_enqueue`, the
outbox at the last connection, how many events of a run were stored and handed over
at that time, and the frames the server has handled since. -/
structure System where
  trajectories : String → Trajectory.RunTrajectory
  scheduled : List Frame
  client : Client
  connected : Bool
  sendLoop : SendLoop
  network : List Payload
  logs : String → List RunTrace.TraceRow
  acks : List (String × Int)
  recorded : String → List Json
  handed : List Frame
  restored : List Payload
  restoredFrom : String → Nat
  restoredCount : String → Nat
  processed : List Payload

/-- The steps. A frame whose send raises or is cancelled may have reached the
network; the network may reorder and lose. -/
inductive Action
  | record (runtime : Trajectory.Runtime) (runUuid : String) (operation : Trajectory.Operation)
  | runCallback (now : String)
  | enqueue (now : String) (frame : Frame)
  | flushTimer (now : String)
  | connect
  | pop
  | sendSucceeds (now : String)
  | sendRaises (reached : Bool)
  | disconnect (reached : Bool)
  | lose (index : Nat)
  | receive (index : Nat)
  | loseAck (index : Nat)
  | receiveAck (index : Nat)

def System.new (outboxMax outboxSoftLimit : Nat) : System where
  trajectories := fun runUuid => .new runUuid 0 1
  scheduled := []
  client := .new outboxMax outboxSoftLimit
  connected := false
  sendLoop := .stopped
  network := []
  logs := fun _ => []
  acks := []
  recorded := fun _ => []
  handed := []
  restored := []
  restoredFrom := fun _ => 0
  restoredCount := fun _ => 0
  processed := []

/-- The frame that `record` emits for one event. -/
def traceFrame (runUuid : String) (event : Json) : Frame :=
  { type := "run_trace_events", runUuid := some runUuid, events := [event] }

def tracesRun (runUuid : String) (frame : Frame) : Bool := frame.isTrace && frame.run == runUuid

def eventsOf (runUuid : String) (frames : List Frame) : List Json :=
  (frames.filter (tracesRun runUuid)).flatMap (·.events)

/-- `_handle_run_trace_events`: the stored rows, and the acknowledgement unless the
batch is rejected. -/
def handleRunTraceEvents (server : Server) (logs : String → List RunTrace.TraceRow)
    (frame : Frame) : (String → List RunTrace.TraceRow) × Option (String × Int) :=
  match server.parseUuid frame.run with
  | none => (logs, none)
  | some runUuid =>
    match RunTrace.appendRunTraceEvents server.backend (server.runRow runUuid)
        server.lensnodeUuid (.arr frame.events) (logs runUuid) with
    | .ok (after, result) =>
      (Function.update logs runUuid after, some (runUuid, result.lastSequence))
    | .error _ => (logs, none)

def handOver (now : String) (system : System) (frame : Frame) : System :=
  { system with
    client := enqueue now system.client ⟨[system.handed.length], frame⟩
    handed := system.handed ++ [frame] }

def transmit (system : System) (reached : Bool) (payload : Payload) : List Payload :=
  if reached then system.network ++ [payload] else system.network

def step (server : Server) (system : System) : Action → Option System
  -- A dispatched run's UUID is the server's own text of it.
  | .record runtime runUuid operation =>
    if runUuid ≠ "" ∧ server.parseUuid runUuid = some runUuid then
      let result := Trajectory.perform runtime (system.trajectories runUuid) operation
      some { system with
        trajectories := Function.update system.trajectories runUuid result.trajectory
        recorded := Function.update system.recorded runUuid
          (system.recorded runUuid ++ result.events)
        scheduled := system.scheduled ++ result.events.map (traceFrame runUuid) }
    else none
  | .runCallback now =>
    match system.scheduled with
    | [] => none
    | frame :: rest => some (handOver now { system with scheduled := rest } frame)
  | .enqueue now frame =>
    if frame.isTrace then none else some (handOver now system frame)
  | .flushTimer now => some { system with client := flushBufferedOutput now system.client }
  | .connect =>
    if system.connected then none
    else some { system with
      client := onConnected system.client
      connected := true
      sendLoop := .ready
      restored := (onConnected system.client).outbox
      restoredFrom := fun runUuid => (system.logs runUuid).length
      restoredCount := fun runUuid => (eventsOf runUuid system.handed).length
      processed := [] }
  | .pop =>
    match system.sendLoop, system.client.outbox with
    | .ready, payload :: rest =>
      some { system with
        client := { system.client with outbox := rest }
        sendLoop := .awaiting payload }
    | _, _ => none
  | .sendSucceeds now =>
    match system.sendLoop with
    | .awaiting payload =>
      some { system with
        sendLoop := .ready
        network := system.network ++ [sentFrame now payload] }
    | _ => none
  | .sendRaises reached =>
    match system.sendLoop with
    | .awaiting payload =>
      some { system with
        client := requeue system.client payload
        sendLoop := .stopped
        network := transmit system reached payload }
    | _ => none
  | .disconnect reached =>
    if system.connected then
      some { system with
        connected := false
        sendLoop := .stopped
        network := match system.sendLoop with
          | .awaiting payload => transmit system reached payload
          | _ => system.network }
    else none
  | .lose index => some { system with network := system.network.eraseIdx index }
  | .receive index =>
    match system.network[index]? with
    | none => none
    | some payload =>
      if payload.frame.isTrace then
        let (logs, ack) := handleRunTraceEvents server system.logs payload.frame
        some { system with
          network := system.network.eraseIdx index
          logs := logs
          acks := system.acks ++ ack.toList
          processed := system.processed ++ [payload] }
      else some { system with network := system.network.eraseIdx index }
  | .loseAck index => some { system with acks := system.acks.eraseIdx index }
  | .receiveAck index =>
    match system.acks[index]? with
    | none => none
    | some (runUuid, lastSequence) =>
      some { system with
        client := handleRunTraceEventsAck system.client runUuid lastSequence
        acks := system.acks.eraseIdx index }

/-- At most `_outbox_max` unacknowledged keys, the next frame's included. -/
def keysBounded (system : System) : Action → Bool
  | .runCallback _ => system.client.pendingTraceFrames.length < system.client.outboxMax
  | _ => true

def KeysBounded (system : System) (action : Action) : Prop := keysBounded system action = true

instance (system : System) (action : Action) : Decidable (KeysBounded system action) :=
  inferInstanceAs (Decidable (_ = _))

/-- The stored rows are the first recorded events, normalized, in order. -/
def Mirrors (backend : RunTrace.Backend) (log : List RunTrace.TraceRow) (recorded : List Json) :
    Prop :=
  ∀ index row, log[index]? = some row → ∃ event normalized, recorded[index]? = some event ∧
    RunTrace.normalizeEvent backend event 0 = .ok normalized ∧
    row = ({ normalized.toTraceEvent with pk := index } : RunTrace.TraceRow)

/-- The run is assigned to the node, and each event passes the field checks, can be
stored and has an ID of its own. -/
structure Storable (server : Server) (runUuid : String) (events : List Json) : Prop where
  assigned : server.runRow runUuid = some ⟨some server.lensnodeUuid⟩
  valid : ∀ event ∈ events, ∃ normalized,
    RunTrace.normalizeEvent server.backend event 0 = .ok normalized ∧
    server.backend.storable normalized.toTraceEvent = true
  ownId : ∀ event ∈ events, ∀ other ∈ events, ∀ one two,
    RunTrace.normalizeEvent server.backend event 0 = .ok one →
    RunTrace.normalizeEvent server.backend other 0 = .ok two →
    one.eventId = two.eventId → one.sequence = two.sequence

/-- The restored frames of the run have all been handled, in their order. -/
def FullyDelivered (system : System) (runUuid : String) : Prop :=
  (system.restored.filter (traceOf runUuid)).Sublist system.processed

structure Delivered (server : Server) (system : System) (runUuid : String) : Prop where
  events : Mirrors server.backend (system.logs runUuid) (system.recorded runUuid)
  sequences : (system.logs runUuid).map (·.sequence) =
    List.range' 1 (system.logs runUuid).length
  recorded : (system.logs runUuid).length ≤ (system.recorded runUuid).length
  confirmed : ∀ lastSequence, (runUuid, lastSequence) ∈ system.acks →
    lastSequence ≤ (system.logs runUuid).length
  acknowledged : ∀ number : Nat, number ≤ (eventsOf runUuid system.handed).length →
    (∀ payload, ((runUuid, (number : Int)), payload) ∉ system.client.pendingTraceFrames.entries) →
    number ≤ (system.logs runUuid).length
  delivered : Storable server runUuid (system.recorded runUuid) → FullyDelivered system runUuid →
    system.restoredCount runUuid ≤ (system.logs runUuid).length

end SourceLens.TraceDelivery
