import SourceLens.Library.OrderedDict
import SourceLens.RunStatusWriters

/-! Runs on one LensNode (`main.py`, `executor.py`): the `run_start` commands of the
server's writers, their executions, the `run_done` frames in the outbox and their
acknowledgements, and the connections between the two sides. The process does not
restart. -/

namespace SourceLens.RunDispatch

open RunStatus (Status Outcome RunTable World)

structure RunStart where
  run : Nat
  dispatchId : Nat
  resume : Bool
  deriving DecidableEq, Repr

inductive BusyReason
  | draining
  | runActive
  deriving DecidableEq, Repr

def BusyReason.text : BusyReason → String
  | .draining => "LENSNODE_DRAINING"
  | .runActive => "LENSNODE_RUN_ACTIVE"

/-- The `run_done` frames: of `_send_busy`, which name no outcome, and of an
execution. `outcome` is `none` where the server does not know the outcome's name. -/
inductive RunDone
  | busy (run : Nat) (reason : BusyReason)
  | executed (run : Nat) (status : Status) (error : String) (outcome : Option Outcome)
  deriving DecidableEq, Repr

namespace RunDone

def run : RunDone → Nat
  | .busy run _ => run
  | .executed run .. => run

def status : RunDone → Status
  | .busy .. => .failed
  | .executed _ status .. => status

def error : RunDone → String
  | .busy _ reason => reason.text
  | .executed _ _ error _ => error

def outcome : RunDone → Option Outcome
  | .busy .. => none
  | .executed _ _ _ outcome => outcome

end RunDone

inductive Report
  | hello (activeRuns : List Nat)
  | runDone (frame : RunDone)
  deriving DecidableEq, Repr

inductive Command
  | runStart (start : RunStart)
  | runDoneAck (run : Nat)
  deriving DecidableEq, Repr

/-- Where `_execute_command` stands: before its slot, in `executor.execute`, behind
its `run_done`, or unwinding from a cancellation without one. -/
inductive Phase
  | waiting
  | executing
  | finishing
  | unwinding (admitted : Bool)
  deriving DecidableEq, Repr

/-- The entry of `running_tasks` and `running_commands`. -/
structure Running where
  dispatchId : Nat
  resume : Bool
  phase : Phase
  deriving DecidableEq, Repr

/-- `run_uuid in self.admitted_runs`. -/
def Running.admitted (running : Running) : Bool :=
  match running.phase with
  | .waiting => false
  | .executing | .finishing => true
  | .unwinding admitted => admitted

/-- The agent thread that an execution left behind when it timed out or was cancelled. -/
structure Worker where
  run : Nat
  number : Nat
  deriving DecidableEq, Repr

/-- `outbox` holds the `run_done` frames of the outbox, `sending` the one that the
send loop has popped. `files` are the runs with a checkpoint or runtime resources. -/
structure Node where
  outboxMax : Nat
  draining : Bool
  running : OrderedDict Nat Running
  outbox : List RunDone
  sending : Option RunDone
  pendingTerminalFrames : OrderedDict Nat RunDone
  workers : List Worker
  pendingWorkers : Nat → Option Nat
  pendingCleanups : List Worker
  files : Nat → Bool

def Node.new (outboxMax : Nat) : Node where
  outboxMax := outboxMax
  draining := false
  running := .empty
  outbox := []
  sending := none
  pendingTerminalFrames := .empty
  workers := []
  pendingWorkers := fun _ => none
  pendingCleanups := []
  files := fun _ => false

def Node.phase (node : Node) (run : Nat) : Option Phase := (node.running.get? run).map Running.phase

def Node.setPhase (node : Node) (run : Nat) (running : Running) (phase : Phase) : Node :=
  { node with running := node.running.set run { running with phase := phase } }

/-- `_enqueue_frame` for a `run_done`. -/
def enqueueRunDone (node : Node) (frame : RunDone) : Node :=
  let noted := (node.pendingTerminalFrames.set frame.run frame).moveToEnd frame.run
  { node with
    pendingTerminalFrames := noted.trim node.outboxMax
    outbox := node.outbox.drop (node.outbox.length + 1 - node.outboxMax) ++ [frame] }

def sendBusy (node : Node) (run : Nat) (reason : BusyReason) : Node :=
  enqueueRunDone node (.busy run reason)

/-- The reason with which `_start_command` refuses a command, if it does. -/
def refusal (node : Node) (start : RunStart) : Option BusyReason :=
  if node.draining then some .draining
  else
    match node.running.get? start.run with
    | none => none
    | some running =>
      if running.admitted then none
      else if running.dispatchId = start.dispatchId then none
      else if start.resume then none
      else some .runActive

/-- `_start_command`; a duplicate for a run in `running_tasks` changes nothing. -/
def startCommand (node : Node) (start : RunStart) : Node :=
  match refusal node start with
  | some reason => sendBusy node start.run reason
  | none =>
    match node.running.get? start.run with
    | some _ => node
    | none =>
      { node with
        running := node.running.set start.run ⟨start.dispatchId, start.resume, .waiting⟩ }

/-- `defer_cleanup_until_worker_stops`, where the run's worker still runs. -/
def deferredTo (node : Node) (run : Nat) : Option Worker :=
  match node.pendingWorkers run with
  | none => none
  | some number => if ⟨run, number⟩ ∈ node.workers then some ⟨run, number⟩ else none

def removeFiles (node : Node) (run : Nat) : Node :=
  { node with files := Function.update node.files run false }

/-- The `run_done_ack` branch of `_handle_message`. -/
def handleRunDoneAck (node : Node) (run : Nat) : Node :=
  let acknowledged := { node with
    pendingTerminalFrames := node.pendingTerminalFrames.pop run
    outbox := node.outbox.filter fun frame => frame.run ≠ run }
  match deferredTo node run with
  | none => removeFiles acknowledged run
  | some worker =>
    if run ∈ node.pendingCleanups.map Worker.run then acknowledged
    else { acknowledged with pendingCleanups := node.pendingCleanups ++ [worker] }

/-- `_reported_active_runs`. -/
def reportedActiveRuns (node : Node) : List Nat :=
  node.running.keys ++ node.outbox.map RunDone.run ++ node.pendingTerminalFrames.keys

def restorePendingTerminalFrames (node : Node) : Node :=
  let queued := node.outbox.map RunDone.run
  { node with
    outbox := node.outbox ++
      (node.pendingTerminalFrames.entries.filter (·.1 ∉ queued)).map Prod.snd }

/-! ### `_execute_command` -/

def grantSlot (node : Node) (run : Nat) : Option Node :=
  match node.running.get? run with
  | some running =>
    if running.phase = .waiting then
      some { node.setPhase run running .executing with
        files := Function.update node.files run true }
    else none
  | none => none

/-- `worker` is the number of the thread that is left behind, if one is. -/
def leaveWorker (node : Node) (run : Nat) (worker : Option Nat) : Node :=
  match worker with
  | none => node
  | some number =>
    { node with
      workers := node.workers ++ [⟨run, number⟩]
      pendingWorkers := Function.update node.pendingWorkers run (some number) }

/-- `executor.execute` ends with its `run_done`. -/
def finishExecution (node : Node) (frame : RunDone) (worker : Option Nat) : Option Node :=
  match node.running.get? frame.run with
  | some running =>
    if running.phase = .executing then
      some (enqueueRunDone
        (leaveWorker (node.setPhase frame.run running .finishing) frame.run worker) frame)
    else none
  | none => none

/-- The task is cancelled: no `run_done` follows. Only an execution has a thread. -/
def cancelExecution (node : Node) (run : Nat) (worker : Option Nat) : Option Node :=
  match node.running.get? run with
  | some running =>
    match running.phase with
    | .waiting => some (node.setPhase run running (.unwinding false))
    | .executing => some (leaveWorker (node.setPhase run running (.unwinding true)) run worker)
    | _ => none
  | none => none

def workerTracked (node : Node) (worker : Worker) : Bool :=
  decide (node.pendingWorkers worker.run = some worker.number)

/-- The outer `finally`; without a `run_done` it waits for `drain_pending_workers`. -/
def leaveRunningTasks (node : Node) (run : Nat) : Option Node :=
  match node.phase run with
  | some .finishing => some { node with running := node.running.pop run }
  | some (.unwinding _) =>
    if node.workers.all fun worker => !workerTracked node worker then
      some { node with running := node.running.pop run }
    else none
  | _ => none

/-- A thread ends: it is no longer tracked, and the cleanup that waits for it runs. -/
def workerStops (node : Node) (worker : Worker) : Option Node :=
  if worker ∈ node.workers then
    let stopped := { node with
      workers := node.workers.filter (· ≠ worker)
      pendingWorkers :=
        if workerTracked node worker then Function.update node.pendingWorkers worker.run none
        else node.pendingWorkers }
    if worker ∈ node.pendingCleanups then
      some (removeFiles { stopped with
        pendingCleanups := node.pendingCleanups.filter (· ≠ worker) } worker.run)
    else some stopped
  else none

/-- The run of the command is still resumable with its row locked; what
`resumeLocked` then does is to dispatch it. -/
def dispatchesLocked (run : RunStatus.Run) (lensnode : RunStatus.LensNode) : Bool :=
  run.execution.any fun execution =>
    decide (execution.status = .running) && lensnode.supportsRunCheckpointResume &&
      !(lensnode.supportsRunAdmissionCheckpoint && execution.checkpointReadyAt.isNone)

def dispatchesAwaitingRun (runs : RunTable) (nodes : List RunStatus.LensNode) (id : Nat)
    (now : Int) : Option Nat := do
  let run ← runs.get? id
  let lensnode ← RunStatus.node? nodes run.lensnode
  if lensnode.online && run.status.active && run.resumeBy.any (decide <| now < ·) &&
      dispatchesLocked run lensnode then some lensnode.id else none

def dispatchesNext (runs : RunTable) (lensnode : RunStatus.LensNode) (id : Nat) (now : Int) :
    Option Nat := do
  let run ← runs.get? id
  let claimedOnCurrentReport := decide (run.status = .streaming) &&
    run.lastActivityAt.all (decide <| lensnode.updatedAt ≤ ·)
  if decide (run.lensnode = some lensnode.id) && run.status.active && !claimedOnCurrentReport &&
      run.resumeBy.any (decide <| now < ·) && dispatchesLocked run lensnode then
    some lensnode.id
  else none

/-- The LensNode, the run and the `resume` flag of the command that a step of a writer
publishes. `published` tells whether an exception came after the publication. -/
def publishes (runs : RunTable) (nodes : List RunStatus.LensNode) (inputs : RunStatus.Inputs)
    (published : Bool) : RunStatus.Task → Option (Option Nat × Nat × Bool)
  | .executeGraph run true =>
    if inputs.raised.isNone || published then some (run.lensnode, run.id, false) else none
  | .called (.resumeAwaitingRun id) =>
    (dispatchesAwaitingRun runs nodes id inputs.now).map fun lensnode =>
      (some lensnode, id, true)
  | .resumeNext lensnode id _ =>
    if inputs.raised.isNone || published then
      (dispatchesNext runs lensnode id inputs.now).map fun lensnode => (some lensnode, id, true)
    else none
  | _ => none

def publication (lensnode : Nat) (world : World) (published : Bool) :
    RunStatus.Action → Option (Nat × Bool)
  | .advance index inputs =>
    ((world.tasks[index]?).bind (publishes world.runs world.nodes inputs published)).bind
      fun command => if command.1 = some lensnode then some command.2 else none
  | _ => none

/-- The calls that do not come from a frame of the node: the answer task and the retry,
orphan, expiration, cleanup, disconnect and cancellation paths. -/
def ownCall : RunStatus.Call → Bool
  | .finishLensnodeRun .. => false
  | .resumeAwaitingRunsForLensnode _ reportedActive => reportedActive.isEmpty
  | _ => true

def ownAction : RunStatus.Action → Bool
  | .call call => ownCall call
  | _ => true

def ended (runs : RunTable) (run : Nat) : Bool := (runs.get? run).all (·.status.terminal)

/-- The status that `_handle_run_done` passes on. -/
def handledStatus (status : Status) : Status :=
  if status = .awaitingUserInput ∨ status = .done ∨ status = .failed then status else .failed

/-- The runs after `_handle_run_done`. -/
def handleRunDone (runs : RunTable) (frame : RunDone) (manifestValid : Bool) (now : Int) :
    RunTable :=
  RunStatus.finishLensnodeRun runs frame.run (handledStatus frame.status) frame.error
    frame.outcome manifestValid now

/-- `finished` is history: the runs of which an execution has enqueued its `run_done`. -/
structure System where
  world : World
  node : Node
  connected : Bool
  reports : List Report
  commands : List Command
  dispatched : Nat
  threads : Nat
  finished : List Nat

/-- A process that has just started, before the server's writers have. -/
def System.new (outboxMax : Nat) (runs : RunTable) (nodes : List RunStatus.LensNode) : System where
  world := ⟨runs, nodes, []⟩
  node := .new outboxMax
  connected := false
  reports := []
  commands := []
  dispatched := 0
  threads := 0
  finished := []

/-- The steps. A frame whose send raises may have reached the server; reports of a
lost connection may still be handled, its commands not. -/
inductive Action
  | server (action : RunStatus.Action) (published : Bool)
  | handleHello (index : Nat)
  | handleRunDone (index : Nat) (manifestValid : Bool) (now : Int)
  | loseReport (index : Nat)
  | loseCommand (index : Nat)
  | connect
  | disconnect
  | drain
  | pop
  | sendSucceeds
  | sendRaises (reached : Bool)
  /-- Another frame makes room in a full outbox. -/
  | dropOldest
  | receive (index : Nat)
  | grantSlot (run : Nat)
  | finish (run : Nat) (status : Status) (error : String) (outcome : Option Outcome)
      (timedOut : Bool)
  | cancel (run : Nat) (threaded : Bool)
  | leave (run : Nat)
  | workerStops (worker : Worker)

def post (system : System) (command : Command) : System :=
  if system.connected then { system with commands := system.commands ++ [command] } else system

/-- `dispatch_run_to_lensnode`, with a dispatch id of its own. -/
def dispatchRunToLensnode (system : System) (run : Nat) (resume : Bool) : System :=
  { post system (.runStart ⟨run, system.dispatched, resume⟩) with
    dispatched := system.dispatched + 1 }

def serverStep (lensnode : Nat) (system : System) (action : RunStatus.Action) (published : Bool) :
    Option System :=
  if ownAction action then
    (RunStatus.step system.world action).map fun world =>
      match publication lensnode system.world published action with
      | none => { system with world := world }
      | some (run, resume) => dispatchRunToLensnode { system with world := world } run resume
  else none

def helloStep (lensnode : Nat) (system : System) (index : Nat) : Option System :=
  match system.reports[index]? with
  | some (.hello activeRuns) =>
    some { system with
      reports := system.reports.eraseIdx index
      world := { system.world with
        tasks := system.world.tasks ++
          [.called (.resumeAwaitingRunsForLensnode lensnode activeRuns)] } }
  | _ => none

def runDoneStep (system : System) (index : Nat) (manifestValid : Bool) (now : Int) :
    Option System :=
  match system.reports[index]? with
  | some (.runDone frame) =>
    let runs := handleRunDone system.world.runs frame manifestValid now
    let handled := { system with
      reports := system.reports.eraseIdx index
      world := { system.world with runs := runs } }
    some (if ended runs frame.run then post handled (.runDoneAck frame.run) else handled)
  | _ => none

def receiveCommand (node : Node) : Command → Node
  | .runStart start => startCommand node start
  | .runDoneAck run => handleRunDoneAck node run

def withNode (system : System) (node : Option Node) : Option System :=
  node.map fun node => { system with node := node }

def connect (system : System) : System :=
  { system with
    connected := true
    reports := system.reports ++ [.hello (reportedActiveRuns system.node)]
    node := restorePendingTerminalFrames system.node }

def requeueSending (node : Node) : Node :=
  match node.sending with
  | none => node
  | some frame => { node with sending := none, outbox := frame :: node.outbox }

def transmit (system : System) : List Report :=
  match system.node.sending with
  | none => system.reports
  | some frame => system.reports ++ [.runDone frame]

def step (lensnode : Nat) (system : System) : Action → Option System
  | .server action published => serverStep lensnode system action published
  | .handleHello index => helloStep lensnode system index
  | .handleRunDone index manifestValid now => runDoneStep system index manifestValid now
  | .loseReport index => some { system with reports := system.reports.eraseIdx index }
  | .loseCommand index => some { system with commands := system.commands.eraseIdx index }
  | .connect =>
    if system.connected = false ∧ system.node.sending = none then some (connect system) else none
  | .disconnect => some { system with connected := false, commands := [] }
  | .drain => some { system with node := { system.node with draining := true } }
  | .pop =>
    match system.connected, system.node.sending, system.node.outbox with
    | true, none, frame :: rest =>
      some { system with node := { system.node with sending := some frame, outbox := rest } }
    | _, _, _ => none
  | .sendSucceeds =>
    some { system with
      reports := transmit system
      node := { system.node with sending := none } }
  | .sendRaises reached =>
    some { system with
      reports := if reached then transmit system else system.reports
      node := requeueSending system.node }
  | .dropOldest => some { system with node := { system.node with outbox := system.node.outbox.tail } }
  | .receive index =>
    if system.connected then
      (system.commands[index]?).map fun command =>
        { system with
          commands := system.commands.eraseIdx index
          node := receiveCommand system.node command }
    else none
  | .grantSlot run => withNode system (grantSlot system.node run)
  | .finish run status error outcome timedOut =>
    (finishExecution system.node (.executed run status error outcome)
      (if timedOut then some system.threads else none)).map fun node =>
        { system with
          node := node
          threads := system.threads + 1
          finished := system.finished ++ [run] }
  | .cancel run threaded =>
    (cancelExecution system.node run (if threaded then some system.threads else none)).map
      fun node => { system with node := node, threads := system.threads + 1 }
  | .leave run => withNode system (leaveRunningTasks system.node run)
  | .workerStops worker => withNode system (workerStops system.node worker)

/-- A question for the assistant on LensNode 0, and nothing else. -/
def queuedRun : RunStatus.Run where
  id := 0
  status := .queued
  session := 0
  assistant := 0
  parentRun := none
  lensnode := some 0
  evaluation := none
  error := ""
  outcome := none
  startedAt := none
  lastActivityAt := none
  resumeBy := none
  finishedAt := none
  createdAt := 0
  execution := some ⟨.queued, none, none⟩

def queuedSystem : System :=
  .new 100 ⟨[queuedRun], 1, by decide, by decide⟩ [⟨0, true, true, true, none, 0⟩]

end SourceLens.RunDispatch
