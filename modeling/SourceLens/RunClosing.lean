import SourceLens.Library.TaskPool
import SourceLens.RunStatusWriters

/-! The ends of a run (`finish_lensnode_run`, `fail_active_runs_for_lensnode`, the expiry
branch of `mark_active_runs_awaiting_resume`, `lensnode_cleanup_task`): what they close of
its steps and of its delegated runs. -/

namespace SourceLens.RunClosing

open RunStatus (Status ExecutionStatus Outcome Run LensNode Settings RunTable change)

variable {Json : Type}

/-- `RunStep.StepType`. -/
inductive StepType
  | queryRewrite
  | multimodal
  | retrieval
  | generalChat
  | answer
  | stream
  | other (name : String)
  deriving DecidableEq, Repr

/-- `_step_sequence`. -/
def stepSequence : StepType → Nat
  | .queryRewrite => 0
  | .multimodal => 1
  | .retrieval => 2
  | .generalChat => 3
  | .answer => 4
  | .stream => 5
  | .other _ => 4

/-- `RunStep.Status`. -/
inductive StepStatus
  | running
  | done
  | failed
  deriving DecidableEq, Repr

structure RunStep (Json : Type) where
  run : Nat
  sequence : Nat
  stepType : StepType
  status : StepStatus
  events : List Json
  deriving DecidableEq

/-- A `run_event` frame. -/
structure Event (Json : Type) where
  stepType : StepType
  status : StepStatus
  /-- `detail.queue_state` is `"QUEUED"`. -/
  queued : Bool
  detail : Json
  deriving DecidableEq

/-- `fail_running_steps_for_runs`. -/
def failRunningSteps (steps : List (RunStep Json)) (ids : List Nat) (status : StepStatus) :
    List (RunStep Json) :=
  steps.map fun step =>
    if step.run ∈ ids ∧ step.status = .running then { step with status := status } else step

/-- `get_or_create`, and the save of the step. -/
def recordStep (steps : List (RunStep Json)) (run : Nat) (event : Event Json) :
    List (RunStep Json) :=
  let sequence := stepSequence event.stepType
  if steps.any fun step => decide (step.run = run ∧ step.sequence = sequence) then
    steps.map fun step =>
      if step.run = run ∧ step.sequence = sequence then
        { step with
          stepType := event.stepType
          status := event.status
          events := step.events ++ [event.detail] }
      else step
  else steps ++ [⟨run, sequence, event.stepType, event.status, [event.detail]⟩]

/-- The run row after an event: the first one admits the execution, a running one ends the
wait for a resume, and each may refresh the activity. -/
def eventRow (event : Event Json) (now : Int) (run : Run) : Run :=
  { run with
    execution := run.execution.map fun execution =>
      if event.status = .running ∧ execution.status = .dispatched ∧ event.queued = false then
        { execution with status := .running }
      else execution
    resumeBy := if event.status = .running then none else run.resumeBy
    lastActivityAt :=
      if run.lastActivityAt.all (decide <| · < now - RunStatus.seconds 15) then some now
      else run.lastActivityAt }

inductive Path
  | failActiveRunsForLensnode (lensnode : Nat)
  | markActiveRunsAwaitingResume (lensnode : Nat)
  | lensnodeCleanupTask
  deriving DecidableEq, Repr

/-- Where a path stands between two of its statements, with what it has read. -/
inductive Task
  | called (path : Path)
  | failActive (ids : List Nat) (now : Int)
  | failActiveSteps (ids : List Nat)
  | markActive (lensnode : Nat)
  | markAwaiting (rest : List (Run × Option LensNode)) (now : Int) (updated expired : List Nat)
  | markExecutions (expired : List Nat)
  | cleanupStale (ids : List Nat) (now : Int)
  | cleanupRead (now : Int)
  | cleanupExpiredSteps (ids : List Nat) (now : Int)
  | cleanupExpired (now : Int)
  | cleanupExecutions
  deriving DecidableEq

structure World (Json : Type) where
  runs : RunTable
  steps : List (RunStep Json)
  nodes : List LensNode
  tasks : List Task
  /-- The runs that one of the paths has made terminal, with all it does to the steps. -/
  settled : List Nat

/-- What a statement leaves: the world without the task, and where the path stands. -/
abbrev Effect (Json : Type) := World Json × Option Task

def failExecutions (runs : RunTable) (condition : Run → Bool) : RunTable :=
  runs.updateWhere condition (change fun run =>
    { run with execution := run.execution.map fun execution =>
        match execution.status with
        | .queued | .dispatched | .running => { execution with status := .failed }
        | _ => execution })

def expiredIds (runs : RunTable) (now : Int) : List Nat :=
  (runs.select fun run => run.status.active && run.resumeBy.any (decide <| · < now)).map Run.id

def Path.advance (world : World Json) (settings : Settings) (now : Int) : Path → Option Task
  | .failActiveRunsForLensnode lensnode =>
    let ids := (RunStatus.activeRunsOf world.runs lensnode).map Run.id
    if ids = [] then none else some (.failActive ids now)
  | .markActiveRunsAwaitingResume lensnode =>
    some (if (RunStatus.node? world.nodes (some lensnode)).any
        LensNode.supportsRunCheckpointResume then .markActive lensnode
      else .called (.failActiveRunsForLensnode lensnode))
  | .lensnodeCleanupTask =>
    let activeRuns := world.runs.select fun run => run.status.active && run.resumeBy.isNone
    some (.cleanupStale ((activeRuns.filter (RunStatus.staleRun settings now)).map Run.id) now)

/-- One round of the loop: a run is updated if it is still active. -/
def markAwaiting (world : World Json) (settings : Settings) (run : Run)
    (lensnode : Option LensNode) (rest : List (Run × Option LensNode)) (now : Int)
    (updated expired : List Nat) : Effect Json :=
  let resumeBy := RunStatus.getRunResumeDeadline settings lensnode run now
  let matched := (world.runs.get? run.id).any (·.status.active)
  ({ world with runs := RunStatus.markAwaiting world.runs settings run lensnode now },
    some (.markAwaiting rest now (if matched then updated ++ [run.id] else updated)
      (if matched ∧ resumeBy ≤ now then expired ++ [run.id] else expired)))

def Task.advance (world : World Json) (settings : Settings) (clock : Int) : Task → Effect Json
  | .called path => (world, path.advance world settings clock)
  | .failActive ids now =>
    ({ world with runs := RunStatus.failActive world.runs ids now }, some (.failActiveSteps ids))
  | .failActiveSteps ids =>
    ({ world with
      steps := failRunningSteps world.steps ids .failed
      settled := world.settled ++ ids }, none)
  | .markActive lensnode =>
    let rows := RunStatus.activeRunsOf world.runs lensnode
    (world, if rows = [] then none
      else some (.markAwaiting
        (rows.map fun run => (run, RunStatus.node? world.nodes run.lensnode)) clock [] []))
  | .markAwaiting ((run, lensnode) :: rest) now updated expired =>
    RunClosing.markAwaiting world settings run lensnode rest now updated expired
  | .markAwaiting [] _ updated expired =>
    ({ world with
      steps := failRunningSteps world.steps updated .failed
      settled := world.settled ++ expired },
      if expired = [] then none else some (.markExecutions expired))
  | .markExecutions expired =>
    ({ world with
      runs := failExecutions world.runs (fun run => decide (run.id ∈ expired)) }, none)
  | .cleanupStale ids now =>
    -- The rows are locked, so the steps and the rows are updated as one.
    ({ world with
      runs := RunStatus.cleanupStale world.runs ids now
      steps := failRunningSteps world.steps ids .failed
      settled := world.settled ++ ids }, some (.cleanupRead now))
  | .cleanupRead now =>
    let ids := expiredIds world.runs now
    (world, some (if ids = [] then .cleanupExpired now else .cleanupExpiredSteps ids now))
  | .cleanupExpiredSteps ids now =>
    ({ world with steps := failRunningSteps world.steps ids .failed }, some (.cleanupExpired now))
  | .cleanupExpired now =>
    ({ world with
      runs := RunStatus.cleanupExpired world.runs now
      settled := world.settled ++ expiredIds world.runs now }, some .cleanupExecutions)
  | .cleanupExecutions =>
    ({ world with runs := failExecutions world.runs (decide <| ·.status = .failed) }, none)

/-! ### `finish_lensnode_run` -/

def terminates (runs : RunTable) (id : Nat) (status : Status) (error : String)
    (manifestValid : Bool) (now : Int) : Bool :=
  (runs.get? id).any fun run =>
    let retryableAdmissionError := decide (error = "LENSNODE_BUSY") ||
      decide (error = "LENSNODE_DRAINING") && run.resumeBy.isSome
    let requeue := decide (status = .failed) && retryableAdmissionError
    !run.status.terminal && manifestValid && !(requeue && (run.resumeBy.isSome ||
      decide (now - run.createdAt < RunStatus.busyRetryWindow)))

def closingStatus : Status → StepStatus
  | .done | .awaitingUserInput => .done
  | _ => .failed

def finishLensnodeRun (world : World Json) (id : Nat) (status : Status) (error : String)
    (outcome : Option Outcome) (manifestValid : Bool) (now : Int) : World Json :=
  let runs := RunStatus.finishLensnodeRun world.runs id status error outcome manifestValid now
  if terminates world.runs id status error manifestValid now then
    { world with
      runs := runs
      steps := (failRunningSteps world.steps [id] (closingStatus status)).filter fun step =>
        (runs.get? step.run).isSome
      settled := world.settled ++ id :: RunStatus.children world.runs id }
  else { world with runs := runs }

/-- `record_lensnode_run_event`, a transaction under the lock of the run row. -/
def recordLensnodeRunEvent (world : World Json) (id : Nat) (event : Event Json) (now : Int) :
    World Json :=
  match world.runs.get? id with
  | none => world
  | some run =>
    if run.status.terminal then world
    else { world with
      runs := world.runs.update id (change (eventRow event now))
      steps := recordStep world.steps id event }

def newRun (row : Run) (parentRun : Option Nat) (id : Nat) : Run :=
  { row with id := id, status := .queued, parentRun := parentRun, resumeBy := none }

theorem newRun_id (row : Run) (parentRun : Option Nat) (id : Nat) :
    (newRun row parentRun id).id = id := rfl

/-- `create_delegated_run`, a transaction under the lock of the parent's row; `accepted`
stands for the checks that do not concern the two runs. -/
def createDelegatedRun (world : World Json) (parent : Nat) (row : Run) (accepted : Bool) :
    World Json :=
  match world.runs.get? parent with
  | none => world
  | some run =>
    if run.parentRun = none ∧ run.status.active = true ∧ accepted = true then
      { world with runs := world.runs.create (newRun row (some parent)) (newRun_id row _) }
    else world

/-- The queue, the execution and the resume move an unfinished run on. -/
def proceed (status : Status) (startedAt lastActivityAt : Option Int) (resumed : Bool) :
    Table.Change Run.id :=
  change fun run =>
    { run with
      status := status
      startedAt := startedAt
      lastActivityAt := lastActivityAt
      resumeBy := if resumed then none else run.resumeBy }

inductive Action (Json : Type)
  | call (path : Path)
  | advance (index : Nat) (settings : Settings) (clock : Int)
  | finish (id : Nat) (status : Status) (error : String) (outcome : Option Outcome)
      (manifestValid : Bool) (now : Int)
  | event (id : Nat) (event : Event Json) (now : Int)
  | delegate (parent : Nat) (row : Run) (accepted : Bool)
  | createRun (row : Run)
  | proceed (id : Nat) (status : Status) (startedAt lastActivityAt : Option Int) (resumed : Bool)
  | nodes (nodes : List LensNode)

def step (world : World Json) : Action Json → Option (World Json)
  | .call path => some { world with tasks := world.tasks ++ [.called path] }
  | .advance index settings clock =>
    (world.tasks[index]?).map fun task =>
      let effect := task.advance world settings clock
      { effect.1 with tasks := TaskPool.settle world.tasks index effect.2 }
  | .finish id status error outcome manifestValid now =>
    some (finishLensnodeRun world id status error outcome manifestValid now)
  | .event id event now => some (recordLensnodeRunEvent world id event now)
  | .delegate parent row accepted => some (createDelegatedRun world parent row accepted)
  | .createRun row =>
    some { world with runs := world.runs.create (newRun row none) (newRun_id row none) }
  | .proceed id status startedAt lastActivityAt resumed =>
    if (world.runs.get? id).any (·.status.unfinished) && status.unfinished then
      some { world with
        runs := world.runs.update id (proceed status startedAt lastActivityAt resumed) }
    else none
  | .nodes nodes => some { world with nodes := nodes }

def World.initial : World Json := ⟨⟨[], 0, List.nodup_nil, by rintro _ ⟨⟩⟩, [], [], [], []⟩

end SourceLens.RunClosing
