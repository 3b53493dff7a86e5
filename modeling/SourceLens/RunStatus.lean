import Mathlib.Logic.Function.Iterate
import SourceLens.Library.Table
import SourceLens.Library.Transition

/-! The rows of `Run` and the writers that change their status (`services.py`,
`execution.py`, `tasks.py` and the evaluation engine). Each read and each write
of the database is a step of its own; a transaction that locks its Run rows with
`select_for_update` is one step. Times are microseconds. -/

namespace SourceLens.RunStatus

/-- `Run.Status`. -/
inductive Status
  | queued
  | running
  | streaming
  | awaitingUserInput
  | done
  | failed
  | cancelled
  deriving DecidableEq, Repr

namespace Status

/-- `TERMINAL_RUN_STATUSES`. -/
def terminal : Status → Bool
  | .awaitingUserInput | .done | .failed | .cancelled => true
  | _ => false

/-- `[RUNNING, STREAMING]`. -/
def active : Status → Bool
  | .running | .streaming => true
  | _ => false

/-- `[QUEUED, RUNNING, STREAMING]`. -/
def unfinished : Status → Bool
  | .queued | .running | .streaming => true
  | _ => false

end Status

/-- `RunExecution.Status`. -/
inductive ExecutionStatus
  | queued
  | dispatched
  | running
  | completed
  | failed
  | cancelled
  deriving DecidableEq, Repr

inductive Outcome
  | completed
  | partialAnswer
  | blocked
  deriving DecidableEq, Repr

structure RunExecution where
  status : ExecutionStatus
  runTimeoutS : Option Nat
  checkpointReadyAt : Option Int
  deriving DecidableEq, Repr

structure Run where
  id : Nat
  status : Status
  session : Nat
  assistant : Nat
  parentRun : Option Nat
  lensnode : Option Nat
  /-- The evaluation whose result names this run as its `source_run`. -/
  evaluation : Option Nat
  error : String
  outcome : Option Outcome
  startedAt : Option Int
  lastActivityAt : Option Int
  resumeBy : Option Int
  finishedAt : Option Int
  createdAt : Int
  execution : Option RunExecution
  deriving DecidableEq, Repr

structure LensNode where
  id : Nat
  online : Bool
  /-- The label `run_checkpoint_resume` is `True`. -/
  supportsRunCheckpointResume : Bool
  supportsRunAdmissionCheckpoint : Bool
  /-- The advertised checkpoint retention, where the label is a finite number. -/
  runCheckpointTtl : Option Int
  updatedAt : Int
  deriving DecidableEq, Repr

/-- The `GlobalSetting` rows the writers read; `none` where the row is missing or
is not an integer. -/
structure Settings where
  resumeTtlH : Option Int
  reconcileConfirmGraceS : Option Int
  idleTimeoutS : Option Int
  runAbsoluteTimeoutS : Option Int
  deriving DecidableEq, Repr

abbrev RunTable := Table Run Run.id

def change (set : Run → Run) (keeps : ∀ run, (set run).id = run.id := by intro run; rfl) :
    Table.Change Run.id := ⟨set, keeps⟩

def node? (nodes : List LensNode) (id : Option Nat) : Option LensNode :=
  nodes.find? fun node => decide (some node.id = id)

def seconds (count : Int) : Int := count * 1000000

def hours (count : Int) : Int := seconds (count * 3600)

/-- `get_awaiting_resume_ttl_hours`. -/
def getAwaitingResumeTtl (settings : Settings) (lensnode : Option LensNode) : Int :=
  let value := hours (settings.resumeTtlH.getD 24)
  let nodeTtl := (lensnode.bind LensNode.runCheckpointTtl).getD (hours 24)
  min (max (hours 1) value) (max (hours 1) nodeTtl)

/-- `get_run_resume_deadline`. -/
def getRunResumeDeadline (settings : Settings) (lensnode : Option LensNode) (run : Run)
    (now : Int) : Int :=
  let ttlDeadline := now + getAwaitingResumeTtl settings lensnode
  match run.startedAt, run.execution with
  | some startedAt, some execution =>
    let timeoutS := match execution.runTimeoutS with
      | some (timeout + 1) => timeout + 1
      | _ => 3600
    min ttlDeadline (startedAt + seconds timeoutS)
  | _, _ => ttlDeadline

/-- The calls of the writers, with the arguments they are made with. -/
inductive Call
  /-- `run` is the object its caller loaded, and may be stale. -/
  | executeAnswerRun (run : Run) (maxConcurrency : Nat) (dispatch : Bool)
  | finishLensnodeRun (run : Nat) (status : Status) (error : String) (outcome : Option Outcome)
      (manifestValid : Bool)
  | failActiveRunsForLensnode (lensnode : Nat)
  | markActiveRunsAwaitingResume (lensnode : Nat)
  | resumeAwaitingRun (run : Nat)
  | resumeAwaitingRunsForLensnode (lensnode : Nat) (reportedActive : List Nat)
  | confirmReconcileOrphan (run : Nat)
  | expireAwaitingRun (run : Nat)
  | lensnodeCleanupTask
  | cancelDescendantRuns (root : Nat)
  | cancelActiveRuns (evaluation : Nat) (reason : String)
  deriving DecidableEq, Repr

/-- The loop state of `cancel_descendant_runs`; `seen` holds what `descendants` does. -/
structure Walk where
  pending : List Nat
  descendants : List Nat
  deriving DecidableEq, Repr

/-- Where a writer stands between two of its steps, with what it has read. -/
inductive Task
  | called (call : Call)
  | executeCount (run : Run) (maxConcurrency : Nat) (dispatch : Bool)
  | executePrepare (run : Run) (dispatch : Bool)
  | executeRunning (run : Run) (dispatch : Bool)
  | executeGraph (run : Run) (dispatch : Bool)
  | executeRefresh (run : Run) (dispatch : Bool)
  | executeStreaming (run : Run)
  | markRunFailed (run : Run) (error : String)
  | failActive (ids : List Nat) (now : Int)
  | markActive (lensnode : Nat)
  | markAwaiting (run : Run) (lensnode : Option LensNode) (rest : List (Run × Option LensNode))
      (now : Int)
  | resumeReported (lensnode : LensNode) (reportedActive : List Nat)
  | resumeNext (lensnode : LensNode) (run : Nat) (rest : List Nat)
  | confirmUpdate (run : Run) (lensnode : Option LensNode) (cutoff now : Int)
  | confirmOnline (lensnode : Option Nat)
  | expireUpdate (run : Nat) (now : Int)
  | cleanupStale (ids : List Nat) (now : Int)
  | cleanupExpired (now : Int)
  | visitDescendants (walk : Walk)
  | cancelDescendants (ids : List Nat)
  | cancelNext (run : Nat) (rest : List Nat) (reason : String) (now : Int)
  deriving DecidableEq, Repr

/-- What a step takes from outside the tables: the clock, the settings, and the
exception that the code around the statement raises, if it does. -/
structure Inputs where
  now : Int
  settings : Settings
  raised : Option String

/-- The table after a step, and where the writer stands; `none` when it has returned. -/
abbrev Effect := RunTable × Option Task

/-! ### `cancel_descendant_runs` -/

def children (runs : RunTable) (parent : Nat) : List Nat :=
  (runs.select fun run =>
    decide (run.parentRun = some parent) && run.status.unfinished).map Run.id

/-- One round of the loop; `pending.pop()` takes the last entry. -/
def Walk.visit (runs : RunTable) (walk : Walk) : Walk :=
  match walk.pending.getLast? with
  | none => walk
  | some parent =>
    let fresh := (children runs parent).filter fun child =>
      decide (child ∉ walk.descendants)
    ⟨walk.pending.dropLast ++ fresh, walk.descendants ++ fresh⟩

/-- The whole loop inside one transaction. It visits the root and every row once
at most, so these rounds empty `pending`. -/
def descendantRuns (runs : RunTable) (root : Nat) : Walk :=
  (Walk.visit runs)^[runs.rows.length + 1] ⟨[root], []⟩

def cancelDescendants (runs : RunTable) (ids : List Nat) (now : Int) : RunTable :=
  runs.updateWhere (fun run => decide (run.id ∈ ids)) (change fun run =>
    { run with
      status := .cancelled
      resumeBy := none
      finishedAt := some now })

def cancelExecutions (runs : RunTable) (ids : List Nat) : RunTable :=
  runs.updateWhere (fun run => decide (run.id ∈ ids)) (change fun run =>
    { run with execution := run.execution.map ({ · with status := .cancelled }) })

def visitDescendants (runs : RunTable) (walk : Walk) : Option Task :=
  let walk := walk.visit runs
  if walk.pending ≠ [] then some (.visitDescendants walk)
  else if walk.descendants ≠ [] then some (.cancelDescendants walk.descendants)
  else none

/-! ### `finish_lensnode_run` -/

/-- `_finalize_delegated_children`: the sessions of the terminal children go, with
all their runs, once every run they own is terminal. -/
def finalizeDelegatedChildren (runs : RunTable) (run : Nat) : RunTable :=
  let sessions := (runs.select fun child =>
    decide (child.parentRun = some run) && child.status.terminal).map Run.session
  let reaped := sessions.filter fun session =>
    (runs.select fun other =>
      decide (other.session = session) && !other.status.terminal).isEmpty
  let deleted := (runs.select fun other => decide (other.session ∈ reaped)).map Run.id
  (runs.deleteWhere fun other => decide (other.session ∈ reaped)).updateWhere
    (fun other => other.parentRun.any fun parent => decide (parent ∈ deleted))
    (change fun other => { other with parentRun := none })

/-- The terminal columns of `finish_lensnode_run`. -/
def finished (run : Run) (status : Status) (error : String) (outcome : Option Outcome)
    (now : Int) : Run :=
  let closed := { run with resumeBy := none, finishedAt := some now }
  match status with
  | .awaitingUserInput =>
    { closed with
      status := .awaitingUserInput
      error := ""
      outcome := some (outcome.getD .blocked)
      execution := run.execution.map ({ · with status := .completed }) }
  | .done =>
    { closed with
      status := .done
      error := ""
      outcome := some (outcome.getD .completed)
      execution := run.execution.map ({ · with status := .completed }) }
  | _ =>
    { closed with
      status := .failed
      error := if error = "" then "LENS_RUN_FAILED" else error
      outcome := some (outcome.getD .blocked)
      execution := run.execution.map ({ · with status := .failed }) }

theorem finished_id (run : Run) (status : Status) (error : String) (outcome : Option Outcome)
    (now : Int) : (finished run status error outcome now).id = run.id := by
  cases status <;> rfl

def terminate (runs : RunTable) (run : Run) (status : Status) (error : String)
    (outcome : Option Outcome) (now : Int) : RunTable :=
  let runs := runs.update run.id (change (finished · status error outcome now)
    (finished_id · status error outcome now))
  let descendants := (descendantRuns runs run.id).descendants
  let runs := cancelExecutions (cancelDescendants runs descendants now) descendants
  if run.parentRun = none then finalizeDelegatedChildren runs run.id else runs

def busyRetryWindow : Int := seconds 120

/-- The locked transaction. `manifestValid` is false where `deliverable_uuids` does
not pass its checks: the exception rolls the transaction back. -/
def finishLensnodeRun (runs : RunTable) (id : Nat) (status : Status) (error : String)
    (outcome : Option Outcome) (manifestValid : Bool) (now : Int) : RunTable :=
  match runs.get? id with
  | none => runs
  | some run =>
    if run.status.terminal then runs
    else
      let retryableAdmissionError := decide (error = "LENSNODE_BUSY") ||
        decide (error = "LENSNODE_DRAINING") && run.resumeBy.isSome
      let requeue := decide (status = .failed) && retryableAdmissionError
      if requeue && run.resumeBy.isSome then
        runs.update id (change fun run =>
          { run with status := .running, error := "", outcome := none })
      else if requeue && decide (now - run.createdAt < busyRetryWindow) then
        runs.update id (change fun run =>
          { run with status := .queued, error := "", outcome := none })
      else if manifestValid then terminate runs run status error outcome now
      else runs

/-! ### `execute_answer_run` -/

/-- `run.refresh_from_db(fields=["status"])` and the first return. -/
def executeAnswerRun (runs : RunTable) (run : Run) (maxConcurrency : Nat) (dispatch : Bool) :
    Option Task :=
  match runs.get? run.id with
  | none => none
  | some stored =>
    if stored.status ≠ .queued then none
    else if 0 < maxConcurrency then some (.executeCount run maxConcurrency dispatch)
    else some (.executePrepare run dispatch)

def executeCount (runs : RunTable) (run : Run) (maxConcurrency : Nat) (dispatch : Bool) :
    Option Task :=
  let activeCount := (runs.select fun other =>
    decide (other.assistant = run.assistant) && other.status.active &&
      decide (other.id ≠ run.id)).length
  if maxConcurrency ≤ activeCount then none else some (.executePrepare run dispatch)

/-- The `try` statement: an exception leads to `_mark_run_failed`. -/
def tryExecute (runs : RunTable) (run : Run) (raised : Option String)
    (body : Except String Effect) : Effect :=
  match raised, body with
  | some error, _ => (runs, some (.markRunFailed run error))
  | none, .error error => (runs, some (.markRunFailed run error))
  | none, .ok effect => effect

def stored (runs : RunTable) (id : Nat) : Except String Run :=
  match runs.get? id with
  | none => .error "Run matching query does not exist."
  | some run => .ok run

/-- `run.save(update_fields=..)`: an update by primary key, whatever is stored. -/
def save (runs : RunTable) (id : Nat) (change : Table.Change Run.id) : Except String RunTable :=
  match runs.get? id with
  | none => .error "Save with update_fields did not affect any rows."
  | some _ => .ok (runs.update id change)

/-- The locked section of `prepare_run_datasources`; its exceptions are `raised`. -/
def executePrepare (runs : RunTable) (run : Run) (dispatch : Bool) : Except String Effect := do
  let locked ← stored runs run.id
  return (runs, if locked.status = .queued then some (.executeRunning run dispatch) else none)

/-- The columns of the first save; `run` is the object as its caller loaded it. -/
def startRunning (run : Run) (now : Int) : Table.Change Run.id :=
  change fun row =>
    { row with
      status := .running
      startedAt := some (run.startedAt.getD now)
      lastActivityAt := some now }

def executeRunning (runs : RunTable) (run : Run) (dispatch : Bool) (now : Int) :
    Except String Effect := do
  let saved ← save runs run.id (startRunning run now)
  return (saved, some (.executeGraph run dispatch))

/-- `graph.invoke`: the inline graph ends with `finish_lensnode_run`. -/
def executeGraph (runs : RunTable) (run : Run) (dispatch : Bool) (now : Int) :
    Except String Effect :=
  let runs := if dispatch then runs else finishLensnodeRun runs run.id .done "" none true now
  .ok (runs, some (.executeRefresh run dispatch))

def executeRefresh (runs : RunTable) (run : Run) (dispatch : Bool) : Except String Effect := do
  let refreshed ← stored runs run.id
  return (runs, if dispatch && !refreshed.status.terminal then some (.executeStreaming run)
    else none)

def startStreaming : Table.Change Run.id :=
  change fun row => { row with status := .streaming }

def executeStreaming (runs : RunTable) (run : Run) : Except String Effect := do
  let saved ← save runs run.id startStreaming
  return (saved, none)

/-- The save of `_mark_run_failed`. -/
def markRunFailed (runs : RunTable) (run : Run) (error : String) (now : Int) : RunTable :=
  runs.update run.id (change fun row =>
    { row with status := .failed, error := error, finishedAt := some now })

end SourceLens.RunStatus
