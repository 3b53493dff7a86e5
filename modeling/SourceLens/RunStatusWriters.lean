import SourceLens.RunStatus

/-! The node, cleanup and evaluation writers of a Run's status, and the
interleaved steps of all the writers. -/

namespace SourceLens.RunStatus

/-! ### `fail_active_runs_for_lensnode` and `mark_active_runs_awaiting_resume` -/

def activeRunsOf (runs : RunTable) (lensnode : Nat) : List Run :=
  runs.select fun run => decide (run.lensnode = some lensnode) && run.status.active

def failActiveRunsForLensnode (runs : RunTable) (lensnode : Nat) (now : Int) : Option Task :=
  let ids := (activeRunsOf runs lensnode).map Run.id
  if ids = [] then none else some (.failActive ids now)

def failActive (runs : RunTable) (ids : List Nat) (now : Int) : RunTable :=
  runs.updateWhere (fun run => decide (run.id ∈ ids)) (change fun run =>
    { run with
      status := .failed
      error := "LENSNODE_DISCONNECTED"
      resumeBy := none
      finishedAt := some now })

def markActiveRunsAwaitingResume (nodes : List LensNode) (lensnode : Nat) : Task :=
  if (node? nodes (some lensnode)).any LensNode.supportsRunCheckpointResume then
    .markActive lensnode
  else .called (.failActiveRunsForLensnode lensnode)

def nextAwaiting (rows : List (Run × Option LensNode)) (now : Int) : Option Task :=
  match rows with
  | [] => none
  | (run, lensnode) :: rest => some (.markAwaiting run lensnode rest now)

def markActive (runs : RunTable) (nodes : List LensNode) (lensnode : Nat) (now : Int) :
    Option Task :=
  nextAwaiting ((activeRunsOf runs lensnode).map fun run => (run, node? nodes run.lensnode)) now

/-- The columns of an orphaned run: parked until its deadline, or failed once that
has passed. -/
def parkOrExpire (resumeBy now : Int) : Table.Change Run.id :=
  if resumeBy ≤ now then
    change fun run =>
      { run with
        status := .failed
        error := "LENSNODE_RESUME_EXPIRED"
        resumeBy := none
        finishedAt := some now }
  else change fun run => { run with status := .running, resumeBy := some resumeBy }

def markAwaiting (runs : RunTable) (settings : Settings) (run : Run)
    (lensnode : Option LensNode) (now : Int) : RunTable :=
  runs.updateWhere (fun row => decide (row.id = run.id) && row.status.active)
    (parkOrExpire (getRunResumeDeadline settings lensnode run now) now)

/-! ### `resume_awaiting_run` and `resume_awaiting_runs_for_lensnode` -/

def requeue (now : Int) : Table.Change Run.id :=
  change fun run =>
    { run with
      status := .queued
      resumeBy := none
      lastActivityAt := some now
      error := ""
      outcome := none
      execution := run.execution.map
        ({ · with status := .queued, checkpointReadyAt := none }) }

def redispatch (now : Int) : Table.Change Run.id :=
  change fun run => { run with status := .streaming, lastActivityAt := some now }

def rejectResume (now : Int) : Table.Change Run.id :=
  change fun run =>
    { run with
      status := .failed
      error := "LENSNODE_RESUME_UNSUPPORTED"
      resumeBy := none
      finishedAt := some now
      execution := run.execution.map ({ · with status := .failed }) }

/-- The part the two resume paths share, with the row locked: a run the node never
admitted goes back to the queue, one with a checkpoint is dispatched again.
`unsupported` is what a node without checkpoint resume leads to. -/
def resumeLocked (runs : RunTable) (run : Run) (lensnode : LensNode) (unsupported : RunTable)
    (now : Int) : RunTable :=
  match run.execution with
  | none => runs
  | some execution =>
    if execution.status = .queued ∨ execution.status = .dispatched then
      runs.update run.id (requeue now)
    else if execution.status ≠ .running then runs
    else if lensnode.supportsRunCheckpointResume = false then unsupported
    else if lensnode.supportsRunAdmissionCheckpoint = true ∧
        execution.checkpointReadyAt = none then runs
    else runs.update run.id (redispatch now)

def resumeAwaitingRun (runs : RunTable) (nodes : List LensNode) (id : Nat) (now : Int) :
    RunTable :=
  match runs.get? id with
  | none => runs
  | some run =>
    match node? nodes run.lensnode with
    | none => runs
    | some lensnode =>
      if lensnode.online && run.status.active && run.resumeBy.any (decide <| now < ·) then
        resumeLocked runs run lensnode runs now
      else runs

def resumeAwaitingRunsForLensnode (nodes : List LensNode) (lensnode : Nat)
    (reportedActive : List Nat) : Option Task :=
  (node? nodes (some lensnode)).map fun lensnode => .resumeReported lensnode reportedActive

def nextResume (lensnode : LensNode) (ids : List Nat) : Option Task :=
  match ids with
  | [] => none
  | run :: rest => some (.resumeNext lensnode run rest)

def resumeReported (runs : RunTable) (lensnode : LensNode) (reportedActive : List Nat)
    (now : Int) : Option Task :=
  let awaiting := runs.select fun run =>
    decide (run.lensnode = some lensnode.id) && run.resumeBy.any (decide <| now < ·) &&
      decide (run.id ∉ reportedActive) &&
      (decide (run.status = .running) ||
        decide (run.status = .streaming) &&
          run.lastActivityAt.all (decide <| · < lensnode.updatedAt))
  nextResume lensnode (awaiting.map Run.id)

/-- The transaction of one round; an exception in it rolls it back. -/
def resumeNext (runs : RunTable) (lensnode : LensNode) (id : Nat) (raised : Option String)
    (now : Int) : RunTable :=
  match raised, runs.get? id with
  | some _, _ => runs
  | none, none => runs
  | none, some run =>
    let claimedOnCurrentReport := decide (run.status = .streaming) &&
      run.lastActivityAt.all (decide <| lensnode.updatedAt ≤ ·)
    if decide (run.lensnode = some lensnode.id) && run.status.active &&
        !claimedOnCurrentReport && run.resumeBy.any (decide <| now < ·) then
      resumeLocked runs run lensnode (runs.update run.id (rejectResume now)) now
    else runs

/-! ### `confirm_reconcile_orphan` and `expire_awaiting_run` -/

def staleActivity (cutoff : Int) (run : Run) : Bool :=
  run.lastActivityAt.all (decide <| · ≤ cutoff)

def confirmReconcileOrphan (runs : RunTable) (nodes : List LensNode) (settings : Settings)
    (id : Nat) (now : Int) : Option Task :=
  let grace := max 1 (settings.reconcileConfirmGraceS.getD 10)
  let cutoff := now - seconds grace
  match runs.get? id with
  | none => none
  | some run =>
    if run.status.active && staleActivity cutoff run then
      some (.confirmUpdate run (node? nodes run.lensnode) cutoff now)
    else none

def confirmUpdate (runs : RunTable) (settings : Settings) (run : Run)
    (lensnode : Option LensNode) (cutoff now : Int) : Effect :=
  let resumeBy := getRunResumeDeadline settings lensnode run now
  let matching := fun row : Run =>
    decide (row.id = run.id) && row.status.active && staleActivity cutoff row
  (runs.updateWhere matching (parkOrExpire resumeBy now),
    if (runs.select matching).isEmpty || decide (resumeBy ≤ now) then none
    else some (.confirmOnline run.lensnode))

def confirmOnline (nodes : List LensNode) (lensnode : Option Nat) : Option Task :=
  match node? nodes lensnode with
  | none => none
  | some node =>
    if node.online then some (.called (.resumeAwaitingRunsForLensnode node.id [])) else none

def expireAwaitingRun (runs : RunTable) (id : Nat) (now : Int) : Option Task :=
  match runs.get? id with
  | none => none
  | some run =>
    if run.status.active && run.resumeBy.any (decide <| · ≤ now) then
      some (.expireUpdate id now)
    else none

def resumeExpired (now : Int) : Table.Change Run.id :=
  change fun run =>
    { run with
      status := .failed
      error := "LENSNODE_RESUME_EXPIRED"
      resumeBy := none
      finishedAt := some now }

def expireUpdate (runs : RunTable) (id : Nat) (now : Int) : RunTable :=
  runs.updateWhere
    (fun run => decide (run.id = id) && run.status.active && run.resumeBy.any (decide <| · ≤ now))
    (resumeExpired now)

/-! ### `lensnode_cleanup_task` -/

def staleRun (settings : Settings) (now : Int) (run : Run) : Bool :=
  let idleCutoff := now - seconds (settings.idleTimeoutS.getD 300)
  let absoluteTimeout := max 1 (settings.runAbsoluteTimeoutS.getD 14400)
  let snapshotTimeout := ((run.execution.bind RunExecution.runTimeoutS).getD 0 : Int)
  let startedAt := run.startedAt.getD run.createdAt
  let lastActivity := run.lastActivityAt.getD startedAt
  decide (lastActivity < idleCutoff) ||
    decide (startedAt < now - seconds (max absoluteTimeout snapshotTimeout))

def lensnodeCleanupTask (runs : RunTable) (settings : Settings) (now : Int) : Task :=
  let activeRuns := runs.select fun run => run.status.active && run.resumeBy.isNone
  .cleanupStale ((activeRuns.filter (staleRun settings now)).map Run.id) now

/-- The locked transaction: it locks the listed rows and updates them by primary
key, without a look at the status they have by then. -/
def cleanupStale (runs : RunTable) (ids : List Nat) (now : Int) : RunTable :=
  runs.updateWhere (fun run => decide (run.id ∈ ids)) (change fun run =>
    { run with status := .failed, error := "LENS_RUN_TIMEOUT", finishedAt := some now })

def cleanupExpired (runs : RunTable) (now : Int) : RunTable :=
  runs.updateWhere (fun run => run.status.active && run.resumeBy.any (decide <| · < now))
    (resumeExpired now)

/-! ### `_cancel_active_runs` of the evaluation engine -/

def nextCancel (ids : List Nat) (reason : String) (now : Int) : Option Task :=
  match ids with
  | [] => none
  | run :: rest => some (.cancelNext run rest reason now)

def cancelActiveRuns (runs : RunTable) (evaluation : Nat) (reason : String) (now : Int) :
    Option Task :=
  let active := runs.select fun run =>
    decide (run.evaluation = some evaluation) && run.status.unfinished
  nextCancel (active.map Run.id) reason now

def cancelNext (runs : RunTable) (id : Nat) (reason : String) (now : Int) : RunTable :=
  runs.update id (change fun run =>
    { run with status := .cancelled, error := reason, finishedAt := some now })

def Call.advance (runs : RunTable) (nodes : List LensNode) (inputs : Inputs) : Call → Effect
  | .executeAnswerRun run maxConcurrency dispatch =>
    (runs, RunStatus.executeAnswerRun runs run maxConcurrency dispatch)
  | .finishLensnodeRun run status error outcome manifestValid =>
    (RunStatus.finishLensnodeRun runs run status error outcome manifestValid inputs.now, none)
  | .failActiveRunsForLensnode lensnode =>
    (runs, RunStatus.failActiveRunsForLensnode runs lensnode inputs.now)
  | .markActiveRunsAwaitingResume lensnode =>
    (runs, some (RunStatus.markActiveRunsAwaitingResume nodes lensnode))
  | .resumeAwaitingRun run => (RunStatus.resumeAwaitingRun runs nodes run inputs.now, none)
  | .resumeAwaitingRunsForLensnode lensnode reportedActive =>
    (runs, RunStatus.resumeAwaitingRunsForLensnode nodes lensnode reportedActive)
  | .confirmReconcileOrphan run =>
    (runs, RunStatus.confirmReconcileOrphan runs nodes inputs.settings run inputs.now)
  | .expireAwaitingRun run => (runs, RunStatus.expireAwaitingRun runs run inputs.now)
  | .lensnodeCleanupTask =>
    (runs, some (RunStatus.lensnodeCleanupTask runs inputs.settings inputs.now))
  | .cancelDescendantRuns root => (runs, visitDescendants runs ⟨[root], []⟩)
  | .cancelActiveRuns evaluation reason =>
    (runs, RunStatus.cancelActiveRuns runs evaluation reason inputs.now)

def Task.advance (runs : RunTable) (nodes : List LensNode) (inputs : Inputs) : Task → Effect
  | .called call => call.advance runs nodes inputs
  | .executeCount run maxConcurrency dispatch =>
    (runs, RunStatus.executeCount runs run maxConcurrency dispatch)
  | .executePrepare run dispatch =>
    tryExecute runs run inputs.raised (RunStatus.executePrepare runs run dispatch)
  | .executeRunning run dispatch =>
    tryExecute runs run inputs.raised (RunStatus.executeRunning runs run dispatch inputs.now)
  | .executeGraph run dispatch =>
    tryExecute runs run inputs.raised (RunStatus.executeGraph runs run dispatch inputs.now)
  | .executeRefresh run dispatch =>
    tryExecute runs run inputs.raised (RunStatus.executeRefresh runs run dispatch)
  | .executeStreaming run =>
    tryExecute runs run inputs.raised (RunStatus.executeStreaming runs run)
  | .markRunFailed run error => (RunStatus.markRunFailed runs run error inputs.now, none)
  | .failActive ids now => (RunStatus.failActive runs ids now, none)
  | .markActive lensnode => (runs, RunStatus.markActive runs nodes lensnode inputs.now)
  | .markAwaiting run lensnode rest now =>
    (RunStatus.markAwaiting runs inputs.settings run lensnode now, nextAwaiting rest now)
  | .resumeReported lensnode reportedActive =>
    (runs, RunStatus.resumeReported runs lensnode reportedActive inputs.now)
  | .resumeNext lensnode run rest =>
    (RunStatus.resumeNext runs lensnode run inputs.raised inputs.now, nextResume lensnode rest)
  | .confirmUpdate run lensnode cutoff now =>
    RunStatus.confirmUpdate runs inputs.settings run lensnode cutoff now
  | .confirmOnline lensnode => (runs, RunStatus.confirmOnline nodes lensnode)
  | .expireUpdate run now => (RunStatus.expireUpdate runs run now, none)
  | .cleanupStale ids now => (RunStatus.cleanupStale runs ids now, some (.cleanupExpired now))
  | .cleanupExpired now => (RunStatus.cleanupExpired runs now, none)
  | .visitDescendants walk => (runs, RunStatus.visitDescendants runs walk)
  | .cancelDescendants ids => (RunStatus.cancelDescendants runs ids inputs.now, none)
  | .cancelNext run rest reason now =>
    (RunStatus.cancelNext runs run reason now, nextCancel rest reason now)

structure World where
  runs : RunTable
  nodes : List LensNode
  /-- The writers that have not returned yet. -/
  tasks : List Task

inductive Action
  | call (call : Call)
  /-- One step of a writer that has not returned. -/
  | advance (index : Nat) (inputs : Inputs)
  /-- A statement of other code, or one that follows a status write: any columns
  of a run but its status and primary key. -/
  | write (row : Run)
  | create (row : Run)
  | delete (ids : List Nat)
  | nodes (nodes : List LensNode)

def created (row : Run) (id : Nat) : Run := { row with id := id, status := .queued }

theorem created_id (row : Run) (id : Nat) : (created row id).id = id := rfl

def step (world : World) : Action → Option World
  | .call call => some { world with tasks := world.tasks ++ [.called call] }
  | .advance index inputs =>
    (world.tasks[index]?).map fun task =>
      let effect := task.advance world.runs world.nodes inputs
      { world with
        runs := effect.1
        tasks := match effect.2 with
          | none => world.tasks.eraseIdx index
          | some next => world.tasks.set index next }
  | .write row =>
    some { world with
      runs := world.runs.update row.id
        (change (fun stored => { row with id := stored.id, status := stored.status })) }
  | .create row =>
    some { world with runs := world.runs.create (created row) (created_id row) }
  | .delete ids =>
    some { world with runs := world.runs.deleteWhere fun run => decide (run.id ∈ ids) }
  | .nodes nodes => some { world with nodes := nodes }

end SourceLens.RunStatus
