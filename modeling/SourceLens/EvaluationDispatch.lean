import SourceLens.EvaluationBatch

/-! Several evaluation batches that share nodes: `dispatch_available_cases` inside the transactions
of their batches, finished cases and retries, statement by statement under read committed
isolation. The rows of the results exist. -/

namespace SourceLens.EvaluationDispatch

open EvaluationBatch (BatchStatus CaseId RunId TaskId)
open ReadCommitted Transition

abbrev NodeId := Nat
abbrev BatchId := Nat

/-- `usable`: in the evaluation pool, online, approved and not revoked. -/
structure Node where
  usable : Bool
  limit : Nat
  deriving DecidableEq

/-- An evaluation run; `writer` is the transaction that has inserted it and has not committed. -/
structure Run where
  id : RunId
  node : NodeId
  status : RunStatus.Status
  writer : Option TaskId
  deriving DecidableEq

/-- `named` records the source runs that the row has had since its last reset, and is no
column. -/
structure Result where
  sourceRun : Option RunId
  scored : Bool
  passed : Option Bool
  named : List RunId
  deriving DecidableEq

structure Batch where
  status : BatchStatus
  lock : Option TaskId
  deriving DecidableEq

inductive Job
  | start
  | advance
  | retry
  deriving DecidableEq

structure Visit where
  batch : BatchId
  starts : Bool
  deriving DecidableEq

inductive Phase
  | idle
  /-- `finalize_case_result`: the run, then the result of it, then `score_case_result`. -/
  | loading (run : RunId)
  | finding (run : RunId)
  | scoring (batch : BatchId) (case : CaseId) (run : RunId)
  | scored (batch : BatchId)
  | locking (job : Job) (batch : BatchId)
  /-- `_finalize_stale_results`. -/
  | sweeping (batch : BatchId)
  | rescoring (batch : BatchId) (todo : List (CaseId × RunId))
  /-- `dispatch_available_cases`. -/
  | resolving (visit : Visit)
  | lockingNode (visit : Visit) (node : NodeId)
  | counting (visit : Visit) (node : NodeId)
  | listing (visit : Visit) (node : NodeId) (remaining : Nat)
  | dispatching (visit : Visit) (node : NodeId) (remaining : Nat) (todo : List CaseId)
  | settling (visit : Visit)
  | resetting (batch : BatchId) (todo : List CaseId) (retried : Bool)
  | committing (batch : BatchId) (status : BatchStatus)
  | ended
  deriving DecidableEq

structure State where
  nodes : NodeId → Node
  nodeLocks : NodeId → Option TaskId
  batches : BatchId → Batch
  runs : List Run
  /-- How many runs have been created. -/
  drawn : Nat
  results : Rows (BatchId × CaseId) TaskId Result
  phases : TaskId → Phase

structure Env where
  cases : BatchId → List CaseId
  distinct : ∀ batch, (cases batch).Nodup

inductive Work
  | finalize (run : RunId)
  | batch (job : Job) (batch : BatchId)
  deriving DecidableEq

inductive Action
  | begin (task : TaskId) (work : Work)
  /-- A committed run that is not finished goes on, or ends. -/
  | progress (run : RunId) (status : RunStatus.Status)
  /-- The limit of a node is not lowered. -/
  | setNode (node : NodeId) (usable : Bool) (limit : Nat)
  | perform (task : TaskId)
  /-- The result whose source run has been loaded. -/
  | find (task : TaskId) (batch : BatchId) (case : CaseId)
  | score (task : TaskId) (passed : Option Bool)
  /-- The node that `_resolve_node` picks of those with free capacity. -/
  | resolve (task : TaskId) (node : Option NodeId)
  | dispatch (task : TaskId) (fails : Bool)
  /-- A statement raises and the transaction is rolled back. -/
  | abort (task : TaskId)
  deriving DecidableEq

section Reads

variable (state : State) (task : TaskId)

def seenRuns : List Run :=
  state.runs.filter fun run => run.writer = none || run.writer = some task

def sourceStatus (run : RunId) : Option RunStatus.Status :=
  ((seenRuns state task).find? fun row => row.id = run).map Run.status

/-- `evaluation_node_capacity`. -/
def evaluationNodeCapacity (node : NodeId) : Nat :=
  (state.nodes node).limit -
    (seenRuns state task).countP fun run => run.node = node && run.status.unfinished

def result (batch : BatchId) (case : CaseId) : Result := (state.results (batch, case)).seen task

def stale (batch : BatchId) (case : CaseId) : Option (CaseId × RunId) :=
  let row := result state task batch case
  row.sourceRun.bind fun run =>
    if !row.scored && (sourceStatus state task run).any RunStatus.Status.terminal then
      some (case, run)
    else none

end Reads

def Result.name (result : Result) (run : RunId) : Result :=
  { result with
    sourceRun := some run
    named := if run ∈ result.named then result.named else result.named ++ [run] }

/-- `score_case_result` of the run that was read. -/
def Result.score (run : RunId) (passed : Option Bool) (result : Result) : Result :=
  { result.name run with
    scored := true
    passed := passed }

def Result.reset : Result where
  sourceRun := none
  scored := false
  passed := none
  named := []

section Transactions

variable (state : State) (task : TaskId)

def setPhase (phase : Phase) : State :=
  { state with phases := Function.update state.phases task phase }

def release (phase : Phase) : State :=
  { setPhase state task phase with
    nodeLocks := fun node =>
      if state.nodeLocks node = some task then none else state.nodeLocks node
    batches := fun batch =>
      if (state.batches batch).lock = some task then { state.batches batch with lock := none }
      else state.batches batch }

def commit (phase : Phase) : State :=
  { release state task phase with
    runs := state.runs.map fun run =>
      if run.writer = some task then { run with writer := none } else run
    results := state.results.commit task }

def rollback : State :=
  { release state task .ended with
    runs := state.runs.filter fun run => run.writer ≠ some task
    results := state.results.rollback task }

def lockBatch (batch : BatchId) (phase : Phase) : State :=
  { setPhase state task phase with
    batches := Function.update state.batches batch
      { state.batches batch with lock := some task } }

def lockNode (node : NodeId) (phase : Phase) : State :=
  { setPhase state task phase with
    nodeLocks := Function.update state.nodeLocks node (some task) }

def writeResult (batch : BatchId) (case : CaseId) (change : Result → Result) (phase : Phase) :
    Option State :=
  if (state.results (batch, case)).Free task then
    some { setPhase state task phase with
      results := state.results.write (batch, case) task (change (result state task batch case)) }
  else none

/-- The run of a case is created on the node, and its result names it. -/
def dispatchCase (batch : BatchId) (node : NodeId) (case : CaseId) (phase : Phase) :
    Option State :=
  (writeResult state task batch case (fun row => row.name state.drawn) phase).map fun next =>
    { next with
      runs := state.runs ++ [⟨state.drawn, node, .queued, some task⟩]
      drawn := state.drawn + 1 }

end Transactions

section Steps

variable (env : Env) (state : State) (task : TaskId)

/-- The start of a transaction on a batch: an advance needs it active, a retry needs it ended. -/
def lockedPhase (job : Job) (batch : BatchId) : Phase :=
  let status := (state.batches batch).status
  let active : Bool := status = .queued || status = .running
  match job with
  | .start => if active then .resolving ⟨batch, true⟩ else .ended
  | .advance => if active then .sweeping batch else .ended
  | .retry =>
    if active || status = .paused then .ended
    else .resetting batch ((env.cases batch).filter fun case =>
      let row := result state task batch case
      row.passed ≠ some true && row.sourceRun.isSome) false

/-- A started batch is running; an advanced one is completed when no case is pending or active. -/
def settledStatus (visit : Visit) : BatchStatus :=
  if visit.starts then .running
  else if (env.cases visit.batch).all fun case =>
      (result state task visit.batch case).sourceRun.any fun run =>
        !((sourceStatus state task run).any RunStatus.Status.unfinished) then .completed
  else (state.batches visit.batch).status

/-- The next statement of a task where it needs nothing from outside; `none` where it waits. -/
def perform : Option State :=
  match state.phases task with
  | .loading run => some (setPhase state task
      (if (sourceStatus state task run).any RunStatus.Status.terminal then .finding run else .ended))
  | .scored batch => some (commit state task (.locking .advance batch))
  | .locking job batch =>
    if (state.batches batch).lock = none then
      match lockedPhase env state task job batch with
      | .ended => some (setPhase state task .ended)
      | phase => some (lockBatch state task batch phase)
    else none
  | .sweeping batch => some (setPhase state task
      (.rescoring batch ((env.cases batch).filterMap (stale state task batch))))
  | .rescoring batch [] => some (setPhase state task (.resolving ⟨batch, false⟩))
  | .lockingNode visit node =>
    if state.nodeLocks node = none then
      if (state.nodes node).usable then some (lockNode state task node (.counting visit node))
      else some (setPhase state task (.settling visit))
    else none
  | .counting visit node => some (setPhase state task
      (match evaluationNodeCapacity state task node with
        | 0 => .settling visit
        | remaining => .listing visit node remaining))
  | .listing visit node remaining => some (setPhase state task
      (.dispatching visit node remaining ((env.cases visit.batch).filter fun case =>
        (result state task visit.batch case).sourceRun.isNone)))
  | .dispatching visit _ remaining todo =>
    if remaining = 0 ∨ todo = [] then some (setPhase state task (.settling visit)) else none
  | .settling visit => some (setPhase state task
      (.committing visit.batch (settledStatus env state task visit)))
  | .resetting batch [] retried => some (setPhase state task
      (.committing batch (if retried then .queued else (state.batches batch).status)))
  | .resetting batch (case :: rest) _ =>
    writeResult state task batch case (fun _ => .reset) (.resetting batch rest true)
  | .committing batch status => some (commit { state with
      batches := Function.update state.batches batch
        { state.batches batch with status := status } } task .ended)
  | _ => none

def scoreCase (passed : Option Bool) : Option State :=
  match state.phases task with
  | .scoring batch case run =>
    writeResult state task batch case (Result.score run passed) (.scored batch)
  | .rescoring batch ((case, run) :: rest) =>
    writeResult state task batch case (Result.score run passed) (.rescoring batch rest)
  | _ => none

/-- A failed creation leaves nothing behind: it has its own savepoint. -/
def dispatchNext (fails : Bool) : Option State :=
  match state.phases task with
  | .dispatching visit node (remaining + 1) (case :: rest) =>
    if fails then some (setPhase state task (.dispatching visit node (remaining + 1) rest))
    else dispatchCase state task visit.batch node case (.dispatching visit node remaining rest)
  | _ => none

def resolveNode (node : Option NodeId) : Option State :=
  match state.phases task, node with
  | .resolving visit, none => some (setPhase state task (.settling visit))
  | .resolving visit, some node =>
    if 0 < evaluationNodeCapacity state task node then
      some (setPhase state task (.lockingNode visit node))
    else none
  | _, _ => none

def findResult (batch : BatchId) (case : CaseId) : Option State :=
  match state.phases task with
  | .finding run =>
    if (result state task batch case).sourceRun = some run then
      some (setPhase state task (.scoring batch case run))
    else none
  | _ => none

def begin (work : Work) : Option State :=
  match state.phases task, work with
  | .idle, .finalize run => some (setPhase state task (.loading run))
  | .idle, .batch job batch => some (setPhase state task (.locking job batch))
  | _, _ => none

end Steps

def progress (state : State) (id : RunId) (status : RunStatus.Status) : State :=
  { state with
    runs := state.runs.map fun run =>
      if run.id = id && run.writer = none && run.status.unfinished then
        { run with status := status }
      else run }

def setNode (state : State) (node : NodeId) (usable : Bool) (limit : Nat) : Option State :=
  if state.nodeLocks node = none ∧ (state.nodes node).limit ≤ limit then
    some { state with nodes := Function.update state.nodes node ⟨usable, limit⟩ }
  else none

def step (env : Env) (state : State) : Action → Option State
  | .begin task work => begin state task work
  | .progress run status => some (progress state run status)
  | .setNode node usable limit => setNode state node usable limit
  | .perform task => perform env state task
  | .find task batch case => findResult state task batch case
  | .score task passed => scoreCase state task passed
  | .resolve task node => resolveNode state task node
  | .dispatch task fails => dispatchNext state task fails
  | .abort task => some (rollback state task)

def start (nodes : NodeId → Node) : State where
  nodes := nodes
  nodeLocks := fun _ => none
  batches := fun _ => ⟨.queued, none⟩
  runs := []
  drawn := 0
  results := fun _ => ⟨.reset, none⟩
  phases := fun _ => .idle

structure Bounded (state : State) : Prop where
  capacity : ∀ node, (state.runs.countP fun run =>
    run.writer = none && (run.node = node && run.status.unfinished)) ≤ (state.nodes node).limit
  single : ∀ batch case, (state.results (batch, case)).committed.named.length ≤ 1

/-- A score is written to a result that still names the run it was computed from. -/
def Orderly (state : State) : Action → Prop
  | .score task _ =>
    match state.phases task with
    | .scoring batch case run => (result state task batch case).sourceRun = some run
    | .rescoring batch ((case, run) :: _) => (result state task batch case).sourceRun = some run
    | _ => True
  | _ => True

end SourceLens.EvaluationDispatch
