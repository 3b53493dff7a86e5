import SourceLens.EvaluationScoring
import SourceLens.Library.ReadCommitted

/-! One batch of evaluation cases: the tasks that dispatch, score, complete, cancel, retry
and retain it, statement by statement under read committed isolation. -/

namespace SourceLens.EvaluationBatch

open EvaluationScoring ReadCommitted

abbrev CaseId := Nat
abbrev RunId := Nat
abbrev TaskId := Nat

variable {Number : Type}

/-- What scoring reads of a run: its row, its output message, and in `record` the rest (its
trace and citations, and the datasource paths known then). -/
structure Content where
  status : RunStatus.Status
  error : String
  output : String
  record : Json

structure Env (Number : Type) where
  cases : List CaseId
  arithmetic : Arithmetic Number
  /-- The metrics of the configuration snapshot. -/
  metrics : List (Metric Number)
  /-- `_evaluate_metric`. -/
  outcome : CaseId → Content → Metric Number → Outcome Number
  /-- The comparison of the output with the expected answer and facts. -/
  correctness : CaseId → Content → Option Bool

def Env.assess (env : Env Number) (case : CaseId) (content : Content) : Assessment Number :=
  evaluateCaseResult env.arithmetic env.metrics (env.outcome case content)
    (env.correctness case content)

inductive Event
  | dispatched (run : RunId)
  | scored (run : RunId)
  | reset
  deriving DecidableEq

/-- `EvaluationResult`; `record` stands for the citations and the trace summary, and
`history` is no column. -/
structure Result (Number : Type) where
  /-- The row was created. -/
  present : Bool
  sourceRun : Option RunId
  sourceRunUuid : Option RunId
  output : String
  record : Option Json
  scores : Scores Number
  passed : Option Bool
  issues : List Issue
  error : String
  history : List Event

def absent : Result Number where
  present := false
  sourceRun := none
  sourceRunUuid := none
  output := ""
  record := none
  scores := .empty
  passed := none
  issues := []
  error := ""
  history := []

/-- `EvaluationRun.Status`. -/
inductive BatchStatus
  | queued
  | running
  | paused
  | cancelled
  | failed
  | completed
  deriving DecidableEq

structure Batch (Number : Type) where
  status : BatchStatus
  completedCases : Nat
  passedCases : Nat
  failedCases : Nat
  aggregateScore : Option Number
  coverage : Option (Coverage Number)

inductive Job
  | start
  | advance
  | cancel
  | retry
  deriving DecidableEq

inductive Phase (Number : Type)
  | idle
  /-- `finalize_case_result`: the run, then the result of it, then `score_case_result`. -/
  | loading (run : RunId)
  | finding (run : RunId) (status : RunStatus.Status)
  | scoring (case : CaseId) (run : RunId)
  | freezing (case : CaseId) (run : RunId) (content : Content)
  | scored
  /-- A transaction on the batch takes its row first. -/
  | locking (job : Job)
  | seeding (draft : Batch Number)
  /-- `_finalize_stale_results`. -/
  | sweeping (draft : Batch Number)
  | rescoring (draft : Batch Number) (todo : List (CaseId × RunId))
  | refreezing (draft : Batch Number) (case : CaseId) (run : RunId) (content : Content)
      (todo : List (CaseId × RunId))
  /-- `dispatch_available_cases`, in a start or in an advance. -/
  | listing (draft : Batch Number) (job : Job)
  | dispatching (draft : Batch Number) (job : Job) (todo : List CaseId)
  /-- The three counts of `advance_evaluation_run`. -/
  | countingPending (draft : Batch Number)
  | countingActive (draft : Batch Number) (assigned : Bool)
  | counting (draft : Batch Number) (settled : Bool)
  | aggregating (draft : Batch Number)
  | resetting (draft : Batch Number) (todo : List CaseId) (retried : Bool)
  | cancelling (draft : Batch Number) (todo : List RunId)
  | committing (draft : Batch Number)
  /-- The retention task: what it has read of each result, then the deletion of the runs. -/
  | retaining (runs : List RunId)
  | keeping (runs : List RunId) (todo : List (CaseId × RunId × Content × Result Number))
  | deleting (runs : List RunId)
  | retained
  | ended

/-- `past` records what each run has held, and is no part of the database. -/
structure State (Number : Type) where
  batch : Batch Number
  lock : Option TaskId
  results : Rows CaseId TaskId (Result Number)
  runs : Rows RunId TaskId (Option Content)
  phases : TaskId → Phase Number
  past : List (RunId × Content)

def start : State Number where
  batch :=
    { status := .queued, completedCases := 0, passedCases := 0, failedCases := 0,
      aggregateScore := none, coverage := none }
  lock := none
  results := fun _ => ⟨absent, none⟩
  runs := fun _ => ⟨none, none⟩
  phases := fun _ => .idle
  past := []

inductive Work
  | finalize (run : RunId)
  | batch (job : Job)
  | retain (runs : List RunId)
  deriving DecidableEq

inductive Action
  | begin (task : TaskId) (work : Work)
  /-- A run that is not being written changes. -/
  | progress (run : RunId) (content : Content)
  | perform (task : TaskId)
  /-- The rows of the cases that exist are created. -/
  | seed (task : TaskId) (cases : List CaseId)
  /-- The next pending case gets a run, cannot be dispatched, or finds the node full. -/
  | dispatch (task : TaskId) (run : RunId)
  | fail (task : TaskId) (error : String)
  | full (task : TaskId)
  /-- A statement raises and the transaction is rolled back. -/
  | abort (task : TaskId)

/-- `freeze_run_result` and the rest of `score_case_result`. -/
def freeze (env : Env Number) (case : CaseId) (run : RunId) (content : Content)
    (result : Result Number) : Result Number :=
  let assessment := env.assess case content
  { result with
    sourceRun := some run
    sourceRunUuid := some run
    output := content.output
    record := some content.record
    scores := assessment.scores
    passed := assessment.passed
    issues := assessment.issues
    error := if content.status = .done then "" else content.error
    history := result.history ++ [.scored run] }

def assign (run : RunId) (result : Result Number) : Result Number :=
  { result with
    sourceRun := some run
    sourceRunUuid := some run
    history := result.history ++ [.dispatched run] }

/-- The reset of `retry_failed_cases`. -/
def reset (result : Result Number) : Result Number :=
  { result with
    sourceRun := none
    sourceRunUuid := none
    output := ""
    record := none
    scores := .empty
    passed := none
    issues := []
    error := ""
    history := result.history ++ [.reset] }

/-- `freeze_evaluation_results_for_runs` saves what it made of the row it had read. -/
def keep (run : RunId) (content : Content) (read result : Result Number) : Result Number :=
  { result with
    output := if read.output = "" then content.output else read.output
    record := some (read.record.getD content.record)
    sourceRunUuid := some (read.sourceRunUuid.getD run) }

def scored (result : Result Number) : Bool := !result.scores.entries.isEmpty

/-- `results.filter(source_run__isnull=True)`. -/
def pending (result : Result Number) : Bool := result.present && result.sourceRun.isNone

/-- `exclude(passed=True).exclude(source_run__isnull=True)`. -/
def retriable (result : Result Number) : Bool :=
  result.present && result.passed != some true && result.sourceRun.isSome

def result (state : State Number) (task : TaskId) (case : CaseId) : Result Number :=
  (state.results case).seen task

def run (state : State Number) (task : TaskId) (run : RunId) : Option Content :=
  (state.runs run).seen task

def sourceStatus (state : State Number) (task : TaskId) (case : CaseId) : Option RunStatus.Status :=
  (result state task case).sourceRun.bind fun source =>
    (run state task source).map fun content => content.status

def stale (state : State Number) (task : TaskId) (case : CaseId) : Option (CaseId × RunId) :=
  let row := result state task case
  if row.present && !scored row &&
      ((sourceStatus state task case).any fun status => status.terminal) then
    row.sourceRun.map fun source => (case, source)
  else none

def aggregate (env : Env Number) (draft : Batch Number) (results : List (Result Number)) :
    Batch Number :=
  let summary := aggregateResults env.arithmetic env.metrics
    (results.map fun result => (result.passed, result.scores))
  { draft with
    completedCases := results.countP scored
    passedCases := summary.passedCases
    failedCases := summary.failedCases
    aggregateScore := summary.aggregateScore
    coverage := some summary.coverage }

def rows (env : Env Number) (state : State Number) (task : TaskId) : List (Result Number) :=
  (env.cases.map (result state task)).filter fun result => result.present

def setPhase (state : State Number) (task : TaskId) (phase : Phase Number) : State Number :=
  { state with phases := Function.update state.phases task phase }

/-- The task's row lock on the batch, where it has one, is let go. -/
def unlock (state : State Number) (task : TaskId) : Option TaskId :=
  if state.lock = some task then none else state.lock

def rollback (state : State Number) (task : TaskId) : State Number :=
  { setPhase state task .ended with
    results := state.results.rollback task
    runs := state.runs.rollback task
    lock := unlock state task }

def Referential (env : Env Number) (results : Rows CaseId TaskId (Result Number))
    (runs : Rows RunId TaskId (Option Content)) : Prop :=
  ∀ case ∈ env.cases, ∀ source ∈ (results case).committed.sourceRun,
    (runs source).committed.isSome = true

instance (env : Env Number) (results : Rows CaseId TaskId (Result Number))
    (runs : Rows RunId TaskId (Option Content)) : Decidable (Referential env results runs) :=
  inferInstanceAs (Decidable (∀ case ∈ env.cases, ∀ source ∈ (results case).committed.sourceRun,
    (runs source).committed.isSome = true))

def commit (env : Env Number) (state : State Number) (task : TaskId) (batch : Batch Number)
    (phase : Phase Number) : State Number :=
  let results := state.results.commit task
  let runs := state.runs.commit task
  if Referential env results runs then
    { setPhase state task phase with
      batch := batch
      results := results
      runs := runs
      lock := unlock state task }
  else rollback state task

def writeResult (state : State Number) (task : TaskId) (case : CaseId)
    (change : Result Number → Result Number) : Option (State Number) :=
  if (state.results case).Free task then
    some { state with
      results := state.results.write case task (change (result state task case)) }
  else none

def writeRun (state : State Number) (task : TaskId) (run : RunId) (content : Content) :
    Option (State Number) :=
  if (state.runs run).Free task then
    some { state with
      runs := state.runs.write run task (some content)
      past := state.past ++ [(run, content)] }
  else none

/-- `get_or_create` for each case. -/
def createResults (state : State Number) (task : TaskId) (cases : List CaseId) : State Number :=
  { state with
    results := fun case =>
      if case ∈ cases then
        (state.results case).write task { result state task case with present := true }
      else state.results case }

def deleteRuns (env : Env Number) (state : State Number) (task : TaskId) (runs : List RunId) :
    State Number :=
  { setPhase state task .retained with
    results := fun case =>
      if case ∈ env.cases ∧ ∃ source ∈ runs, (result state task case).sourceRun = some source then
        (state.results case).write task { result state task case with sourceRun := none }
      else state.results case
    runs := fun source =>
      if source ∈ runs then (state.runs source).write task none else state.runs source }

def created : Content where
  status := .queued
  error := ""
  output := ""
  record := .null

def cancelled (content : Content) : Content :=
  { content with status := .cancelled, error := "EVALUATION_CANCELLED" }

def locked (env : Env Number) (state : State Number) (task : TaskId) (job : Job) : Phase Number :=
  let batch := state.batch
  let open' := batch.status = .queued ∨ batch.status = .running
  let empty := (rows env state task).isEmpty
  match job with
  | .start =>
    if open' then
      if empty then .seeding { batch with status := .running }
      else .listing { batch with status := .running } .start
    else .committing batch
  | .advance =>
    if open' then
      if batch.status = .queued ∧ empty then .seeding { batch with status := .running }
      else .sweeping batch
    else .committing batch
  | .cancel =>
    if batch.status = .completed ∨ batch.status = .cancelled then .committing batch
    else
      .cancelling { batch with status := .cancelled }
        (env.cases.filterMap fun case =>
          if (sourceStatus state task case).any fun status => status.unfinished then
            (result state task case).sourceRun
          else none)
  | .retry =>
    if batch.status = .queued ∨ batch.status = .running ∨ batch.status = .paused then
      .committing batch
    else
      .resetting batch (env.cases.filter fun case => retriable (result state task case)) false

def perform (env : Env Number) (state : State Number) (task : TaskId) :
    Phase Number → Option (State Number)
  | .loading source =>
    match run state task source with
    | none => some (setPhase state task .ended)
    | some content => some (setPhase state task (.finding source content.status))
  | .finding source status =>
    match env.cases.find? fun case => (result state task case).sourceRun = some source with
    | none => some (setPhase state task .ended)
    | some case =>
      if status.terminal then some (setPhase state task (.scoring case source))
      else some (setPhase state task .ended)
  | .scoring case source =>
    match run state task source with
    | none => some (rollback state task)
    | some content => some (setPhase state task (.freezing case source content))
  | .freezing case source content =>
    (writeResult state task case (freeze env case source content)).map fun next =>
      setPhase next task .scored
  | .scored => some (commit env state task state.batch (.locking .advance))
  | .locking job =>
    if state.lock = none then
      some { setPhase state task (locked env state task job) with lock := some task }
    else none
  | .sweeping draft =>
    some (setPhase state task (.rescoring draft (env.cases.filterMap (stale state task))))
  | .rescoring draft [] => some (setPhase state task (.listing draft .advance))
  | .rescoring draft ((case, source) :: todo) =>
    match run state task source with
    | none => some (rollback state task)
    | some content => some (setPhase state task (.refreezing draft case source content todo))
  | .refreezing draft case source content todo =>
    (writeResult state task case (freeze env case source content)).map fun next =>
      setPhase next task (.rescoring draft todo)
  | .listing draft job =>
    some (setPhase state task
      (.dispatching draft job (env.cases.filter fun case => pending (result state task case))))
  | .countingPending draft =>
    some (setPhase state task
      (.countingActive draft (env.cases.all fun case => !pending (result state task case))))
  | .countingActive draft assigned =>
    some (setPhase state task
      (.counting draft (assigned && env.cases.all fun case =>
        !((sourceStatus state task case).any fun status => status.unfinished))))
  | .counting draft settled =>
    if settled && (rows env state task).length == env.cases.length then
      some (setPhase state task (.aggregating draft))
    else some (setPhase state task (.committing draft))
  | .aggregating draft =>
    some (setPhase state task
      (.committing { aggregate env draft (rows env state task) with status := .completed }))
  | .resetting draft [] retried =>
    some (setPhase state task
      (.committing (if retried then { draft with status := .queued } else draft)))
  | .resetting draft (case :: todo) _ =>
    (writeResult state task case reset).map fun next =>
      setPhase next task (.resetting draft todo true)
  | .cancelling draft [] => some (setPhase state task (.committing draft))
  | .cancelling draft (source :: todo) =>
    match run state task source with
    | none => some (rollback state task)
    | some content =>
      (writeRun state task source (cancelled content)).map fun next =>
        setPhase next task (.cancelling draft todo)
  | .committing draft => some (commit env state task draft .ended)
  | .retaining runs =>
    some (setPhase state task (.keeping runs (env.cases.filterMap fun case =>
      (result state task case).sourceRun.bind fun source =>
        if source ∈ runs then
          (run state task source).map fun content =>
            (case, source, content, result state task case)
        else none)))
  | .keeping runs [] => some (setPhase state task (.deleting runs))
  | .keeping runs ((case, source, content, read) :: todo) =>
    (writeResult state task case (keep source content read)).map fun next =>
      setPhase next task (.keeping runs todo)
  | .deleting runs =>
    if (∀ source ∈ runs, (state.runs source).Free task) ∧
        ∀ case ∈ env.cases, (∃ source ∈ runs, (result state task case).sourceRun = some source) →
          (state.results case).Free task then
      some (deleteRuns env state task runs)
    else none
  | .retained => some (commit env state task state.batch .ended)
  | .idle | .seeding _ | .dispatching _ _ _ | .ended => none

def dispatched (draft : Batch Number) : Job → Phase Number
  | .start => .committing draft
  | _ => .countingPending draft

def opening : Work → Phase Number
  | .finalize run => .loading run
  | .batch job => .locking job
  | .retain runs => .retaining runs

def transacting : Phase Number → Bool
  | .idle | .loading _ | .finding _ _ | .locking _ | .ended => false
  | _ => true

def step (env : Env Number) (state : State Number) : Action → Option (State Number)
  | .begin task work =>
    match state.phases task with
    | .idle => some (setPhase state task (opening work))
    | _ => none
  | .progress source content =>
    if (state.runs source).committed.isSome ∧ (state.runs source).pending.isNone then
      some { state with
        runs := Function.update state.runs source ⟨some content, none⟩
        past := state.past ++ [(source, content)] }
    else none
  | .perform task => perform env state task (state.phases task)
  | .seed task cases =>
    match state.phases task with
    | .seeding draft =>
      if ∀ case ∈ cases, case ∈ env.cases ∧ (state.results case).Free task then
        some (setPhase (createResults state task cases) task (.listing draft .start))
      else none
    | _ => none
  | .dispatch task source =>
    match state.phases task with
    | .dispatching draft job (case :: todo) =>
      if (state.runs source).committed.isNone ∧ (state.runs source).pending.isNone ∧
          source ∉ state.past.map Prod.fst then
        (writeRun state task source created).bind fun next =>
          (writeResult next task case (assign source)).map fun next =>
            setPhase next task (.dispatching draft job todo)
      else none
    | _ => none
  | .fail task error =>
    match state.phases task with
    | .dispatching draft job (case :: todo) =>
      (writeResult state task case fun result => { result with error := error }).map fun next =>
        setPhase next task (.dispatching draft job todo)
    | _ => none
  | .full task =>
    match state.phases task with
    | .dispatching draft job _ => some (setPhase state task (dispatched draft job))
    | _ => none
  | .abort task =>
    if transacting (state.phases task) then some (rollback state task) else none

end SourceLens.EvaluationBatch
