import SourceLens.RunStatusRuns

/-! The concurrency cap of an assistant (`execute_answer_run`): the active runs are
counted in one statement and the run is saved as RUNNING in a later one. -/

namespace SourceLens.AssistantConcurrency

open Transition RunStatus

def activeRuns (runs : RunTable) (assistant : Nat) : List Run :=
  runs.select fun run => decide (run.assistant = assistant) && run.status.active

/-- The run of a task that has passed the cap and has not saved RUNNING yet. -/
def admitted : Task → Option Nat
  | .executePrepare run _ => some run.id
  | .executeRunning run _ => some run.id
  | _ => none

/-- The run of a task that has not passed the cap yet, as its caller loaded it, and
the cap. -/
def asking : Task → Option (Run × Nat)
  | .called (.executeAnswerRun run maxConcurrency _) => some (run, maxConcurrency)
  | .executeCount run maxConcurrency _ => some (run, maxConcurrency)
  | _ => none

def onTheWay (tasks : List Task) : List Nat := tasks.filterMap admitted

/-- The runs of the assistant that are active or on the way to it. -/
def occupied (world : World) (assistant : Nat) : List Nat :=
  (world.runs.select fun run => decide (run.assistant = assistant) &&
    (run.status.active || decide (run.id ∈ onTheWay world.tasks))).map Run.id

/-- The count of `execute_answer_run`. -/
def activeCount (runs : RunTable) (run : Run) : Nat :=
  (runs.select fun other => decide (other.assistant = run.assistant) && other.status.active &&
    decide (other.id ≠ run.id)).length

def othersOccupied (world : World) (assistant run : Nat) : List Nat :=
  (occupied world assistant).filter fun id => decide (id ≠ run)

/-- A count below the cap is below it with the runs on the way as well. -/
def CountCurrent (world : World) (run : Run) (maxConcurrency : Nat) : Prop :=
  activeCount world.runs run < maxConcurrency →
    (othersOccupied world run.assistant run.id).length < maxConcurrency

def StillActive (runs : RunTable) (run : Nat) : Prop :=
  ∀ row ∈ runs.get? run, row.status.active = true

/-- Between two steps of the task, none of the others disturbs it. -/
def TaskCurrent (world : World) (assistant : Nat) (inputs : Inputs) : Task → Prop
  | .executeCount run maxConcurrency _ =>
    run.assistant = assistant → CountCurrent world run maxConcurrency
  | .executeStreaming run => inputs.raised = none → StillActive world.runs run.id
  | _ => True

/-- A task is called with a stored run, and with the cap of the assistant where the run
is one of its runs. -/
def CalledFor (runs : RunTable) (assistant maxConcurrency : Nat) : Call → Prop
  | .executeAnswerRun run cap _ =>
    (∃ row ∈ runs.get? run.id, row.assistant = run.assistant) ∧
      (run.assistant = assistant → cap = maxConcurrency)
  | _ => True

def Idle (run : Run) : Prop := run.status = .queued → run.resumeBy = none

/-- What is asked of the steps of a run: of the tasks that they are current, of a call
that it is about a run and its assistant, and of statements of other code that they
leave a run with its assistant and write no resume deadline on a queued run. -/
def Current (assistant maxConcurrency : Nat) (world : World) : Action → Prop
  | .call call => CalledFor world.runs assistant maxConcurrency call
  | .advance index inputs => ∀ task ∈ world.tasks[index]?, TaskCurrent world assistant inputs task
  | .write row =>
    ∀ stored ∈ world.runs.get? row.id, row.assistant = stored.assistant ∧
      (stored.status = .queued → row.resumeBy = none)
  | .create row => row.resumeBy = none
  | _ => True

end SourceLens.AssistantConcurrency
