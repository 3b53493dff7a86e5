import SourceLens.Library.TaskPool
import SourceLens.RunStatus

/-! The answer of a run (`append_lensnode_output`, `finish_lensnode_run`): output frames
read the message row and write it back in later statements, without a lock. -/

namespace SourceLens.RunOutput

open RunStatus (Run Status Outcome)

variable {Json : Type}

/-- `sanitize_run_citations` and `sanitize_planned_evidence`. -/
structure Sanitizers (Json : Type) where
  citations : Json → Json
  plannedEvidence : Json → Json

/-- A `run_output` frame. -/
structure Frame (Json : Type) where
  contentDelta : String
  finalContent : Option String
  reset : Bool
  citations : Option Json
  plannedEvidence : Option Json
  deriving DecidableEq

/-- The run with its output message; `outputMessage` is `none` where it has none. -/
structure Row (Json : Type) where
  run : Run
  outputMessage : Option String
  citations : Json
  plannedEvidence : Json
  deriving DecidableEq

structure Answer (Json : Type) where
  content : Option String
  citations : Json
  plannedEvidence : Json
  deriving DecidableEq

def Row.answer (row : Row Json) : Answer Json :=
  ⟨row.outputMessage, row.citations, row.plannedEvidence⟩

/-! ### `append_lensnode_output` -/

/-- The content after a frame. An empty final content changes nothing. -/
def Frame.content (frame : Frame Json) (stored : String) : String :=
  match frame.finalContent with
  | some final => if final = "" then stored else final
  | none => if frame.reset then frame.contentDelta else stored ++ frame.contentDelta

def Frame.replaces (frame : Frame Json) : Bool :=
  match frame.finalContent with
  | some final => decide (final ≠ "")
  | none => frame.reset

/-- Where a call stands; `contentSave` has read the content, and the run as unfinished. -/
inductive Task (Json : Type)
  | called (frame : Frame Json)
  | contentSave (frame : Frame Json) (read : String)
  | resultSave (frame : Frame Json)
  deriving DecidableEq

def readRun (row : Row Json) (frame : Frame Json) : Option (Task Json) :=
  if row.run.status.terminal then none
  else row.outputMessage.map (.contentSave frame)

/-- `run.output_message.save(update_fields=["content", "run"])`. -/
def contentSave (row : Row Json) (frame : Frame Json) (read : String) : Row Json :=
  { row with outputMessage := row.outputMessage.map fun _ => frame.content read }

def afterContent (frame : Frame Json) : Option (Task Json) :=
  if frame.citations.isSome || frame.plannedEvidence.isSome then some (.resultSave frame) else none

/-- `run.save(update_fields=run_update_fields)`. -/
def resultSave (sanitize : Sanitizers Json) (row : Row Json)
    (citations plannedEvidence : Option Json) : Row Json :=
  { row with
    citations := (citations.map sanitize.citations).getD row.citations
    plannedEvidence := (plannedEvidence.map sanitize.plannedEvidence).getD row.plannedEvidence }

/-! ### `finish_lensnode_run` -/

structure RunDone (Json : Type) where
  status : Status
  error : String
  outcome : Option Outcome
  finalContent : Option String
  citations : Option Json
  plannedEvidence : Option Json
  /-- The deliverables pass their checks. -/
  manifestValid : Bool

def terminate (sanitize : Sanitizers Json) (row : Row Json) (done : RunDone Json) (now : Int) :
    Row Json :=
  let content := match done.finalContent with
    | some final => if final = "" then row.outputMessage else row.outputMessage.map fun _ => final
    | none => row.outputMessage
  resultSave sanitize
    { row with
      run := RunStatus.finished row.run done.status done.error done.outcome now
      outputMessage := content }
    done.citations done.plannedEvidence

def finishLensnodeRun (sanitize : Sanitizers Json) (row : Row Json) (done : RunDone Json)
    (now : Int) : Row Json :=
  if row.run.status.terminal then row
  else
    let retryableAdmissionError := decide (done.error = "LENSNODE_BUSY") ||
      decide (done.error = "LENSNODE_DRAINING") && row.run.resumeBy.isSome
    let requeue := decide (done.status = .failed) && retryableAdmissionError
    if requeue && row.run.resumeBy.isSome then
      { row with run := { row.run with status := .running, error := "", outcome := none } }
    else if requeue && decide (now - row.run.createdAt < RunStatus.busyRetryWindow) then
      { row with run := { row.run with status := .queued, error := "", outcome := none } }
    else if done.manifestValid then terminate sanitize row done now
    else row

structure World (Json : Type) where
  row : Row Json
  tasks : List (Task Json)
  /-- The frames that have arrived, in order. -/
  delivered : List (Frame Json)
  /-- The frames whose content has been saved, in the order of the saves. -/
  handled : List (Frame Json)
  /-- What `finish_lensnode_run` has committed with the terminal status. -/
  sealed : Option (Answer Json)

inductive Action (Json : Type)
  | deliver (frame : Frame Json)
  | advance (index : Nat)
  | finish (done : RunDone Json) (now : Int)
  /-- Another writer moves the run between two unfinished statuses. -/
  | status (status : Status)

def finish (sanitize : Sanitizers Json) (world : World Json) (done : RunDone Json) (now : Int) :
    World Json :=
  let row := finishLensnodeRun sanitize world.row done now
  { world with
    row := row
    sealed := if row.run.status.terminal then some (world.sealed.getD row.answer)
      else world.sealed }

def advance (sanitize : Sanitizers Json) (world : World Json) (index : Nat) :
    Task Json → World Json
  | .called frame =>
    { world with tasks := TaskPool.settle world.tasks index (readRun world.row frame) }
  | .contentSave frame read =>
    { world with
      row := contentSave world.row frame read
      tasks := TaskPool.settle world.tasks index (afterContent frame)
      handled := world.handled ++ [frame] }
  | .resultSave frame =>
    { world with
      row := resultSave sanitize world.row frame.citations frame.plannedEvidence
      tasks := TaskPool.settle world.tasks index none }

def setStatus (row : Row Json) (status : Status) : Row Json :=
  { row with run := { row.run with status := status } }

def step (sanitize : Sanitizers Json) (world : World Json) : Action Json → Option (World Json)
  | .deliver frame =>
    some { world with
      tasks := world.tasks ++ [.called frame]
      delivered := world.delivered ++ [frame] }
  | .advance index => (world.tasks[index]?).map (advance sanitize world index)
  | .finish done now => some (finish sanitize world done now)
  | .status status =>
    if world.row.run.status.terminal || status.terminal then none
    else some { world with row := setStatus world.row status }

def opened (row : Row Json) : World Json := ⟨row, [], [], [], none⟩

def written (initial : String) (frames : List (Frame Json)) : String :=
  frames.foldl (fun content frame => frame.content content) initial

def unsaved (tasks : List (Task Json)) : List (Frame Json) :=
  tasks.filterMap fun
    | .called frame => some frame
    | .contentSave frame _ => some frame
    | .resultSave _ => none

end SourceLens.RunOutput
