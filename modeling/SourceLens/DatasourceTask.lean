import SourceLens.Library.TaskPool
import SourceLens.Library.Transition

/-! The stored row of one datasource task and its writers: progress events, completion callbacks
and the upload task. A statement outside a row lock is one step. -/

namespace SourceLens.DatasourceTask

open Transition

abbrev Text := List Char

inductive Status
  | pending
  | started
  | retry
  | cancelling
  | success
  | failure
  | revoked
  deriving DecidableEq, Repr

/-- `TaskStatus.get_completed_statuses`. -/
def Status.completed : Status → Bool
  | .success | .failure | .revoked => true
  | _ => false

/-- `_datasource_active_statuses`. -/
def Status.active : Status → Bool
  | .pending | .started | .retry | .cancelling => true
  | _ => false

inductive Module
  | sync
  | conversion
  | upload
  deriving DecidableEq, Repr

inductive StopState
  | absent
  | unconfirmed
  | confirmed
  deriving DecidableEq, Repr

/-- The row of `TaskExecution`; of its metadata what the writers look at. -/
structure Row where
  taskId : Text
  module : Module
  status : Status
  lensnode : Text
  connection : Text
  datasource : Text
  stopState : StopState
  summary : Bool
  deriving DecidableEq

/-- An update by task id that is not bound to the row its writer has read: the status read, the
status to store, and the entries of the metadata. -/
structure Write where
  read : Status
  status : Status
  lensnode : Option Text
  summary : Bool
  deriving DecidableEq

/-- `TaskTracker.update_task_status`. -/
def Write.apply (write : Write) (row : Row) : Row :=
  { row with
    status := write.status
    lensnode := write.lensnode.getD row.lensnode
    summary := row.summary || write.summary }

/-- A progress frame; `summary` tells whether it carries a conversion summary. -/
structure Event where
  step : Text
  status : Text
  summary : Bool
  deriving DecidableEq

/-- `_record_datasource_sync_event` up to its write. -/
def recordEvent (row : Row) (content : Event) (connection : Text) : Option Write :=
  if row.status.completed then none
  else if connection ≠ [] ∧ row.connection ≠ [] ∧ row.connection ≠ connection then none
  else
    let queued := content.step = "queue".toList ∧ content.status = "queued".toList
    some ⟨row.status, if queued then .pending else .started, none, content.summary⟩

/-- The result of a callback; `stoppedAtAware` tells whether its time has a time zone. -/
structure Result where
  status : Text
  taskId : Text
  datasource : Text
  summary : Bool
  executorStopped : Bool
  executorInstance : Text
  stopSource : Text
  stoppedAtAware : Bool
  deriving DecidableEq

/-- The status that a callback reports, in the three completions. -/
def Result.outcome (lower : Text → Text) (result : Result) : Status :=
  let value := lower result.status
  if value = "success".toList then .success
  else if value = "cancelled".toList then .revoked
  else .failure

section Completions

variable (lower : Text → Text)

/-- `complete_datasource_sync_task` up to its write. -/
def completeSync (row : Row) (result : Result) : Write :=
  ⟨row.status, if row.status.completed then row.status else result.outcome lower, none,
    result.summary⟩

/-- `complete_datasource_upload_task` up to its write. -/
def completeUpload (row : Row) (result : Result) (connection : Text) : Option Write :=
  if connection ≠ [] ∧ row.connection ≠ [] ∧ row.connection ≠ connection ∧
      row.status.completed = false then none
  else some ⟨row.status, if row.status.completed then row.status else result.outcome lower, none,
    false⟩

/-- `conversion_stop_evidence`: whether the callback confirms the stop. -/
def conversionStopEvidence (row : Row) (result : Result) (connection lensnode : Text) : Bool :=
  row.stopState ≠ .confirmed && result.executorStopped && connection ≠ [] && lensnode ≠ [] &&
    row.lensnode = lensnode && row.connection = connection && result.datasource = row.datasource &&
    result.executorInstance ≠ [] &&
    (result.stopSource = "lensnode_callback".toList ||
      result.stopSource = "lensnode_absent_fenced".toList) && result.stoppedAtAware

/-- `complete_datasource_conversion_task`, under the row lock; `owner` tells whether the node has
this connection. -/
def completeConversion (row : Row) (result : Result) (connection lensnode : Text)
    (owner stopOnly : Bool) : Row :=
  let completed := row.status.completed
  let moved : Bool := connection ≠ [] && row.connection ≠ [] && row.connection ≠ connection
  if row.module ≠ .conversion then row
  else if lensnode ≠ [] ∧ (row.lensnode ≠ lensnode ∨ connection = [] ∨ owner = false) then row
  else if moved = true ∧ ¬ (completed = true ∧ lensnode ≠ []) then row
  else if result.datasource ≠ [] ∧ result.datasource ≠ row.datasource then row
  else if result.taskId ≠ [] ∧ result.taskId ≠ row.taskId then row
  else
    let current : Row := if moved = true ∧ row.stopState ≠ .confirmed then
      { row with connection := connection } else row
    let stopped := conversionStopEvidence current result connection lensnode
    let stopState := if stopped then .confirmed
      else if current.stopState = .confirmed then .confirmed else .unconfirmed
    if stopOnly || completed then
      let fills := !stopOnly && result.summary && !row.summary
      if stopped || fills then
        { current with
          stopState := if stopped then .confirmed else current.stopState
          summary := current.summary || fills }
      else row
    else
      { current with
        status := result.outcome lower
        stopState := stopState
        summary := true }

end Completions

/-- Where `datasource_upload_task` stands; `update` is the second statement of
`_update_upload_task_metadata`, with the row it has read. -/
inductive Stage
  | start
  | lookup
  | lock
  | capacity
  | dispatched
  | bytes
  | transfer
  | stream
  | update (snapshot : Row) (target : Option (Text × Text))
  deriving DecidableEq

inductive Move
  | proceed (lensnode connection : Text)
  | progress
  | queue
  | fail
  | finish
  deriving DecidableEq

/-- `read` is the status that the task has found when it started. -/
structure Upload where
  read : Status
  stage : Stage
  deriving DecidableEq

/-- The writes that do not look at the row: a failure, or back to the queue. -/
def Upload.write? (upload : Upload) : Move → Option Write
  | .fail =>
    if upload.stage = .lookup ∨ upload.stage = .bytes ∨ upload.stage = .stream then
      some ⟨upload.read, .failure, none, false⟩
    else none
  | .queue =>
    if upload.stage = .lock ∨ upload.stage = .capacity ∨ upload.stage = .stream then
      some ⟨upload.read, .pending, none, false⟩
    else none
  | .proceed lensnode _ =>
    if upload.stage = .capacity then some ⟨upload.read, .pending, some lensnode, false⟩
    else if upload.stage = .dispatched then some ⟨upload.read, .pending, none, false⟩
    else none
  | _ => none

/-- Where the task goes on; `none` where it returns. -/
def Upload.next (upload : Upload) (row : Row) : Move → Option Upload
  | .proceed lensnode connection =>
    let goes (stage : Stage) : Option Upload := some { upload with stage := stage }
    match upload.stage with
    | .start => if row.status.completed then none else some ⟨row.status, .lookup⟩
    | .lookup => goes .lock
    | .lock => goes .capacity
    | .capacity => goes .dispatched
    | .dispatched => goes .bytes
    | .bytes => goes .transfer
    | .transfer =>
      if row.status.completed then none else goes (.update row (some (lensnode, connection)))
    | .update _ target => if target.isSome && !row.status.active then none else goes .stream
    | .stream => goes .stream
  | .progress =>
    if upload.stage = .stream then
      some { upload with stage := if row.status.completed then .stream else .update row none }
    else none
  | _ => none

/-- `UPDATE .. WHERE status IN active`: the metadata is the one that was read, with the new
entries. -/
def updateActive (row snapshot : Row) (target : Option (Text × Text)) : Row :=
  if row.status.active then
    let stored := { snapshot with status := row.status }
    match target with
    | none => stored
    | some (lensnode, connection) =>
      { stored with
        status := if snapshot.status = .started then row.status else .started
        lensnode := lensnode
        connection := connection }
  else row

inductive Writer
  | write (write : Write)
  | upload (upload : Upload)
  deriving DecidableEq

structure World where
  row : Row
  writers : List Writer
  deriving DecidableEq

def World.initial (row : Row) : World := ⟨row, []⟩

inductive Action
  | event (content : Event) (connection : Text)
  | syncDone (result : Result)
  | uploadDone (result : Result) (connection : Text)
  | conversionDone (result : Result) (connection lensnode : Text) (owner stopOnly : Bool)
  | upload
  | advance (index : Nat) (move : Move)
  deriving DecidableEq

/-- The update of the writer's next step that is not bound to the row. -/
def Writer.write? (writer : Writer) (move : Move) : Option Write :=
  match writer with
  | .write pending => some pending
  | .upload task => task.write? move

def Writer.store (writer : Writer) (move : Move) (row : Row) : Row :=
  match writer.write? move, writer with
  | some pending, _ => pending.apply row
  | none, .upload ⟨_, .update snapshot target⟩ => updateActive row snapshot target
  | none, _ => row

def Writer.next (writer : Writer) (move : Move) (row : Row) : Option Writer :=
  match writer with
  | .write _ => none
  | .upload task => (task.next row move).map .upload

def step (lower : Text → Text) (world : World) : Action → Option World
  | .event content connection => some { world with
      writers := world.writers ++ ((recordEvent world.row content connection).map .write).toList }
  | .syncDone result => some { world with
      writers := world.writers ++ [.write (completeSync lower world.row result)] }
  | .uploadDone result connection => some { world with
      writers := world.writers ++
        ((completeUpload lower world.row result connection).map .write).toList }
  | .conversionDone result connection lensnode owner stopOnly => some { world with
      row := completeConversion lower world.row result connection lensnode owner stopOnly }
  | .upload => some { world with writers := world.writers ++ [.upload ⟨world.row.status, .start⟩] }
  | .advance index move =>
    (world.writers[index]?).map fun writer =>
      ⟨writer.store move world.row,
        TaskPool.settle world.writers index (writer.next move world.row)⟩

/-- A write by task id finds a completed task as its writer has read it, or with the status that
the write carries itself. -/
def Orderly (world : World) : Action → Prop
  | .advance index move => ∀ writer ∈ world.writers[index]?, ∀ write ∈ writer.write? move,
      world.row.status.completed = true →
        world.row.status = write.read ∨ world.row.status = write.status
  | _ => True

end SourceLens.DatasourceTask
