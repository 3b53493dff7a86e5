import SourceLens.Library.Transition

/-! One datasource upload: the control plane streams a stored file in acknowledged
chunks, the LensNode stages them in a part file and finalizes what is complete. -/

namespace SourceLens.UploadTransfer

open Transition

abbrev Text := List Char

abbrev Bytes := List UInt8

/-- The stored file and what the begin frame says about it; an empty file is refused
before anything is sent. -/
structure Upload where
  content : Bytes
  sha256 : Text
  filename : Text
  uploadVersion : Int
  chunkBytes : Nat
  chunkWindow : Nat
  nonempty : content ≠ []

def Upload.totalBytes (upload : Upload) : Nat := upload.content.length

theorem Upload.totalBytes_pos (upload : Upload) : 0 < upload.totalBytes :=
  List.length_pos_iff.mpr upload.nonempty

structure PartRecord where
  sha256 : Text
  totalBytes : Nat
  filename : Text
  uploadVersion : Int
  deriving DecidableEq, Repr

/-- The part file and its metadata file; a metadata file that cannot be read is none. -/
structure Staging where
  part : Option Bytes
  record : Option PartRecord
  deriving DecidableEq, Repr

def Staging.size (staging : Staging) : Nat := (staging.part.getD []).length

def Upload.partRecord (upload : Upload) : PartRecord :=
  ⟨upload.sha256, upload.totalBytes, upload.filename, upload.uploadVersion⟩

def resumable (upload : Upload) (staging : Staging) : Bool :=
  staging.part.isSome && staging.record.any fun previous =>
    previous.sha256 = upload.sha256 && previous.totalBytes = upload.totalBytes &&
      previous.filename = upload.filename

def resumeOffset (upload : Upload) (staging : Staging) : Nat :=
  if resumable upload staging then
    if 0 < upload.totalBytes ∧ upload.totalBytes < staging.size then 0 else staging.size
  else 0

/-- A thread of `asyncio.to_thread`: `prepare_managed_upload` up to `prepared` and
`duplicate`, `append_managed_upload_chunk` up to `appended`. -/
inductive Worker where
  | preparing
  | recording (offset : Nat)
  | rewriting (offset : Nat)
  | prepared (offset : Nat)
  | duplicate
  | appending (offset : Nat) (data : Bytes)
  | matched (offset : Nat) (data : Bytes)
  | appended (offset : Nat)
  | rejected
  | raised
  deriving DecidableEq, Repr

/-- What a thread meets: whether the index has the digest, and a failing file
operation, which may leave some of the data written. -/
inductive Event where
  | proceeds
  | findsDuplicate
  | fails (written : Nat)
  deriving DecidableEq, Repr

def workStep (upload : Upload) (staging : Staging) : Worker → Event → Option (Worker × Staging)
  | .preparing, .findsDuplicate => some (.duplicate, staging)
  | .preparing, .proceeds =>
    let offset := resumeOffset upload staging
    let kept := resumable upload staging && offset ≠ 0
    some (.recording offset, { staging with part := if kept then staging.part else some [] })
  -- `write_text` empties the metadata file before it writes it.
  | .recording offset, .proceeds => some (.rewriting offset, { staging with record := none })
  | .rewriting offset, .proceeds =>
    some (.prepared offset, { staging with record := some upload.partRecord })
  | .preparing, .fails _ | .recording _, .fails _ | .rewriting _, .fails _ =>
    some (.rejected, staging)
  | .appending offset data, .proceeds =>
    match staging.part with
    | none => some (.rejected, staging)
    | some bytes =>
      if offset ≠ bytes.length then some (.appended bytes.length, staging)
      else some (.matched offset data, staging)
  | .appending _ _, .fails _ => some (.raised, staging)
  | .matched offset data, .proceeds =>
    some (.appended (offset + data.length),
      { staging with part := some (staging.part.getD [] ++ data) })
  | .matched _ data, .fails written =>
    some (.raised, { staging with part := some (staging.part.getD [] ++ data.take written) })
  | _, _ => none

/-- `datasource_upload_transfers[task_id]`. -/
structure Transfer where
  finishing : Bool
  deriving DecidableEq, Repr

/-- The task under `datasource-upload:task_id`, before and after it enqueued its
`datasource_upload_done` frame. -/
inductive Finalization where
  | working
  | reported
  deriving DecidableEq, Repr

/-- `handler` is the thread the receive loop awaits, `orphans` are the threads whose
handler went with its connection, `reported` says that this process has enqueued a
`datasource_upload_done` frame. -/
structure Node where
  staging : Staging
  connected : Bool
  transfer : Option Transfer
  handler : Option Worker
  orphans : List Worker
  finalization : Option Finalization
  reported : Bool
  deriving DecidableEq, Repr

def Node.booted (staging : Staging) : Node where
  staging := staging
  connected := false
  transfer := none
  handler := none
  orphans := []
  finalization := none
  reported := false

inductive Command where
  | begin
  | chunk (offset : Nat) (data : Bytes)
  | cancel
  deriving DecidableEq, Repr

inductive Report where
  | ready (offset : Nat) (duplicate : Bool)
  | ack (offset : Nat)
  deriving DecidableEq, Repr

def finishUpload (node : Node) : Node :=
  { node with
    transfer := node.transfer.map fun _ => ⟨true⟩
    finalization := some (node.finalization.getD .working) }

/-- `_handle_message` up to the thread it awaits. -/
def handleCommand (node : Node) : Command → Node
  | .begin => { node with handler := some .preparing }
  | .chunk offset data =>
    if node.transfer = some ⟨false⟩ then { node with handler := some (.appending offset data) }
    else node
  | .cancel =>
    match node.transfer with
    | none => node
    | some _ => finishUpload { node with transfer := none }

/-- The handler after its thread. An exception that is no `DataSourceSyncError` ends the
receive loop, and with it the connection. -/
def resumeHandler (upload : Upload) (node : Node) : Worker → Option (Node × List Report)
  | .prepared offset =>
    some ({ node with handler := none, transfer := some ⟨false⟩ }, [.ready offset false])
  | .duplicate =>
    some ({ node with handler := none, reported := true }, [.ready upload.totalBytes true])
  | .appended offset =>
    let after := { node with handler := none }
    some (if 0 < upload.totalBytes ∧ upload.totalBytes ≤ offset then finishUpload after else after,
      [.ack offset])
  | .rejected => some (finishUpload { node with handler := none }, [])
  | _ => none

def dropConnection (node : Node) : Node :=
  { node with
    connected := false
    handler := none
    orphans := node.orphans ++ node.handler.toList }

/-- `takePart` is `upload_managed_workspace` moving the part into its staging
directory; `report` enqueues the result or the error. -/
inductive NodeAction where
  | connect
  | work (event : Event)
  | workOrphan (index : Nat) (event : Event)
  | resume
  | takePart
  | report
  | unlinkPart
  | unlinkRecord
  | close
  deriving DecidableEq, Repr

def nodeStep (upload : Upload) (node : Node) : NodeAction → Option (Node × List Report)
  | .connect => if node.connected then none else some ({ node with connected := true }, [])
  | .work event =>
    match node.handler with
    | none => none
    | some worker =>
      (workStep upload node.staging worker event).map fun result =>
        ({ node with handler := some result.1, staging := result.2 }, [])
  | .workOrphan index event =>
    match node.orphans[index]? with
    | none => none
    | some worker =>
      (workStep upload node.staging worker event).map fun result =>
        ({ node with orphans := node.orphans.set index result.1, staging := result.2 }, [])
  | .resume => node.handler.bind (resumeHandler upload node)
  | .takePart =>
    if node.finalization = some .working then
      some ({ node with staging := { node.staging with part := none } }, [])
    else none
  | .report =>
    if node.finalization = some .working then
      some ({ node with finalization := some .reported, reported := true }, [])
    else none
  | .unlinkPart =>
    if node.finalization = some .reported then
      some ({ node with staging := { node.staging with part := none } }, [])
    else none
  | .unlinkRecord =>
    if node.finalization = some .reported then
      some ({ node with staging := { node.staging with record := none } }, [])
    else none
  | .close =>
    if node.finalization = some .reported then
      some ({ node with finalization := none, transfer := none }, [])
    else none

/-- Where `datasource_upload_task` is: `streaming` is the head of the loop of
`_stream_datasource_upload`, `sending` its window, `awaiting` the wait for an
acknowledgement. -/
inductive Phase where
  | beginning
  | waiting
  | streaming (offset : Nat)
  | sending (sent : Nat) (left : Nat)
  | awaiting (target : Nat)
  | sent
  | ended
  deriving DecidableEq, Repr

structure Sender where
  phase : Phase
  ready : Option (Nat × Bool)
  ack : Option Nat
  deriving DecidableEq, Repr

inductive SenderAction where
  | restart
  | begin
  | retryBegin
  | takeReady
  | openWindow
  | sendChunk
  | closeWindow
  | takeAck
  | returnSent
  | interrupt
  | stop
  | requestCancel
  deriving DecidableEq, Repr

/-- `stream.read(min(chunk_size, total_bytes - sent))` at `sent`. -/
def readChunk (upload : Upload) (sent : Nat) : Bytes :=
  (upload.content.drop sent).take (min upload.chunkBytes (upload.totalBytes - sent))

def senderStep (upload : Upload) (sender : Sender) :
    SenderAction → Option (Sender × List Command)
  | .restart => some (⟨.beginning, none, none⟩, [])
  | .begin =>
    if sender.phase = .beginning then some ({ sender with phase := .waiting }, [.begin]) else none
  | .retryBegin =>
    if sender.phase = .waiting then some ({ sender with phase := .beginning }, []) else none
  | .takeReady =>
    match sender.phase, sender.ready with
    | .waiting, some (offset, duplicate) =>
      some (⟨if duplicate then .ended else .streaming offset, none, sender.ack⟩, [])
    | _, _ => none
  | .openWindow =>
    match sender.phase with
    | .streaming offset =>
      if offset < upload.totalBytes then
        some ({ sender with phase := .sending offset upload.chunkWindow }, [])
      else none
    | _ => none
  | .sendChunk =>
    match sender.phase with
    | .sending sent (left + 1) =>
      if upload.totalBytes ≤ sent ∨ readChunk upload sent = [] then none
      else some ({ sender with phase := .sending (sent + (readChunk upload sent).length) left },
        [.chunk sent (readChunk upload sent)])
    | _ => none
  | .closeWindow =>
    match sender.phase with
    | .sending sent left =>
      if left = 0 ∨ upload.totalBytes ≤ sent ∨ readChunk upload sent = [] then
        some ({ sender with phase := .awaiting sent }, [])
      else none
    | _ => none
  | .takeAck =>
    match sender.phase, sender.ack with
    | .awaiting target, some current =>
      if target ≤ current then some ({ sender with phase := .streaming current }, []) else none
    | _, _ => none
  | .returnSent =>
    match sender.phase with
    | .streaming offset =>
      if upload.totalBytes ≤ offset then some ({ sender with phase := .sent }, []) else none
    | _ => none
  -- A chunk that cannot be dispatched or is not acknowledged in time: the caller re-begins.
  | .interrupt =>
    match sender.phase with
    | .sending _ _ | .awaiting _ => some ({ sender with phase := .beginning }, [])
    | _ => none
  | .stop => some ({ sender with phase := .ended }, [])
  | .requestCancel => some (sender, [.cancel])

def storeReport (sender : Sender) : Report → Sender
  | .ready offset duplicate => { sender with ready := some (offset, duplicate) }
  | .ack offset => { sender with ack := some offset }

/-- `commands` are the frames on the connection to the node; `reports` are those in
the node's outbox or on their way to the cache. -/
structure System where
  sender : Sender
  node : Node
  commands : List Command
  reports : List Report
  deriving DecidableEq, Repr

def System.new : System where
  sender := ⟨.beginning, none, none⟩
  node := .booted ⟨none, none⟩
  commands := []
  reports := []

/-- A delivered report may be delivered again. A crash leaves the staged files and
those reports that were no longer in the process. -/
inductive Action where
  | control (action : SenderAction)
  | node (action : NodeAction)
  | receive
  | loseCommand
  | disconnect
  | deliver (report : Report)
  | lose (report : Report)
  | crash (survivors : List Report)
  deriving DecidableEq, Repr

def step (upload : Upload) (system : System) : Action → Option System
  | .control action =>
    (senderStep upload system.sender action).map fun result =>
      { system with sender := result.1, commands := system.commands ++ result.2 }
  | .node action =>
    (nodeStep upload system.node action).map fun result =>
      { system with node := result.1, reports := system.reports ++ result.2 }
  | .receive =>
    match system.commands with
    | [] => none
    | command :: rest =>
      if system.node.connected ∧ system.node.handler = none then
        some { system with node := handleCommand system.node command, commands := rest }
      else none
  | .loseCommand => some { system with commands := system.commands.tail }
  | .disconnect =>
    if system.node.connected then
      some { system with node := dropConnection system.node, commands := [] }
    else none
  | .deliver report =>
    if report ∈ system.reports then
      some { system with sender := storeReport system.sender report }
    else none
  | .lose report => some { system with reports := system.reports.erase report }
  | .crash survivors =>
    if survivors.Sublist system.reports then
      some { system with
        node := .booted system.node.staging
        commands := []
        reports := survivors }
    else none

/-- The running process finalizes the upload or has enqueued its
`datasource_upload_done` frame. -/
def Concluded (node : Node) : Prop := node.finalization.isSome = true ∨ node.reported = true

instance (node : Node) : Decidable (Concluded node) := inferInstanceAs (Decidable (_ ∨ _))

/-- The staged part is a prefix of the stored file, and `_stream_datasource_upload`
returns `"sent"` only to a process that concludes the upload. -/
structure Agrees (upload : Upload) (system : System) : Prop where
  staged : ∀ part, system.node.staging.part = some part → part <+: upload.content
  concluded : ∀ next, step upload system (.control .returnSent) = some next →
    Concluded system.node

/-- The report, if the sender reads it, makes it return `"sent"`. -/
def Report.final (upload : Upload) : Report → Bool
  | .ready offset duplicate => !duplicate && decide (upload.totalBytes ≤ offset)
  | .ack offset => decide (upload.totalBytes ≤ offset)

/-- The sender has read, or can read from the cache, that every byte is staged. -/
def Sender.confirmed (upload : Upload) (sender : Sender) : Bool :=
  sender.ready.any (fun ready => (Report.ready ready.1 ready.2).final upload) ||
    sender.ack.any (fun offset => (Report.ack offset).final upload) ||
    match sender.phase with
    | .streaming offset => decide (upload.totalBytes ≤ offset)
    | _ => false

/-- Word of the last byte has reached the sender or is among the reports. -/
def Confirmed (upload : Upload) (sender : Sender) (reports : List Report) : Prop :=
  sender.confirmed upload = true ∨ reports.any (Report.final upload) = true

instance (upload : Upload) (sender : Sender) (reports : List Report) :
    Decidable (Confirmed upload sender reports) := inferInstanceAs (Decidable (_ ∨ _))

def Unraced (staging : Staging) : Worker → Prop
  | .matched offset _ => staging.size = offset
  | _ => True

instance (staging : Staging) (worker : Worker) : Decidable (Unraced staging worker) := by
  cases worker <;> unfold Unraced <;> infer_instance

/-- No begin finds every byte staged in a process that does not conclude the upload, no
thread writes to a part that changed since its comparison, and no process ends while
word of the last byte is, or stays, under way. -/
def Orderly (upload : Upload) (system : System) : Action → Prop
  | .node (.work event) =>
    (system.node.handler = some .preparing → event = .proceeds →
      upload.totalBytes ≤ resumeOffset upload system.node.staging → Concluded system.node) ∧
    ∀ worker ∈ system.node.handler, Unraced system.node.staging worker
  | .node (.workOrphan index _) =>
    ∀ worker ∈ system.node.orphans[index]?, Unraced system.node.staging worker
  | .crash survivors => ¬ Confirmed upload system.sender survivors
  | _ => True

instance (upload : Upload) (system : System) (action : Action) :
    Decidable (Orderly upload system action) := by
  unfold Orderly
  split <;> infer_instance

end SourceLens.UploadTransfer
