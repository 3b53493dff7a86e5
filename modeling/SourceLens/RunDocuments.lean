import SourceLens.DocumentAttachment
import SourceLens.Library.Transition

/-! Documents bound to the runs of one session: the transactions that bind them, and what
the dispatch and the download of a run find in the cache. -/

namespace SourceLens.RunDocuments

open ExpiringCache DocumentAttachment

/-- One call of `create_execution_run`; the run it creates carries its number. -/
structure Call where
  /-- The node the run is assigned to. -/
  lensnode : NodeId
  /-- The documents selected for the run, each with its order. -/
  documents : List (DocumentId × Nat)

structure Env where
  session : SessionId
  call : RunId → Call
  /-- `_attachment_ttl_seconds`, in microseconds. -/
  ttl : Nat

structure RunRow where
  lensnode : NodeId
  finished : Bool
  deriving DecidableEq

/-- A call holds the lock of the session from its begin to its end. -/
inductive Phase
  | idle
  /-- In `bind_document_attachments_to_run`, with what is still to be read. -/
  | reading (documents : List (DocumentId × Nat)) (candidates : List Metadata)
  | bound
  | ended
  deriving DecidableEq

/-- `files` holds the modification time of each stored file, `runs` the committed rows.
`stored`, `deleted` and `bindings` record what has happened: the expiry every document was
stored with, the deletions that took place, and what each run was bound to. -/
structure State where
  now : Nat
  metadata : Cache DocumentId Metadata
  runIndex : Cache RunId (List DocumentId)
  files : DocumentId → Option Nat
  lock : Option RunId
  phase : RunId → Phase
  runs : RunId → Option RunRow
  stored : DocumentId → Option Nat
  deleted : List DocumentId
  bindings : RunId → List DocumentId

def start : State where
  now := 0
  metadata := empty
  runIndex := empty
  files := fun _ => none
  lock := none
  phase := fun _ => .idle
  runs := fun _ => none
  stored := fun _ => none
  deleted := []
  bindings := fun _ => []

inductive Action
  | tick (duration : Nat)
  /-- A document of the session is stored, some time after its `created_at`. -/
  | store (document : DocumentId) (uploader : UserId) (quotaSlot elapsed : Nat)
  | deleteFile (document : DocumentId)
  | deleteMetadata (document : DocumentId)
  /-- `cleanup_expired_document_files` reaches a file. -/
  | cleanup (document : DocumentId)
  | begin (run : RunId)
  /-- One `get_document_attachment` of the binding. -/
  | read (run : RunId)
  /-- Its `cache.set_many`. -/
  | bind (run : RunId)
  | commit (run : RunId)
  /-- The call raises and its transaction is rolled back. -/
  | raise (run : RunId)
  | finish (run : RunId)
  deriving DecidableEq

def moveTo (state : State) (run : RunId) (phase : Phase) : State :=
  { state with phase := Function.update state.phase run phase }

def storeDocument (env : Env) (state : State) (document : DocumentId) (uploader : UserId)
    (quotaSlot elapsed : Nat) : State :=
  let expiresAt := state.now - elapsed + env.ttl
  let metadata : Metadata :=
    { uuid := document, sessionUuid := env.session, uploadedById := uploader, runUuid := none,
      runUuids := [], lensnodeUuid := none, order := 0, quotaSlot := quotaSlot,
      expiresAt := expiresAt }
  { state with
    metadata := set state.metadata document metadata
      (state.now + secondsLeft expiresAt state.now * second)
    files := Function.update state.files document (some state.now)
    stored := Function.update state.stored document (some expiresAt) }

/-- Where one document is missing or belongs elsewhere, nothing is bound. -/
def read (env : Env) (state : State) (run : RunId) (document : DocumentId) (order : Nat)
    (rest : List (DocumentId × Nat)) (candidates : List Metadata) : State :=
  let dropped := { state with metadata := dropExpired state.metadata state.now document }
  match getDocumentAttachment state.metadata state.now document with
  | none => moveTo dropped run .bound
  | some metadata =>
    if metadata.sessionUuid ≠ env.session then moveTo dropped run .bound
    else
      moveTo dropped run
        (.reading rest
          (candidates ++ [bindTo run (env.call run).lensnode order metadata]))

def bind (state : State) (run : RunId) (candidates : List Metadata) : State :=
  let timeout := bindTimeout state.now candidates
  if timeout = 0 then moveTo state run .bound
  else
    let documents := candidates.map (·.uuid)
    let deadline := state.now + timeout * second
    { moveTo state run .bound with
      metadata := setMany state.metadata candidates deadline
      runIndex := set state.runIndex run documents deadline
      bindings := Function.update state.bindings run documents }

def endCall (state : State) (run : RunId) : State :=
  { moveTo state run .ended with lock := none }

def active : Phase → Bool
  | .reading _ _ | .bound => true
  | _ => false

def step (env : Env) (state : State) : Action → Option State
  | .tick duration => some { state with now := state.now + duration }
  | .store document uploader quotaSlot elapsed =>
    if state.stored document = none then
      some (storeDocument env state document uploader quotaSlot elapsed)
    else none
  | .deleteFile document =>
    if state.stored document = none then none
    else
      some
        { state with
          files := Function.update state.files document none
          deleted := state.deleted ++ [document] }
  | .deleteMetadata document =>
    if document ∈ state.deleted then
      some { state with metadata := delete state.metadata document }
    else none
  | .cleanup document =>
    match state.files document with
    | some modified =>
      if modified + env.ttl ≤ state.now then
        some { state with files := Function.update state.files document none }
      else none
    | none => none
  | .begin run =>
    if state.phase run = .idle ∧ state.lock = none then
      some { moveTo state run (.reading (env.call run).documents []) with lock := some run }
    else none
  | .read run =>
    match state.phase run with
    | .reading ((document, order) :: rest) candidates =>
      some (read env state run document order rest candidates)
    | _ => none
  | .bind run =>
    match state.phase run with
    | .reading [] candidates => some (bind state run candidates)
    | _ => none
  | .commit run =>
    if state.phase run = .bound then
      some
        { endCall state run with
          runs := Function.update state.runs run (some ⟨(env.call run).lensnode, false⟩) }
    else none
  | .raise run => if active (state.phase run) then some (endCall state run) else none
  | .finish run =>
    match state.runs run with
    | some row =>
      some { state with runs := Function.update state.runs run (some { row with finished := true }) }
    | none => none

/-- `get_run_document_attachments`. -/
def getRunDocumentAttachments (state : State) (run : RunId) : List Metadata :=
  let found := ((get state.runIndex state.now run).getD []).filterMap fun document =>
    (getDocumentAttachment state.metadata state.now document).filter fun metadata =>
      decide (run ∈ boundRuns metadata)
  found.mergeSort fun left right => decide (left.order ≤ right.order)

/-- `LensNodeRunAttachmentView.get` answers a node with the file. -/
def serves (state : State) (run : RunId) (document : DocumentId) (lensnode : NodeId) : Bool :=
  match state.runs run, getDocumentAttachment state.metadata state.now document with
  | some row, some metadata =>
    row.lensnode = lensnode && metadata.runUuid = some run &&
      metadata.lensnodeUuid = some lensnode && (state.files document).isSome
  | _, _ => false

def Alive (state : State) (document : DocumentId) : Prop :=
  document ∉ state.deleted ∧
    ∃ expiresAt, state.stored document = some expiresAt ∧ 0 < secondsLeft expiresAt state.now

def Promised (state : State) (run : RunId) (document : DocumentId) : Prop :=
  (∃ row, state.runs run = some row ∧ row.finished = false) ∧ document ∈ state.bindings run ∧
    Alive state document

def Listed (state : State) : Prop :=
  ∀ run document, Promised state run document →
    ∃ metadata ∈ getRunDocumentAttachments state run, metadata.uuid = document

def Served (state : State) : Prop :=
  ∀ run row document, state.runs run = some row → Promised state run document →
    serves state run document row.lensnode = true

def Apart (state : State) : Action → Prop
  | .bind run => ∀ documents candidates, state.phase run = .reading documents candidates →
      ∀ metadata ∈ candidates, ∀ other, ¬Promised state other metadata.uuid
  | _ => True

end SourceLens.RunDocuments
