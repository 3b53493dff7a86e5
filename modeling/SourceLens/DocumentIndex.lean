import SourceLens.DocumentAttachment
import SourceLens.Library.Transition

/-! The quota slots, the session indexes and the metadata of transient documents, under
calls that take turns at every cache operation. -/

namespace SourceLens.DocumentIndex

open ExpiringCache DocumentAttachment

abbrev CallId := DocumentId

/-- `DOCUMENT_ATTACHMENT_MAX_PER_USER`. -/
def maxPerUser : Nat := 8

structure Env where
  /-- `_attachment_ttl_seconds`, in microseconds. -/
  ttl : Nat

structure Ticket where
  session : SessionId
  uploader : UserId
  slot : Nat
  expiresAt : Nat
  deriving DecidableEq

def ticket (metadata : Metadata) : Ticket where
  session := metadata.sessionUuid
  uploader := metadata.uploadedById
  slot := metadata.quotaSlot
  expiresAt := metadata.expiresAt

structure Draft where
  session : SessionId
  uploader : UserId
  expiresAt : Nat
  deriving DecidableEq

def Draft.metadata (draft : Draft) (document : DocumentId) (slot : Nat) : Metadata where
  uuid := document
  sessionUuid := draft.session
  uploadedById := draft.uploader
  runUuid := none
  runUuids := []
  lensnodeUuid := none
  order := 0
  quotaSlot := slot
  expiresAt := draft.expiresAt

/-- The session a deletion is part of, and the user it is limited to. -/
abbrev Scope := Option (SessionId × Option UserId)

/-- The next cache operation of a call, with what it has read so far. -/
inductive Phase
  | idle
  /-- `_reserve_user_quota` tries a slot. -/
  | reserving (draft : Draft) (slot : Nat)
  | saving (metadata : Metadata)
  | caching (metadata : Metadata)
  /-- `_append_index` reads, then writes. -/
  | appending (metadata : Metadata)
  | extending (metadata : Metadata) (documents : List DocumentId)
  /-- The storage raised: the metadata is deleted, then the slot. -/
  | discarding (metadata : Metadata)
  | returning (metadata : Metadata)
  /-- The transaction is about to end. -/
  | leaving (session : SessionId)
  /-- `delete_document_attachment`, with the documents that are left to delete. -/
  | fetching (document : DocumentId) (scope : Scope) (rest : List DocumentId)
  | erasing (metadata : Metadata) (scope : Scope) (rest : List DocumentId)
  | forgetting (metadata : Metadata) (scope : Scope) (rest : List DocumentId)
  | releasing (metadata : Metadata) (scope : Scope) (rest : List DocumentId)
  /-- `delete_session_document_attachments` reads the index, and deletes it at its end. -/
  | listing (session : SessionId) (user : Option UserId)
  | closing (session : SessionId)
  /-- `get_session_document_attachments`. -/
  | reading (session : SessionId)
  | scanning (session : SessionId) (document : DocumentId) (rest expired : List DocumentId)
  /-- `bind_document_attachments_to_run`, and its `set_many`. -/
  | binding (session : SessionId) (run : RunId) (lensnode : NodeId) (document : DocumentId)
      (order : Nat) (rest : List (DocumentId × Nat)) (candidates : List Metadata)
  | writing (session : SessionId) (candidates : List Metadata)
  /-- `get_document_attachment` deletes metadata it found expired. -/
  | dropping (document : DocumentId) (next : Phase)
  /-- `_remove_from_index` reads, then writes. -/
  | unlisting (session : SessionId) (document : DocumentId) (next : Phase)
  | rewriting (session : SessionId) (document : DocumentId) (documents : List DocumentId)
      (next : Phase)
  | ended
  deriving DecidableEq

/-- The cache, and what has happened: the documents that got a slot, those whose metadata
was set, those whose store has returned, those whose metadata was deleted, and those whose
deletion is complete. -/
structure Store where
  now : Nat
  metadata : Cache DocumentId Metadata
  index : Cache SessionId (List DocumentId)
  slots : Cache (UserId × Nat) DocumentId
  issued : DocumentId → Option Ticket
  written : List DocumentId
  completed : List DocumentId
  forgotten : List DocumentId
  released : List DocumentId

structure State where
  store : Store
  lock : SessionId → Option CallId
  phases : CallId → Phase

def start : State where
  store :=
    { now := 0
      metadata := empty
      index := empty
      slots := empty
      issued := fun _ => none
      written := []
      completed := []
      forgotten := []
      released := [] }
  lock := fun _ => none
  phases := fun _ => .idle

inductive Work
  | store (session : SessionId) (uploader : UserId)
  | delete (document : DocumentId)
  | deleteSession (session : SessionId) (user : Option UserId)
  | read (session : SessionId)
  | bind (session : SessionId) (run : RunId) (lensnode : NodeId)
      (documents : List (DocumentId × Nat))
  deriving DecidableEq

inductive Action
  | tick (duration : Nat)
  | begin (call : CallId) (work : Work)
  | advance (call : CallId)
  /-- The storage of the files raises. -/
  | raise (call : CallId)
  deriving DecidableEq

namespace Store

/-- `_reserve_user_quota`, where the slot is free. -/
def reserve (env : Env) (store : Store) (draft : Draft) (document : DocumentId) (slot : Nat) :
    Store :=
  { store with
    slots := set store.slots (draft.uploader, slot) document (store.now + env.ttl)
    issued := Function.update store.issued document (some (ticket (draft.metadata document slot))) }

def setMetadata (store : Store) (metadata : Metadata) : Store :=
  { store with
    metadata := set store.metadata metadata.uuid metadata
      (store.now + remainingSeconds metadata store.now * second)
    written := metadata.uuid :: store.written }

/-- The write of `_append_index`, after which the document is stored. -/
def append (store : Store) (metadata : Metadata) (documents : List DocumentId) : Store :=
  { store with
    index := set store.index metadata.sessionUuid
      (if metadata.uuid ∈ documents then documents else documents ++ [metadata.uuid])
      (store.now + max (remainingSeconds metadata store.now) 1 * second)
    completed := metadata.uuid :: store.completed }

def forget (store : Store) (document : DocumentId) : Store :=
  { store with
    metadata := ExpiringCache.delete store.metadata document
    forgotten := document :: store.forgotten }

/-- `_release_user_quota`. -/
def freeSlot (store : Store) (metadata : Metadata) : Store :=
  { store with
    slots := ExpiringCache.delete store.slots (metadata.uploadedById, metadata.quotaSlot) }

def release (store : Store) (metadata : Metadata) : Store :=
  { store.freeSlot metadata with released := metadata.uuid :: store.released }

def drop (store : Store) (document : DocumentId) : Store :=
  { store with metadata := ExpiringCache.delete store.metadata document }

def deleteIndex (store : Store) (session : SessionId) : Store :=
  { store with index := ExpiringCache.delete store.index session }

/-- The write of `_remove_from_index`. -/
def remove (env : Env) (store : Store) (session : SessionId) (document : DocumentId)
    (documents : List DocumentId) : Store :=
  let remaining := documents.filter fun value => value != document
  if remaining = [] then store.deleteIndex session
  else { store with index := set store.index session remaining (store.now + env.ttl) }

def bindAll (store : Store) (candidates : List Metadata) : Store :=
  let timeout := bindTimeout store.now candidates
  if timeout = 0 then store
  else
    { store with
      metadata := setMany store.metadata candidates (store.now + timeout * second) }

/-- `cache.get(_session_index_key(session)) or []`. -/
def listed (store : Store) (session : SessionId) : List DocumentId :=
  (get store.index store.now session).getD []

def document (store : Store) (document : DocumentId) : Option Metadata :=
  getDocumentAttachment store.metadata store.now document

end Store

/-- `get_document_attachment`, and what the caller does with its answer. -/
def withDocument (store : Store) (document : DocumentId) (next : Option Metadata → Phase) : Phase :=
  match get store.metadata store.now document with
  | none => next none
  | some metadata =>
    if remainingSeconds metadata store.now = 0 then .dropping document (next none)
    else next (some metadata)

def permitted (scope : Scope) (metadata : Metadata) : Bool :=
  match scope with
  | none => true
  | some (session, user) =>
    metadata.sessionUuid = session && user.all fun user => metadata.uploadedById = user

def afterDelete (scope : Scope) (rest : List DocumentId) : Phase :=
  match scope, rest with
  | none, _ => .ended
  | some (session, _), [] => .closing session
  | some _, document :: rest => .fetching document scope rest

/-- The removals at the end of `get_session_document_attachments`. -/
def prune (session : SessionId) : List DocumentId → Phase
  | [] => .ended
  | document :: rest => .unlisting session document (prune session rest)

def scan (session : SessionId) (rest expired : List DocumentId) : Phase :=
  match rest with
  | [] => prune session expired
  | document :: rest => .scanning session document rest expired

def bindNext (session : SessionId) (run : RunId) (lensnode : NodeId)
    (rest : List (DocumentId × Nat)) (candidates : List Metadata) : Phase :=
  match rest with
  | [] => .writing session candidates
  | (document, order) :: rest => .binding session run lensnode document order rest candidates

def operate (env : Env) (store : Store) (call : CallId) : Phase → Option (Store × Phase)
  | .idle | .ended | .leaving _ => none
  | .reserving draft slot =>
    if maxPerUser ≤ slot then some (store, .leaving draft.session)
    else if get store.slots store.now (draft.uploader, slot) = none then
      some (store.reserve env draft call slot, .saving (draft.metadata call slot))
    else some (store, .reserving draft (slot + 1))
  | .saving metadata => some (store, .caching metadata)
  | .caching metadata => some (store.setMetadata metadata, .appending metadata)
  | .appending metadata => some (store, .extending metadata (store.listed metadata.sessionUuid))
  | .extending metadata documents =>
    some (store.append metadata documents, .leaving metadata.sessionUuid)
  | .discarding metadata => some (store.forget metadata.uuid, .returning metadata)
  | .returning metadata => some (store.freeSlot metadata, .leaving metadata.sessionUuid)
  | .fetching document scope rest =>
    some (store, withDocument store document fun
      | none => afterDelete scope rest
      | some metadata =>
        if permitted scope metadata then .erasing metadata scope rest
        else afterDelete scope rest)
  | .erasing metadata scope rest => some (store, .forgetting metadata scope rest)
  | .forgetting metadata scope rest =>
    some (store.forget metadata.uuid,
      .unlisting metadata.sessionUuid metadata.uuid (.releasing metadata scope rest))
  | .releasing metadata scope rest => some (store.release metadata, afterDelete scope rest)
  | .listing session user => some (store, afterDelete (some (session, user)) (store.listed session))
  | .closing session => some (store.deleteIndex session, .ended)
  | .reading session => some (store, scan session (store.listed session) [])
  | .scanning session document rest expired =>
    some (store, withDocument store document fun
      | none => scan session rest (expired ++ [document])
      | some _ => scan session rest expired)
  | .binding session run lensnode document order rest candidates =>
    some (store, withDocument store document fun
      | none => .leaving session
      | some metadata =>
        if metadata.sessionUuid ≠ session then .leaving session
        else bindNext session run lensnode rest
          (candidates ++ [bindTo run lensnode order metadata]))
  | .writing session candidates => some (store.bindAll candidates, .leaving session)
  | .dropping document next => some (store.drop document, next)
  | .unlisting session document next =>
    some (store, .rewriting session document (store.listed session) next)
  | .rewriting session document documents next =>
    some (store.remove env session document documents, next)

def setPhase (state : State) (call : CallId) (store : Store) (phase : Phase) : State :=
  { state with store := store, phases := Function.update state.phases call phase }

def opening (env : Env) (now : Nat) : Work → Phase × Option SessionId
  | .store session uploader => (.reserving ⟨session, uploader, now + env.ttl⟩ 0, some session)
  | .delete document => (.fetching document none [], none)
  | .deleteSession session user => (.listing session user, none)
  | .read session => (.reading session, none)
  | .bind session run lensnode documents =>
    (bindNext session run lensnode documents [], some session)

def step (env : Env) (state : State) : Action → Option State
  | .tick duration => some { state with store := { state.store with now := state.store.now + duration } }
  | .begin call work =>
    if state.phases call = .idle then
      match opening env state.store.now work with
      | (phase, none) => some (setPhase state call state.store phase)
      | (phase, some session) =>
        if state.lock session = none then
          some { setPhase state call state.store phase with
            lock := Function.update state.lock session (some call) }
        else none
    else none
  | .advance call =>
    match state.phases call with
    | .leaving session =>
      some { setPhase state call state.store .ended with
        lock := Function.update state.lock session none }
    | phase =>
      (operate env state.store call phase).map fun next => setPhase state call next.1 next.2
  | .raise call =>
    match state.phases call with
    | .saving metadata => some (setPhase state call state.store (.discarding metadata))
    | .erasing _ _ _ => some (setPhase state call state.store .ended)
    | _ => none

/-- A document is live while `get_document_attachment` finds it. -/
structure Consistent (store : Store) : Prop where
  quota : ∀ user (documents : List DocumentId), documents.Nodup →
    (∀ document ∈ documents, ∃ metadata, store.document document = some metadata ∧
      metadata.uploadedById = user) → documents.length ≤ maxPerUser
  slots : ∀ first second one two, store.document first = some one →
    store.document second = some two → one.uploadedById = two.uploadedById →
      one.quotaSlot = two.quotaSlot → first = second
  freed : ∀ document ∈ store.released, ∀ key, get store.slots store.now key ≠ some document
  listed : ∀ document ∈ store.completed, ∀ metadata, store.document document = some metadata →
    document ∈ store.listed metadata.sessionUuid
  gone : ∀ document ∈ store.released, store.document document = none

def SlotKept (store : Store) (metadata : Metadata) : Prop :=
  (get store.slots store.now (metadata.uploadedById, metadata.quotaSlot)).getD metadata.uuid =
    metadata.uuid

def IndexKept (store : Store) (session : SessionId) (documents : List DocumentId) : Prop :=
  ∀ document ∈ store.listed session, document ∈ documents

/-- A slot is deleted by its owner only, an index is written over no document that was added
since it was read and deleted with no live document in it, and metadata is not written again
after it was deleted. -/
def Allowed (store : Store) : Phase → Prop
  | .extending metadata documents => IndexKept store metadata.sessionUuid documents
  | .rewriting session _ documents _ => IndexKept store session documents
  | .closing session => ∀ document ∈ store.listed session, store.document document = none
  | .releasing metadata _ _ | .returning metadata => SlotKept store metadata
  | .writing _ candidates => ∀ metadata ∈ candidates,
      get store.metadata store.now metadata.uuid = none → remainingSeconds metadata store.now = 0
  | _ => True

def Undisturbed (state : State) : Action → Prop
  | .advance call => Allowed state.store (state.phases call)
  | _ => True

end SourceLens.DocumentIndex
