import SourceLens.Library.PyText
import SourceLens.RunStatus

/-! Delegated runs (`LensNodeDelegationView.post`, `create_delegated_run`): the attempts of a
parent's delegated tasks. `create_delegated_run` and `finish_lensnode_run` hold the lock of
the parent's row, so each is one step here. -/

namespace SourceLens.Delegation

open RunStatus (Status ExecutionStatus)

abbrev Text := List Char

/-- A delegated run; `group` is the `delegation_group_key` of its runtime snapshot. -/
structure Child where
  id : Nat
  assistant : Nat
  session : Nat
  idempotencyKey : Text
  group : Text
  retryOf : Option Nat
  createdAt : Int
  status : Status
  deriving DecidableEq

abbrev Children := Table Child Child.id

structure Parent where
  /-- `Session.RoutingMode.SMART`. -/
  smart : Bool
  /-- The parent is a delegated run itself. -/
  nested : Bool
  status : Status
  execution : Option ExecutionStatus
  assistant : Nat
  /-- The `subagents` of its runtime snapshot. -/
  subagents : List Nat
  deriving DecidableEq

/-- The statuses in which `create_delegated_run` returns the previous attempt. -/
def reusable : Status → Bool
  | .queued | .running | .streaming | .awaitingUserInput => true
  | _ => false

def executionEnded : ExecutionStatus → Bool
  | .completed | .failed | .cancelled => true
  | _ => false

/-! ### `create_delegated_run` -/

structure Request where
  assistant : Nat
  delegationKey : Text
  delegationGroupKey : Text
  deriving DecidableEq

/-- What the transaction finds outside these tables: whether the assistant is visible,
active and of a delegable kind, what `create_execution_run` raises, and the clock. -/
structure Outside where
  available : Bool
  raised : Option String
  now : Int

def idempotencyKey (delegationKey : Text) : Text :=
  if delegationKey = [] then [] else ("delegation:".toList ++ delegationKey).take 128

/-- `str(delegation_group_key or delegation_key or "")[:96]`. -/
def groupKey (request : Request) : Text :=
  (if request.delegationGroupKey = [] then request.delegationKey
    else request.delegationGroupKey).take 96

/-- The checks before the first query for children; the ancestry of a parent that is no
delegated run is the parent. -/
def refusal (parent : Parent) (assistant : Nat) : Option String :=
  if !parent.smart then some "SUBAGENT_NOT_ALLOWED"
  else if parent.nested then some "SUBAGENT_NESTED_DISABLED"
  else if !parent.status.active then some "PARENT_RUN_NOT_ACTIVE"
  else match parent.execution with
    | none => some "PARENT_RUN_EXECUTION_MISSING"
    | some execution =>
      if executionEnded execution then some "PARENT_RUN_NOT_ACTIVE"
      else if assistant ∉ parent.subagents then some "SUBAGENT_NOT_ALLOWED"
      else none

def existing (children : Children) (delegationKey : Text) : Option Child :=
  if delegationKey = [] then none
  else children.rows.find? fun child =>
    decide (child.idempotencyKey = idempotencyKey delegationKey)

/-- The order of `order_by("created_at", "pk")`. -/
def Child.after (child other : Child) : Bool :=
  decide (other.createdAt < child.createdAt) ||
    decide (other.createdAt = child.createdAt) && decide (other.id < child.id)

def attempts (children : Children) (assistant : Nat) (group : Text) : List Child :=
  children.select fun child => decide (child.assistant = assistant) && decide (child.group = group)

def Child.latest (child : Child) : Option Child → Child
  | none => child
  | some other => if child.after other then child else other

def lastOf (children : List Child) : Option Child :=
  children.foldl (fun last child => some (child.latest last)) none

def previousAttempt (children : Children) (assistant : Nat) (group : Text) : Option Child :=
  if group = [] then none else lastOf (attempts children assistant group)

structure World where
  parent : Parent
  children : Children
  /-- The primary key of the next session. -/
  nextSession : Nat
  /-- The keys that have been answered, with the child of each answer. -/
  answers : List (Text × Nat)

def newChild (request : Request) (session : Nat) (retryOf : Option Nat) (now : Int) (id : Nat) :
    Child where
  id := id
  assistant := request.assistant
  session := session
  idempotencyKey := idempotencyKey request.delegationKey
  group := groupKey request
  retryOf := retryOf
  createdAt := now
  status := .queued

theorem newChild_id (request : Request) (session : Nat) (retryOf : Option Nat) (now : Int)
    (id : Nat) : (newChild request session retryOf now id).id = id := rfl

/-- `create_execution_run` in the session of the attempt before, or in a new one. -/
def create (world : World) (request : Request) (previous : Option Child) (now : Int) : World :=
  { world with
    children := world.children.create
      (newChild request ((previous.map Child.session).getD world.nextSession)
        (previous.map Child.id) now)
      (newChild_id request ((previous.map Child.session).getD world.nextSession)
        (previous.map Child.id) now)
    nextSession := world.nextSession + 1 }

/-- The child of the answer; an exception rolls the transaction back. -/
def createDelegatedRun (world : World) (request : Request) (outside : Outside) :
    Except String (World × Nat) :=
  match refusal world.parent request.assistant with
  | some error => .error error
  | none =>
    match existing world.children request.delegationKey with
    | some child => .ok (world, child.id)
    | none =>
      let previous := previousAttempt world.children request.assistant (groupKey request)
      match previous.filter fun attempt => reusable attempt.status with
      | some attempt => .ok (world, attempt.id)
      | none =>
        if !outside.available then .error "SUBAGENT_UNAVAILABLE"
        else if request.assistant = world.parent.assistant then .error "SUBAGENT_CYCLE"
        else match outside.raised with
          | some error => .error error
          | none => .ok (create world request previous outside.now, world.children.sequence)

/-! ### `LensNodeDelegationView.post` -/

/-- The body of a post, as `str(.. or "")` reads it. -/
structure Body where
  assistantUuid : Option Nat
  question : Text
  delegationKey : Text
  delegationGroupKey : Text
  deriving DecidableEq

def strip (text : Text) : Text := PyText.strip PyText.isSpace text

def Body.request (body : Body) (assistant : Nat) : Request where
  assistant := assistant
  delegationKey := strip body.delegationKey
  delegationGroupKey := strip
    (if body.delegationGroupKey = [] then strip body.delegationKey else body.delegationGroupKey)

def Body.check (body : Body) : Except String Request :=
  match body.assistantUuid with
  | none => .error "assistant_uuid, question, and delegation_key are required."
  | some assistant =>
    let request := body.request assistant
    if strip body.question = [] ∨ request.delegationKey = [] then
      .error "assistant_uuid, question, and delegation_key are required."
    else if 96 < request.delegationKey.length then .error "delegation_key is too long."
    else if 96 < request.delegationGroupKey.length then
      .error "delegation_group_key is too long."
    else .ok request

def post (world : World) (body : Body) (outside : Outside) : Except String (World × Nat) :=
  match body.check with
  | .error error => .error error
  | .ok request => createDelegatedRun world request outside

inductive Action
  | post (body : Body) (outside : Outside)
  /-- A child that has not ended runs on or ends. -/
  | child (id : Nat) (status : Status)
  /-- The parent, while it has not ended, takes another status. -/
  | parent (status : Status)
  /-- The terminal part of `finish_lensnode_run`; other runs keep these sessions alive. -/
  | finish (status : Status) (sessions : List Nat)

def setStatus (status : Status) : Table.Change Child.id := ⟨fun child => { child with status := status },
  fun _ => rfl⟩

def answered (world : World) (body : Body) (outside : Outside) : World :=
  match post world body outside with
  | .error _ => world
  | .ok (next, id) => { next with answers := world.answers ++ [(strip body.delegationKey, id)] }

/-- `cancel_descendant_runs` and `_finalize_delegated_children`. -/
def finishChildren (children : Children) (sessions : List Nat) : Children :=
  let cancelled := children.updateWhere (fun child => child.status.unfinished) (setStatus .cancelled)
  cancelled.deleteWhere fun child => decide (child.session ∉ sessions)

def step (world : World) : Action → Option World
  | .post body outside => some (answered world body outside)
  | .child id status =>
    match world.children.get? id with
    | none => none
    | some child =>
      if child.status.terminal then none
      else some { world with children := world.children.update id (setStatus status) }
  | .parent status =>
    if world.parent.status.terminal then none
    else some { world with parent := { world.parent with status := status } }
  | .finish status sessions =>
    if world.parent.status.terminal then some world
    else if status.terminal then
      some { world with
        parent := { world.parent with status := status }
        children := finishChildren world.children sessions }
    else none

def opened (parent : Parent) : World where
  parent := parent
  children := ⟨[], 0, List.nodup_nil, by intro row member; cases member⟩
  nextSession := 0
  answers := []

end SourceLens.Delegation
