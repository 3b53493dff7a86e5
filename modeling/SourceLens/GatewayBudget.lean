import SourceLens.Library.Json
import SourceLens.Library.PyText
import SourceLens.Library.Transition
import Mathlib.Algebra.GroupWithZero.Nat

/-! Model calls of one run tree at its token budget: the expiring lock of the tree, and
the requests, response bodies and worker threads that own it in turn. -/

namespace SourceLens.GatewayBudget

abbrev Run := Nat
abbrev RequestId := Nat

def runBudgetLockTimeout : Nat := 120 * 1000
def runBudgetWaitTimeout : Nat := 30 * 1000
def maxProviderRequestTokens : Int := 393216

/-- `int(value)`; `none` where it raises. -/
def pyInt : Json → Option Int
  | .int value => some value
  | .bool value => some (if value then 1 else 0)
  | .float value => some (value.num.tdiv value.den)
  | .str value => PyText.intOfStr value
  | _ => none

/-- `int(value or default)`. -/
def intOr (value : Json) (default : Int) : Option Int :=
  if value.truthy then pyInt value else some default

def bounded (tokens : Int) : Int :=
  if tokens ≠ 0 then min (max tokens 1) maxProviderRequestTokens else tokens

def effectiveMaxTokens (requested : Json) (remaining : Int) : Option Int :=
  (intOr requested remaining).map fun asked => bounded (min asked remaining)

/-- One request of a LensNode; its identity is also the token of its lock. -/
structure Call where
  run : Run
  /-- `runtime_final_synthesis`. -/
  finalSynthesis : Bool
  stream : Bool
  maxTokens : Json

structure Env where
  root : Run
  /-- `token_budget_max_tokens` of the root's execution. -/
  limit : Nat
  budgeted : 0 < limit
  call : RequestId → Call

structure Entry where
  token : RequestId
  expires : Nat
  deriving DecidableEq

/-- Where a request stands. A streamed call is `pending` until its body is started, and
`locked` while it owns the lock of the tree. -/
inductive Phase
  | absent
  | waiting (deadline : Nat)
  | counting (frontier usageIds : List Run)
  | dropping
  | reserved (remaining : Nat)
  | overage
  | pending (maxTokens : Int) (locked : Bool)
  | calling (maxTokens : Int) (locked : Bool)
  | releasing
  | deleting
  | closed
  /-- Ended after it acquired the lock, without a way to release it. -/
  | lost
  deriving DecidableEq

/-- A budgeted call as it was sent, with the usage recorded then. -/
structure Sent where
  maxTokens : Int
  recorded : Nat
  deriving DecidableEq

structure Deleted where
  deleter : RequestId
  owner : RequestId
  deriving DecidableEq

/-- `runs` holds every run of the tree with its parent, `usage` the metered totals.
`acquired`, `deleted` and `sent` record what has happened. -/
structure State where
  clock : Nat
  runs : List (Run × Option Run)
  usage : List (Run × Nat)
  cache : Run → Option Entry
  phase : RequestId → Phase
  acquired : List RequestId
  deleted : List Deleted
  sent : List Sent

def start (env : Env) : State where
  clock := 0
  runs := [(env.root, none)]
  usage := []
  cache := fun _ => none
  phase := fun _ => .absent
  acquired := []
  deleted := []
  sent := []

/-- `while root.parent_run_id: root = …`. -/
def climb (runs : List (Run × Option Run)) : Nat → Run → Run
  | 0, run => run
  | fuel + 1, run =>
    match runs.lookup run with
    | some (some parent) => climb runs fuel parent
    | _ => run

/-- The run whose execution bounds the tree and whose uuid names its lock. -/
def rootOf (state : State) (run : Run) : Run := climb state.runs state.runs.length run

def children (runs : List (Run × Option Run)) (frontier : List Run) : List Run :=
  (runs.filter fun entry => match entry.2 with
    | some parent => decide (parent ∈ frontier)
    | none => false).map Prod.fst

def used (usage : List (Run × Nat)) (usageIds : List Run) : Nat :=
  ((usage.filter fun entry => decide (entry.1 ∈ usageIds)).map Prod.snd).sum

def recorded (usage : List (Run × Nat)) : Nat := (usage.map Prod.snd).sum

def liveEntry (state : State) (key : Run) : Option Entry :=
  (state.cache key).filter fun entry => decide (state.clock < entry.expires)

/-- `cache.delete`. -/
def delete (state : State) (key : Run) (deleter : RequestId) : State :=
  { state with
    cache := Function.update state.cache key none
    deleted := state.deleted ++ ((liveEntry state key).map fun entry =>
      (⟨deleter, entry.token⟩ : Deleted)).toList }

def moveTo (state : State) (request : RequestId) (phase : Phase) : State :=
  { state with phase := Function.update state.phase request phase }

inductive Action
  | tick (duration : Nat)
  /-- A delegated run is created. -/
  | spawn (run parent : Run)
  | arrive (request : RequestId)
  /-- One `cache.add`, or giving up. -/
  | poll (request : RequestId)
  /-- One level of the tree, or the sum of its usage. -/
  | level (request : RequestId)
  | drop (request : RequestId)
  | price (request : RequestId)
  /-- The server starts the body of a streamed response. -/
  | begin (request : RequestId)
  /-- The client is gone before that. -/
  | disconnect (request : RequestId)
  /-- The tracked call returns, raises, or is closed for a client that is gone. -/
  | finish (request : RequestId) (tokens : Nat)
  | check (request : RequestId)
  | delete (request : RequestId)
  /-- An exception outside the tracked call. -/
  | fail (request : RequestId)
  deriving DecidableEq

/-- `cache.add(key, token, RUN_BUDGET_LOCK_TIMEOUT_S)` and what follows. -/
def poll (env : Env) (state : State) (request : RequestId) (deadline : Nat) : State :=
  let key := rootOf state (env.call request).run
  if deadline ≤ state.clock then moveTo state request .closed
  else if (liveEntry state key).isSome then state
  else
    { moveTo state request (.counting [key] [key]) with
      cache := Function.update state.cache key
        (some ⟨request, state.clock + runBudgetLockTimeout⟩)
      acquired := state.acquired ++ [request] }

def level (env : Env) (state : State) (request : RequestId) (frontier usageIds : List Run) :
    State :=
  if frontier = [] then
    let total := used state.usage usageIds
    if env.limit ≤ total then moveTo state request .dropping
    else moveTo state request (.reserved (env.limit - total))
  else
    let next := children state.runs frontier
    moveTo state request (.counting next (usageIds ++ next))

/-- `cache.delete(key)` of a tree without budget. -/
def drop (env : Env) (state : State) (request : RequestId) : State :=
  moveTo (delete state (rootOf state (env.call request).run) request) request
    (if (env.call request).finalSynthesis then .overage else .closed)

def send (state : State) (request : RequestId) (maxTokens : Int) (locked : Bool) : State :=
  { moveTo state request (.calling maxTokens locked) with
    sent := if locked then state.sent ++ [⟨maxTokens, recorded state.usage⟩] else state.sent }

def dispatch (env : Env) (state : State) (request : RequestId) (maxTokens : Int)
    (locked : Bool) : State :=
  if (env.call request).stream then moveTo state request (.pending maxTokens locked)
  else send state request maxTokens locked

def price (env : Env) (state : State) (request : RequestId) : Phase → Option State
  | .reserved remaining =>
    match effectiveMaxTokens (env.call request).maxTokens remaining with
    | some maxTokens => some (dispatch env state request maxTokens true)
    | none => some (moveTo state request .lost)
  | .overage =>
    match effectiveMaxTokens (env.call request).maxTokens 4096 with
    | some maxTokens => some (dispatch env state request maxTokens false)
    | none => some (moveTo state request .closed)
  | _ => none

def finish (env : Env) (state : State) (request : RequestId) (tokens : Nat) (locked : Bool) :
    State :=
  { moveTo state request (if locked then .releasing else .closed) with
    usage := state.usage ++ [((env.call request).run, tokens)] }

/-- `if cache.get(key) == token`. -/
def check (env : Env) (state : State) (request : RequestId) : State :=
  match liveEntry state (rootOf state (env.call request).run) with
  | some entry => moveTo state request (if entry.token = request then .deleting else .closed)
  | none => moveTo state request .closed

/-- The request owns the lock, or owned it and has not come to its release. -/
def holding : Phase → Bool
  | .counting _ _ | .dropping | .reserved _ | .releasing | .deleting => true
  | .pending _ locked | .calling _ locked => locked
  | _ => false

/-- The phases in which an exception is not turned into the end of a tracked call. -/
def unguarded : Phase → Bool
  | .counting _ _ | .dropping | .reserved _ | .releasing | .deleting => true
  | _ => false

def step (env : Env) (state : State) : Action → Option State
  | .tick duration => some { state with clock := state.clock + duration }
  | .spawn run parent =>
    if run ∉ state.runs.map Prod.fst ∧ parent ∈ state.runs.map Prod.fst then
      some { state with runs := state.runs ++ [(run, some parent)] }
    else none
  | .arrive request =>
    if state.phase request = .absent ∧ (env.call request).run ∈ state.runs.map Prod.fst then
      some (moveTo state request (.waiting (state.clock + runBudgetWaitTimeout)))
    else none
  | .poll request =>
    match state.phase request with
    | .waiting deadline => some (poll env state request deadline)
    | _ => none
  | .level request =>
    match state.phase request with
    | .counting frontier usageIds => some (level env state request frontier usageIds)
    | _ => none
  | .drop request =>
    if state.phase request = .dropping then some (drop env state request) else none
  | .price request => price env state request (state.phase request)
  | .begin request =>
    match state.phase request with
    | .pending maxTokens locked => some (send state request maxTokens locked)
    | _ => none
  | .disconnect request =>
    match state.phase request with
    | .pending _ locked => some (moveTo state request (if locked then .lost else .closed))
    | _ => none
  | .finish request tokens =>
    match state.phase request with
    | .calling _ locked => some (finish env state request tokens locked)
    | _ => none
  | .check request =>
    if state.phase request = .releasing then some (check env state request) else none
  | .delete request =>
    if state.phase request = .deleting then
      some (moveTo (delete state (rootOf state (env.call request).run) request) request .closed)
    else none
  | .fail request =>
    if unguarded (state.phase request) then some (moveTo state request .lost) else none

def ended (phase : Phase) : Bool := phase = .closed || phase = .lost

def inFlight (phase : Phase) : Bool :=
  match phase with
  | .calling _ locked => locked
  | _ => false

structure Kept (env : Env) (state : State) : Prop where
  /-- At most one budgeted call at a time. -/
  exclusive : ∀ first second, inFlight (state.phase first) = true →
    inFlight (state.phase second) = true → first = second
  /-- Every call fits what the completed ones have left. -/
  fits : ∀ sent ∈ state.sent, sent.maxTokens ≤ env.limit - sent.recorded
  /-- A lock is deleted by its owner only, -/
  own : ∀ deleted ∈ state.deleted, deleted.deleter = deleted.owner
  /-- and by every owner that has ended. -/
  released : ∀ request ∈ state.acquired, ended (state.phase request) = true →
    ⟨request, request⟩ ∈ state.deleted

def numbered (call : Call) : Phase → Bool
  | .reserved remaining => (intOr call.maxTokens remaining).isSome
  | _ => true

/-- No step that leads away from the release of a lock: the lock does not expire under
its owner, no exception is raised around it, the limit of the request is a number, and
the body of a streamed response is started. -/
def Orderly (env : Env) (state : State) : Action → Prop
  | .tick duration => ∀ entry ∈ state.cache env.root, holding (state.phase entry.token) = true →
      state.clock + duration < entry.expires
  | .price request => numbered (env.call request) (state.phase request) = true
  | .disconnect request => holding (state.phase request) = false
  | .fail _ => False
  | _ => True

instance (env : Env) (state : State) : ∀ action, Decidable (Orderly env state action)
  | .tick duration => inferInstanceAs (Decidable (∀ entry ∈ state.cache env.root,
      holding (state.phase entry.token) = true → state.clock + duration < entry.expires))
  | .price request =>
    inferInstanceAs (Decidable (numbered (env.call request) (state.phase request) = true))
  | .disconnect request => inferInstanceAs (Decidable (holding (state.phase request) = false))
  | .fail _ => inferInstanceAs (Decidable False)
  | .spawn _ _ | .arrive _ | .poll _ | .level _ | .drop _ | .begin _ | .finish _ _ | .check _
  | .delete _ => inferInstanceAs (Decidable True)

end SourceLens.GatewayBudget
