import SourceLens.Library.Json
import SourceLens.Library.PyText

/-! Failover of a metered model call: the configured fallbacks of a model and the loop
that tries them until one answers. -/

namespace SourceLens.ModelFailover

def maxFallbacks : Nat := 3

abbrev Uuid := Nat

structure Error where
  /-- Whether it is a `ValueError`. -/
  valueError : Bool
  message : String
  statusCode : Option Int
  deriving DecidableEq

inductive Scope
  | global
  | user
  deriving DecidableEq

/-- A row of `LLMConfig`. -/
structure LlmConfig where
  uuid : Uuid
  scope : Scope
  userId : Option Nat
  /-- `model_type` is `MODEL_TYPE_LLM`. -/
  llm : Bool
  isActive : Bool
  config : Json

/-- `UUID(str(value))`; `none` where it raises. No text of another value has the form of a
UUID. -/
def uuidOf : Json → Option Uuid
  | .str value => PyText.uuidOfStr value
  | .int value => PyText.uuidOfStr (toString value)
  | _ => none

def allowedScope (userId : Option Nat) (config : LlmConfig) : Bool :=
  (config.scope = .global && config.userId.isNone) ||
    (userId.isSome && config.scope = .user && config.userId = userId)

def eligible (configs : List LlmConfig) (userId : Option Nat) : List LlmConfig :=
  configs.filter fun config => allowedScope userId config && config.llm && config.isActive

def configuredFallbacks (fields : List (String × Json)) : List Json :=
  let configured := Json.getOrNull fields "fallback_model_uuids"
  let chosen :=
    if configured = .null then (Json.get? fields "fallback_model_uuid").getD (.arr [])
    else configured
  match chosen with
  | .str value => [.str value]
  | .arr values => values
  | _ => []

def addCandidate (primary : Uuid) (candidates : List Uuid) (value : Json) : List Uuid :=
  match uuidOf value with
  | none => candidates
  | some candidate =>
    if candidate ≠ primary ∧ candidate ∉ candidates then candidates ++ [candidate]
    else candidates

def candidatesOf (primary : Uuid) (configured : List Json) : List Uuid :=
  (configured.take maxFallbacks).foldl (addCandidate primary) []

def isImageBlock : Json → Bool
  | .obj block => Json.getOrNull block "type" = .str "image_url"
  | _ => false

def requiresVision (messages : List Json) : Bool :=
  messages.any fun message =>
    match message with
    | .obj fields =>
      match Json.getOrNull fields "content" with
      | .arr blocks => blocks.any isImageBlock
      | _ => false
    | _ => false

/-- `fallback_model_refs`. -/
def fallbackModelRefs (configs : List LlmConfig) (supportsVision : Uuid → Bool)
    (modelRef : Json) (userId : Option Nat) (messages : List Json) : List Uuid :=
  if !modelRef.truthy then []
  else
    match uuidOf modelRef with
    | none => []
    | some primaryUuid =>
      match (eligible configs userId).find? fun config => config.uuid = primaryUuid with
      | none => []
      | some primary =>
        match primary.config with
        | .obj fields =>
          let available := fun candidate =>
            ((eligible configs userId).any fun config => config.uuid = candidate) &&
              (!requiresVision messages || supportsVision candidate)
          (candidatesOf primaryUuid (configuredFallbacks fields)).filter available
        | _ => []

inductive Ref
  | primary
  | fallback (uuid : Uuid)
  deriving DecidableEq

abbrev Chunk := String × String

structure Reply where
  chunks : List Chunk
  ending : Except Error Json

/-- A call and its surroundings; `start` is `LLMTracker.call_and_track` for a stream and
`ask` for a plain call, by the number of the attempt. -/
structure Env where
  modelRef : Json
  stream : Bool
  userId : Option Nat
  messages : List Json
  configs : List LlmConfig
  supportsVision : Uuid → Bool
  isRetryableException : Error → Bool
  start : Nat → Ref → Except Error Reply
  ask : Nat → Ref → Except Error Json

inductive Code
  | modelUnavailable
  | modelStreamError
  deriving DecidableEq

inductive Event
  | called (attempt : Nat) (ref : Ref)
  | yielded (attempt : Nat) (chunk : Chunk)
  | closed (attempt : Nat)
  | retried (code : Code) (attempt : Nat)
  deriving DecidableEq

structure Run where
  events : List Event
  outcome : Except Error Json

def emptyResponsePrefix : String := "LLM returned empty response"

def isEmptyResponseError (error : Error) : Bool :=
  error.valueError && emptyResponsePrefix.toList.isPrefixOf error.message.toList

def isRetryableFailoverError (env : Env) (error : Error) : Bool :=
  env.isRetryableException error || isEmptyResponseError error

def isEmptyStreamResult (emitted : Bool) : Json → Bool
  | .obj terminal =>
    if emitted then false
    else if (Json.getOrNull terminal "_tool_calls").truthy then false
    else
      let reason := Json.getOrNull terminal "_finish_reason"
      reason = .null || reason = .str "stop"
  | _ => false

inductive Verdict
  | finished (outcome : Except Error Json)
  /-- Move on, or end like this where no fallback is left. -/
  | advance (code : Code) (otherwise : Except Error Json)

/-- One attempt: its events before and after the choice of the next model. -/
structure Tried where
  before : List Event
  after : List Event
  verdict : Verdict

/-- The `except Exception` branch. -/
def failed (env : Env) (emitted : Bool) (error : Error) : Verdict :=
  if emitted || !isRetryableFailoverError env error then .finished (.error error)
  else .advance .modelUnavailable (.error error)

def consume (env : Env) (attempt : Nat) (ref : Ref) (reply : Reply) : Tried :=
  let emitted := !reply.chunks.isEmpty
  let seen := Event.called attempt ref :: reply.chunks.map (Event.yielded attempt)
  match reply.ending with
  | .error error => ⟨seen ++ [.closed attempt], [], failed env emitted error⟩
  | .ok terminal =>
    if isEmptyStreamResult emitted terminal then
      ⟨seen, [.closed attempt], .advance .modelStreamError (.ok terminal)⟩
    else ⟨seen ++ [.closed attempt], [], .finished (.ok terminal)⟩

def tryOnce (env : Env) (attempt : Nat) (ref : Ref) : Tried :=
  if env.stream then
    match env.start attempt ref with
    | .error error => ⟨[.called attempt ref], [], failed env false error⟩
    | .ok reply => consume env attempt ref reply
  else
    match env.ask attempt ref with
    | .error error => ⟨[.called attempt ref], [], failed env false error⟩
    | .ok value => ⟨[.called attempt ref], [], .finished (.ok value)⟩

/-- The loop from one attempt on, with the fallbacks that are left. -/
def attemptsFrom (env : Env) : List Uuid → Ref → Nat → Run
  | [], selected, attempt =>
    let tried := tryOnce env attempt selected
    match tried.verdict with
    | .finished outcome => ⟨tried.before ++ tried.after, outcome⟩
    | .advance _ otherwise => ⟨tried.before ++ tried.after, otherwise⟩
  | candidate :: candidates, selected, attempt =>
    let tried := tryOnce env attempt selected
    match tried.verdict with
    | .finished outcome => ⟨tried.before ++ tried.after, outcome⟩
    | .advance code _ =>
      let later := attemptsFrom env candidates (.fallback candidate) (attempt + 1)
      ⟨tried.before ++ .retried code (attempt + 1) :: tried.after ++ later.events,
        later.outcome⟩

/-- The fallbacks, as they are resolved when the first one is needed. -/
def refs (env : Env) : List Uuid :=
  fallbackModelRefs env.configs env.supportsVision env.modelRef env.userId env.messages

/-- `call_and_track_with_fallback`, read to its end. -/
def callAndTrackWithFallback (env : Env) : Run := attemptsFrom env (refs env) .primary 0

def calls (events : List Event) : List Ref :=
  events.filterMap fun event =>
    match event with
    | .called _ ref => some ref
    | _ => none

def yields (events : List Event) : List Chunk :=
  events.filterMap fun event =>
    match event with
    | .yielded _ chunk => some chunk
    | _ => none

def attemptChunks (env : Env) (attempt : Nat) (ref : Ref) : List Chunk :=
  if env.stream then
    match env.start attempt ref with
    | .ok reply => reply.chunks
    | .error _ => []
  else []

def attemptOutcome (env : Env) (attempt : Nat) (ref : Ref) : Except Error Json :=
  if env.stream then
    match env.start attempt ref with
    | .ok reply => reply.ending
    | .error error => .error error
  else env.ask attempt ref

def model (env : Env) : Ref → Option Uuid
  | .primary => uuidOf env.modelRef
  | .fallback uuid => some uuid

def opens (env : Env) (attempt : Nat) (ref : Ref) : Bool :=
  env.stream && (env.start attempt ref).isOk

def closedInTurn (env : Env) : Option Nat → List Event → Bool
  | _, [] => true
  | current, .called attempt ref :: rest =>
    current.isNone && closedInTurn env (if opens env attempt ref then some attempt else none) rest
  | current, .closed attempt :: rest =>
    closedInTurn env (if current = some attempt then none else current) rest
  | current, .yielded _ _ :: rest => closedInTurn env current rest
  | current, .retried _ _ :: rest => closedInTurn env current rest

structure OneAnswer (env : Env) (run : Run) : Prop where
  /-- The caller sees the last attempt, all of it and nothing else. -/
  last : ∃ ref, (calls run.events).getLast? = some ref ∧
    yields run.events = attemptChunks env ((calls run.events).length - 1) ref ∧
    run.outcome = attemptOutcome env ((calls run.events).length - 1) ref
  /-- Every chunk is yielded by it. -/
  lastOnly : ∀ attempt chunk, Event.yielded attempt chunk ∈ run.events →
    attempt + 1 = (calls run.events).length
  once : ((calls run.events).map (model env)).Nodup
  bounded : (calls run.events).length ≤ 1 + maxFallbacks
  inTurn : closedInTurn env none run.events = true
  /-- Why an error reaches the caller. -/
  reason : ∀ error, run.outcome = .error error →
    yields run.events ≠ [] ∨ isRetryableFailoverError env error = false ∨
      (calls run.events).length = 1 + (refs env).length

end SourceLens.ModelFailover
