import SourceLens.Library.PyText
import SourceLens.Library.Transition
import Mathlib.Data.List.Basic

/-! The guardrails of the model of one run: the token budget, the loop detector and the stop
reason that they share with the retries of a response. -/

namespace SourceLens.RunGuardrails

structure TokenUsage where
  prompt : Nat
  completion : Nat
  total : Nat
  deriving DecidableEq

/-- The `usage` of a response: what `int` makes of a field, 0 where it refuses it, and `none`
for a field that is absent. -/
structure Usage where
  promptTokens : Option Int
  inputTokens : Option Int
  completionTokens : Option Int
  outputTokens : Option Int
  totalTokens : Option Int
  deriving DecidableEq

structure ToolCall (Args : Type) where
  name : String
  args : Args
  id : String
  deriving DecidableEq

/-- A call of the payload, its name and id stripped; the arguments are refused with a text
unless they are an object. -/
structure RawCall (Args : Type) where
  name : String
  args : Except String Args
  id : String

structure InvalidCall where
  name : String
  id : String
  error : String
  deriving DecidableEq

/-- `response_metadata`; a key that is absent is false, 0 or `none`. -/
structure Metadata where
  finishReason : Option String := none
  safetyTerminated : Bool := false
  modelLengthCapped : Bool := false
  suppressedToolCallCount : Nat := 0
  runTokenUsage : Option TokenUsage := none
  tokenBudgetWrapup : Bool := false
  tokenCapped : Bool := false
  loopCapped : Bool := false
  loopTool : Option String := none
  deriving DecidableEq

structure Message (Args : Type) where
  content : List Char
  toolCalls : List (ToolCall Args)
  invalidToolCalls : List InvalidCall
  metadata : Metadata
  deriving DecidableEq

structure Response (Args : Type) where
  content : List Char
  finishReason : Option String
  toolCalls : List (RawCall Args)
  usage : Usage

inductive StopReason
  | tokenCapped
  | tokenBudgetWrapup
  | loopCapped
  | safetyTerminated
  | modelLengthCapped
  deriving DecidableEq

structure Config where
  tokenBudgetGatesEnabled : Bool
  /-- 0 means that there is no budget. -/
  tokenBudgetMaxTokens : Nat
  tokenBudgetFinalReserveTokens : Nat
  /-- Whether the usage is kept in a `SharedTokenBudget`, which has the same maximum. -/
  shared : Bool
  generalChatExecutionGates : Bool
  summarizes : Bool
  loopRepeatWarn : Nat
  loopRepeatHard : Nat
  loopToolWarn : Nat
  loopToolHard : Nat

/-- What the model calls: `str.lower`, `TOOL_PROTOCOL_PREFIX.match`, `_tool_call_fingerprint` and
the comparisons of a total with the share of the limit that is warned of, which is held between
0 and 1 but for a restored total. -/
structure Env (Args Fingerprint : Type) where
  lower : List Char → List Char
  protocolPrefix : List Char → Bool
  fingerprint : List (ToolCall Args) → Fingerprint
  warns : Nat → Nat → Bool
  restoredWarns : Nat → Nat → Bool

structure Model (Fingerprint : Type) where
  runTokenUsage : TokenUsage
  /-- The usage in the shared budget, if there is one. -/
  sharedUsage : TokenUsage
  budgetWarningPending : Bool
  budgetWarned : Bool
  loopWarningsPending : Nat
  toolCallHistory : List Fingerprint
  toolNameHistory : List String
  loopWarned : List Fingerprint
  toolWarned : List String
  stopReason : Option StopReason
  wrapupEvent : Bool
  deriving DecidableEq

def noUsage : TokenUsage := ⟨0, 0, 0⟩

variable {Args Fingerprint : Type}

def freshModel : Model Fingerprint where
  runTokenUsage := noUsage
  sharedUsage := noUsage
  budgetWarningPending := false
  budgetWarned := false
  loopWarningsPending := 0
  toolCallHistory := []
  toolNameHistory := []
  loopWarned := []
  toolWarned := []
  stopReason := none
  wrapupEvent := false

/-- `token_usage`. -/
def tokenUsage (config : Config) (model : Model Fingerprint) : TokenUsage :=
  if config.shared then model.sharedUsage else model.runTokenUsage

def safetyFinishReasons : List String :=
  ["blocked", "content_filter", "prohibited_content", "refusal", "safety"]

def lengthFinishReasons : List String :=
  ["length", "max_completion_tokens", "max_output_tokens", "max_tokens", "max_tokens_reached"]

def lengthNotice : String :=
  "This response is incomplete because the provider reached its " ++
    "output length limit. Any unfinished tool calls were suppressed."

def safetyNotice : String :=
  "The provider stopped this response for safety reasons. " ++
    "Any tool calls from this response were suppressed."

def loopStop : String :=
  "Repeated tool calls reached the runtime safety limit. New tool calls " ++
    "were suppressed; this answer must use the results already collected."

/-- `_append_runtime_notice`. -/
def appendRuntimeNotice (content : List Char) (notice : String) : List Char :=
  let text := PyText.strip PyText.isSpace content
  if text = [] then notice.toList else text ++ "\n\n".toList ++ notice.toList

/-- `_suppressed_tool_calls`, without the text of the arguments. -/
def suppressedToolCalls (calls : List (ToolCall Args)) (error : String) : List InvalidCall :=
  calls.map fun call => ⟨call.name, call.id, error⟩

/-- Why a call of the payload is refused; the last check that fails names the error. -/
def callError (raw : RawCall Args) : Option String :=
  if raw.id = "" then some "Tool call id is missing."
  else if raw.name = "" then some "Tool call name is missing."
  else match raw.args with
    | .error text => some text
    | .ok _ => none

def validCall (raw : RawCall Args) : Option (ToolCall Args) :=
  match callError raw, raw.args with
  | none, .ok args => some ⟨raw.name, args, raw.id⟩
  | _, _ => none

def invalidCall (raw : RawCall Args) : Option InvalidCall :=
  (callError raw).map fun error => ⟨raw.name, raw.id, error⟩

def normalizedReason (env : Env Args Fingerprint) (reason : Option String) : String :=
  String.ofList (env.lower (PyText.strip PyText.isSpace (reason.getD "").toList))

/-- `_message_from_gateway`; `none` is a `GatewayProtocolError`. -/
def messageFromGateway (env : Env Args Fingerprint) (response : Response Args) :
    Option (Message Args) :=
  let calls := response.toolCalls.filterMap validCall
  let invalid := response.toolCalls.filterMap invalidCall
  let reason := normalizedReason env response.finishReason
  let marked := env.protocolPrefix response.content
  if marked ∧ calls = [] then none
  else
    let content := if marked then [] else response.content
    if reason ∈ safetyFinishReasons then
      some {
        content := appendRuntimeNotice content safetyNotice
        toolCalls := []
        invalidToolCalls := invalid ++ suppressedToolCalls calls "Provider safety termination"
        metadata := {
          finishReason := response.finishReason
          safetyTerminated := true
          suppressedToolCallCount := calls.length } }
    else if reason ∈ lengthFinishReasons then
      some {
        content := appendRuntimeNotice content lengthNotice
        toolCalls := []
        invalidToolCalls := invalid ++ suppressedToolCalls calls "Provider length termination"
        metadata := {
          finishReason := response.finishReason
          modelLengthCapped := true
          suppressedToolCallCount := calls.length } }
    else some ⟨content, calls, invalid, { finishReason := response.finishReason }⟩

/-- `_usage_int`. -/
def usageInt (value fallback : Option Int) : Nat := ((value.or fallback).getD 0).toNat

def TokenUsage.add (left right : TokenUsage) : TokenUsage :=
  ⟨left.prompt + right.prompt, left.completion + right.completion, left.total + right.total⟩

def charge (config : Config) (usage : Usage) : TokenUsage :=
  let prompt := usageInt usage.promptTokens usage.inputTokens
  let completion := usageInt usage.completionTokens usage.outputTokens
  let total := if usageInt usage.totalTokens none = 0 then prompt + completion
    else usageInt usage.totalTokens none
  -- `SharedTokenBudget.consume` counts no less than the two parts.
  ⟨prompt, completion, if config.shared then max total (prompt + completion) else total⟩

def consume (config : Config) (model : Model Fingerprint) (cost : TokenUsage) :
    Model Fingerprint :=
  if config.shared then
    { model with
      sharedUsage := model.sharedUsage.add cost
      runTokenUsage := model.sharedUsage.add cost }
  else { model with runTokenUsage := model.runTokenUsage.add cost }

def gatedLimit (config : Config) : Nat :=
  if config.tokenBudgetGatesEnabled then config.tokenBudgetMaxTokens else 0

/-- The hard stop, which the shared budget and the model compute alike. -/
def hardStop (config : Config) (total : Nat) : Bool :=
  config.tokenBudgetGatesEnabled && config.tokenBudgetMaxTokens != 0 &&
    decide (config.tokenBudgetMaxTokens ≤ total)

def wrapupNeeded (config : Config) (total : Nat) : Bool :=
  let limit := gatedLimit config
  let reserve := min config.tokenBudgetFinalReserveTokens limit
  limit != 0 && reserve != 0 && decide (limit - reserve ≤ total)

def stopToolCalls (message : Message Args) (content : List Char) (error : String)
    (metadata : Metadata) : Message Args where
  content := content
  toolCalls := []
  invalidToolCalls := message.invalidToolCalls ++ suppressedToolCalls message.toolCalls error
  metadata := { metadata with
    suppressedToolCallCount := message.toolCalls.length
    finishReason := if metadata.finishReason = some "function_call" ∨
        metadata.finishReason = some "tool_calls" then some "stop" else metadata.finishReason }

def terminated (model : Model Fingerprint) (metadata : Metadata) : Model Fingerprint :=
  if metadata.safetyTerminated then { model with stopReason := some .safetyTerminated }
  else if metadata.modelLengthCapped then { model with stopReason := some .modelLengthCapped }
  else model

/-- The stop reason and the warning that the new total calls for. -/
def budgeted (env : Env Args Fingerprint) (config : Config) (model : Model Fingerprint) :
    Model Fingerprint :=
  let total := model.runTokenUsage.total
  let limit := gatedLimit config
  let model := if wrapupNeeded config total then { model with wrapupEvent := true } else model
  if hardStop config total then
    { model with stopReason := some .tokenCapped, budgetWarningPending := false }
  else if wrapupNeeded config total then { model with stopReason := some .tokenBudgetWrapup }
  else if limit ≠ 0 ∧ model.budgetWarned = false ∧ env.warns limit total = true then
    { model with budgetWarned := true, budgetWarningPending := true }
  else model

/-- `_apply_token_budget`. -/
def applyTokenBudget (env : Env Args Fingerprint) (config : Config) (model : Model Fingerprint)
    (message : Message Args) (usage : Usage) : Model Fingerprint × Message Args :=
  let spent := consume config (terminated model message.metadata) (charge config usage)
  let total := spent.runTokenUsage.total
  let metadata := { message.metadata with
    runTokenUsage := some spent.runTokenUsage
    tokenBudgetWrapup := message.metadata.tokenBudgetWrapup || wrapupNeeded config total }
  (budgeted env config spent,
    if hardStop config total = false then { message with metadata := metadata }
    -- Only the metadata that the response came with is kept beside suppressed calls.
    else if message.toolCalls = [] then
      { message with metadata := { metadata with tokenCapped := true } }
    else stopToolCalls message message.content "Run token budget reached"
      { message.metadata with tokenCapped := true })

/-- `deque.append` on a deque of bounded length. -/
def pushBounded {Item : Type} (bound : Nat) (items : List Item) (item : Item) : List Item :=
  (items ++ [item]).drop (items.length + 1 - bound)

def pushAll {Item : Type} (bound : Nat) (items more : List Item) : List Item :=
  more.foldl (pushBounded bound) items

variable [DecidableEq Fingerprint]

/-- `_tool_call_history` and `_tool_name_history`. -/
def remember (env : Env Args Fingerprint) (model : Model Fingerprint)
    (calls : List (ToolCall Args)) : Model Fingerprint :=
  { model with
    toolCallHistory := pushBounded 20 model.toolCallHistory (env.fingerprint calls)
    toolNameHistory := pushAll 50 model.toolNameHistory (calls.map fun call => call.name) }

def loopTool (config : Config) (model : Model Fingerprint) (names : List String) : Option String :=
  let warn := max config.loopToolWarn 1
  names.find? fun name =>
    decide (max config.loopToolHard warn ≤ model.toolNameHistory.count name)

def warnRepeat (config : Config) (model : Model Fingerprint) (fingerprint : Fingerprint) :
    Model Fingerprint :=
  if max config.loopRepeatWarn 1 ≤ model.toolCallHistory.count fingerprint ∧
      fingerprint ∉ model.loopWarned then
    { model with
      loopWarned := model.loopWarned ++ [fingerprint]
      loopWarningsPending := model.loopWarningsPending + 1 }
  else model

def warnTool (config : Config) (model : Model Fingerprint) (name : String) : Model Fingerprint :=
  if max config.loopToolWarn 1 ≤ model.toolNameHistory.count name ∧ name ∉ model.toolWarned then
    { model with
      toolWarned := model.toolWarned ++ [name]
      loopWarningsPending := model.loopWarningsPending + 1 }
  else model

/-- `_apply_loop_detection`. -/
def applyLoopDetection (env : Env Args Fingerprint) (config : Config)
    (model : Model Fingerprint) (message : Message Args) : Model Fingerprint × Message Args :=
  if config.generalChatExecutionGates = false ∨ message.toolCalls = [] then (model, message)
  else
    let model := remember env model message.toolCalls
    let names := message.toolCalls.map fun call => call.name
    let fingerprint := env.fingerprint message.toolCalls
    let repeated := max config.loopRepeatHard (max config.loopRepeatWarn 1) ≤
      model.toolCallHistory.count fingerprint
    if repeated ∨ (loopTool config model names).isSome then
      ({ model with stopReason := some .loopCapped, loopWarningsPending := 0 },
        stopToolCalls message (appendRuntimeNotice message.content loopStop)
          "Tool-call loop safety limit reached"
          { message.metadata with
            loopCapped := true
            loopTool := loopTool config model names })
    else (names.foldl (warnTool config) (warnRepeat config model fingerprint), message)

def emptyMessage : Message Args := ⟨[], [], [], {}⟩

def receive (env : Env Args Fingerprint) (config : Config) (model : Model Fingerprint)
    (response : Response Args) : Model Fingerprint × Option (Message Args) :=
  match messageFromGateway env response with
  | none => ((applyTokenBudget env config model emptyMessage response.usage).1, none)
  | some message =>
    let budget := applyTokenBudget env config model message response.usage
    let loops := applyLoopDetection env config budget.1 budget.2
    (loops.1, some loops.2)

inductive Reply (Args : Type)
  | failed
  | response (response : Response Args)

/-- One call of `_generate`, with the replies to its requests: to the first, to the one that a
protocol error asks for, and to the one that a length cap asks for. -/
structure Call (Args : Type) where
  cancelled : Bool
  control : Bool
  first : Reply Args
  recovery : Reply Args
  retry : Reply Args

structure Result (Args Fingerprint : Type) where
  model : Model Fingerprint
  message : Option (Message Args)
  received : List Usage

/-- `_consume_runtime_warnings`. -/
def consumeRuntimeWarnings (model : Model Fingerprint) : Model Fingerprint :=
  { model with budgetWarningPending := false, loopWarningsPending := 0 }

/-- `_with_protocol_recovery`. -/
def withProtocolRecovery (env : Env Args Fingerprint) (config : Config)
    (model : Model Fingerprint) (call : Call Args) : Result Args Fingerprint :=
  match call.first with
  | .failed => ⟨model, none, []⟩
  | .response first =>
    match receive env config model first with
    | (model, some message) => ⟨model, some message, [first.usage]⟩
    | (model, none) =>
      if call.control ∨ config.summarizes ∨ model.stopReason = some .tokenCapped then
        ⟨model, none, [first.usage]⟩
      else
        match call.recovery with
        | .failed => ⟨model, none, [first.usage]⟩
        | .response second =>
          let result := receive env config model second
          ⟨result.1, result.2, [first.usage, second.usage]⟩

/-- `str.split` on white space. -/
def words (text : List Char) : List (List Char) :=
  (text.splitOnP PyText.isSpace).filter (· ≠ [])

/-- `_should_retry_length_capped`. -/
def shouldRetryLengthCapped (message : Message Args) : Bool :=
  message.metadata.modelLengthCapped && message.toolCalls.isEmpty &&
    ((words message.content).isEmpty ||
      decide (words message.content = words lengthNotice.toList))

/-- `_retry_length_capped`, and its counterpart for a call that does not stream. -/
def retryLengthCapped (env : Env Args Fingerprint) (config : Config)
    (result : Result Args Fingerprint) (retry : Reply Args) : Result Args Fingerprint :=
  match retry with
  | .failed => ⟨result.model, none, result.received⟩
  | .response response =>
    match receive env config result.model response with
    | (model, none) => ⟨model, none, result.received ++ [response.usage]⟩
    | (model, some message) =>
      ⟨if message.metadata.modelLengthCapped then model else { model with stopReason := none },
        some message, result.received ++ [response.usage]⟩

/-- `_generate`; the texts of the requests are left out. -/
def generate (env : Env Args Fingerprint) (config : Config) (model : Model Fingerprint)
    (call : Call Args) : Result Args Fingerprint :=
  if call.cancelled then ⟨model, none, []⟩
  else
    let model := if call.control then model else consumeRuntimeWarnings model
    let result := withProtocolRecovery env config model call
    match result.message with
    | none => result
    | some message =>
      if shouldRetryLengthCapped message then retryLengthCapped env config result call.retry
      else result

/-- What `export_runtime_state` returns. -/
structure Durable (Fingerprint : Type) where
  runTokenUsage : TokenUsage
  stopReason : Option StopReason
  toolCallHistory : List Fingerprint
  toolNameHistory : List String
  loopWarned : List Fingerprint
  toolWarned : List String
  budgetWarned : Bool

def exportRuntimeState (config : Config) (model : Model Fingerprint) : Durable Fingerprint where
  runTokenUsage := tokenUsage config model
  stopReason := model.stopReason
  toolCallHistory := model.toolCallHistory
  toolNameHistory := model.toolNameHistory
  loopWarned := model.loopWarned
  toolWarned := model.toolWarned
  budgetWarned := model.budgetWarned

def metadataReason (metadata : Metadata) : Option StopReason :=
  if metadata.tokenCapped then some .tokenCapped
  else if metadata.loopCapped then some .loopCapped
  else if metadata.safetyTerminated then some .safetyTerminated
  else if metadata.modelLengthCapped then some .modelLengthCapped
  else none

def TokenUsage.sup (left right : TokenUsage) : TokenUsage :=
  ⟨max left.prompt right.prompt, max left.completion right.completion,
    max left.total right.total⟩

def restoredUsage (usage : TokenUsage) (messages : List (Message Args)) : TokenUsage :=
  messages.foldl (fun usage message =>
    match message.metadata.runTokenUsage with
    | some candidate => usage.sup candidate
    | none => usage) usage

def restoredReason (reason : Option StopReason) (messages : List (Message Args)) :
    Option StopReason :=
  messages.foldl (fun reason message => reason.or (metadataReason message.metadata)) reason

/-- `_merge_runtime_history`. -/
def mergeRuntimeHistory {Item : Type} [DecidableEq Item] (durable messages : List Item) :
    List Item :=
  messages.foldl (fun merged value =>
    if messages.count value ≤ merged.count value then merged else merged ++ [value]) durable

def withCalls (messages : List (Message Args)) : List (List (ToolCall Args)) :=
  (messages.map fun message => message.toolCalls).filter fun calls => !calls.isEmpty

/-- The stop reason and the warning that the restored total calls for. -/
def recapped (env : Env Args Fingerprint) (config : Config) (model : Model Fingerprint) :
    Model Fingerprint :=
  let limit := config.tokenBudgetMaxTokens
  let reserve := min config.tokenBudgetFinalReserveTokens limit
  let total := model.runTokenUsage.total
  if limit ≠ 0 ∧ limit ≤ total then
    { model with stopReason := some .tokenCapped, wrapupEvent := true }
  else if limit ≠ 0 ∧ reserve ≠ 0 ∧ limit - reserve ≤ total then
    { model with stopReason := some .tokenBudgetWrapup, wrapupEvent := true }
  else if limit ≠ 0 ∧ env.restoredWarns limit total = true then
    { model with budgetWarned := true, budgetWarningPending := true }
  else model

/-- `restore_runtime_state` of a new model, from the state that was exported and the messages
of the checkpoint. -/
def restoreRuntimeState (env : Env Args Fingerprint) (config : Config)
    (messages : List (Message Args)) (durable : Durable Fingerprint) : Model Fingerprint :=
  let usage := restoredUsage durable.runTokenUsage messages
  let fingerprints := pushAll 20 [] (mergeRuntimeHistory durable.toolCallHistory
    ((withCalls messages).map env.fingerprint))
  let names := pushAll 50 [] (mergeRuntimeHistory durable.toolNameHistory
    ((withCalls messages).flatten.map fun call => call.name))
  recapped env config {
    runTokenUsage := usage
    sharedUsage := if config.shared then usage else noUsage
    budgetWarningPending := false
    budgetWarned := durable.budgetWarned
    loopWarningsPending := 0
    toolCallHistory := fingerprints
    toolNameHistory := names
    loopWarned := durable.loopWarned ++ fingerprints.filter fun fingerprint =>
      decide (max config.loopRepeatWarn 1 ≤ fingerprints.count fingerprint)
    toolWarned := durable.toolWarned ++ names.filter fun name =>
      decide (max config.loopToolWarn 1 ≤ names.count name)
    stopReason := restoredReason durable.stopReason messages
    wrapupEvent := false }

/-- A run with the usage of all the responses received, and the messages that calls returned,
each with the total at its return. -/
structure Run (Args Fingerprint : Type) where
  model : Model Fingerprint
  received : List Usage
  returned : List (Message Args × Nat)

inductive Action (Args : Type)
  | call (call : Call Args)
  /-- Export, and restore with these messages in the state of the graph. -/
  | roundTrip (messages : List (Message Args))

def afterCall (env : Env Args Fingerprint) (config : Config) (run : Run Args Fingerprint)
    (call : Call Args) : Run Args Fingerprint :=
  let result := generate env config run.model call
  let total := (tokenUsage config result.model).total
  ⟨result.model, run.received ++ result.received,
    run.returned ++ result.message.toList.map fun message => (message, total)⟩

def afterRoundTrip (env : Env Args Fingerprint) (config : Config) (run : Run Args Fingerprint)
    (messages : List (Message Args)) : Run Args Fingerprint :=
  { run with
    model := restoreRuntimeState env config messages (exportRuntimeState config run.model) }

def step (env : Env Args Fingerprint) (config : Config) (run : Run Args Fingerprint) :
    Action Args → Option (Run Args Fingerprint)
  | .call call => some (afterCall env config run call)
  | .roundTrip messages => some (afterRoundTrip env config run messages)

def start : Run Args Fingerprint := ⟨freshModel, [], []⟩

end SourceLens.RunGuardrails
