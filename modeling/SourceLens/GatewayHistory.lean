import SourceLens.GatewayStream
import SourceLens.UserInput

/-! The messages of a call as the gateway gets them (`_messages_to_gateway`). -/

namespace SourceLens.GatewayHistory

open GatewayStream (orElse)
open TextSub (Text literal)
open UserInput (WordClass neutralize neutralizeUntrustedText wrapUserInput)

structure Call where
  name : String
  args : List (String × Json)
  id : Option String

structure InvalidCall where
  id : Option String

structure AiMessage where
  content : Json
  toolCalls : List Call
  invalidToolCalls : List InvalidCall

structure ToolMessage where
  content : Json
  name : Option String
  toolCallId : String

structure OtherType where
  name : String
  notSystem : name ≠ "system"
  notHuman : name ≠ "human"
  notTool : name ≠ "tool"
  notAi : name ≠ "ai"

inductive Message
  | system (content : Json)
  | human (content : Json) (additionalKwargs : List (String × Json))
  | ai (message : AiMessage)
  | tool (message : ToolMessage)
  | other (type : OtherType) (content : Json)

structure GatewayCall where
  id : Option String
  name : String
  arguments : String

structure Payload where
  role : String
  content : Json
  toolCallId : Option String := none
  toolCalls : List GatewayCall := []

/-- `json.loads` of a text: a value, a `JSONDecodeError`, or another exception. -/
inductive Loaded
  | value (json : Json)
  | undecodable
  | raised

structure Env where
  words : WordClass
  isDigit : Char → Bool
  loads : String → Loaded
  /-- `json.dumps(value, ensure_ascii=False)` -/
  dumps : Json → String
  /-- `str(value)` of a value that is no string -/
  repr : Json → String
  upper : String → String
  /-- `int(text)`; `none` for a `ValueError` -/
  intOf : String → Option Int

variable (env : Env)

def str : Json → String
  | .str text => text
  | value => env.repr value

/-- `marker in text`. -/
def includes (text marker : String) : Bool :=
  text.toList.tails.any fun rest => marker.toList.isPrefixOf rest

def toolErrorCode (result : List (String × Json)) : String :=
  let error :=
    match Json.getOrNull result "error" with
    | .obj fields => orElse (orElse (Json.getOrNull fields "code") (Json.getOrNull fields "type"))
        (Json.getOrNull fields "message")
    | error => error
  env.upper (str env (orElse (orElse error (Json.getOrNull result "code")) (.str "")))

def diagnosticOf (result : List (String × Json)) : String :=
  env.upper (" ".intercalate (["error", "code", "message", "detail", "stderr"].map fun key =>
    str env (orElse (Json.getOrNull result key) (.str ""))))

/-- `5\d{2}\b` -/
def serverCode : Text → Bool
  | five :: second :: third :: rest =>
    decide (five = '5') && env.isDigit second && env.isDigit third &&
      env.words.isWord third != rest.head?.any env.words.isWord
  | _ => false

/-- `\b(?:HTTP\s*)?5\d{2}\b` at a place behind a word character or not. -/
def serverFailureAt (behind : Bool) (text : Text) : Bool :=
  behind != text.head?.any env.words.isWord &&
    (serverCode env text || (literal (decide <| · = ·) "HTTP".toList text).any fun rest =>
      serverCode env (rest.dropWhile PyText.isSpace))

def serverFailure : Bool → Text → Bool
  | _, [] => false
  | behind, c :: rest =>
    serverFailureAt env behind (c :: rest) || serverFailure (env.words.isWord c) rest

/-- `int(value)`, with zero for a `TypeError` or a `ValueError`; `none` for the
`OverflowError` of an infinite number. -/
def statusCode : Json → Option Int
  | .bool value => some (if value then 1 else 0)
  | .int value => some value
  | .float value => some (value.num.tdiv value.den)
  | .nonFinite name => if name = "NaN" then some 0 else none
  | .str text => some ((env.intOf text).getD 0)
  | _ => some 0

def errorMetadata (errorType : String) (recoverable : Bool) (action source : String) : Json :=
  .obj [("status", .str "error"), ("error_type", .str errorType),
    ("recoverable_by_model", .bool recoverable), ("recommended_next_action", .str action),
    ("source", .str source)]

def toolResultMetadata (result : List (String × Json)) (toolName : String) : Option Json :=
  match Json.getOrNull result "ok" with
  | .bool true => some (.obj [("status", .str "success"), ("source", .str toolName)])
  | _ =>
    let errorCode := toolErrorCode env result
    let diagnostic := diagnosticOf env result
    let cliRequestFailure :=
      ["404", "NOTFOUND", "NOT FOUND", "UNKNOWN FLAG", "INVALID ARGUMENT", "USAGE:",
        "数据不存在"].any (includes diagnostic)
    let cliServerFailure := serverFailure env false diagnostic.toList
    (statusCode env (orElse (Json.getOrNull result "status_code") (.int 0))).map fun status =>
      let upstreamAuthFailure := decide (status = 401) || decide (status = 403)
      let upstreamRequestFailure :=
        decide (400 ≤ status) && decide (status < 500) && !upstreamAuthFailure
      let upstreamServerFailure := decide (500 ≤ status) && decide (status < 600)
      if upstreamAuthFailure ||
          ["AUTH", "CONFIG", "CREDENTIAL", "PERMISSION"].any (includes errorCode) then
        errorMetadata "configuration" false
          "Stop retrying this tool and report the configuration or authorization requirement."
          toolName
      else if cliServerFailure || upstreamServerFailure ||
          ["HTTP_REQUEST_FAILED", "RATE_LIMIT", "TIMEOUT"].any (includes errorCode) then
        errorMetadata "transient" true
          "Retry this tool at most once, then report the failure if it persists." toolName
      else if ["BUDGET", "LOOP", "POLICY", "REPEATED", "STALLED"].any (includes errorCode) then
        errorMetadata "policy" false
          ("Stop calling this tool and synthesize the answer from evidence " ++
            "already collected.") toolName
      else if upstreamRequestFailure || cliRequestFailure ||
          ["INVALID", "MALFORMED", "NOT_FOUND", "PARSE", "PATH", "SCHEMA", "SYNTAX",
            "VALIDATION"].any (includes errorCode) ||
          ["INVALID QUERY", "INVALID EXPRESSION", "SQL SYNTAX", "SYNTAX ERROR", "UNKNOWN FLAG",
            "UNKNOWN JSON FIELD", "USAGE:", "VALIDATION ERROR", "RESPONSE VALIDATION",
            "MUST NOT BE EMPTY", "MISSING REQUIRED"].any (includes diagnostic) then
        errorMetadata "request" true "Correct the tool arguments before retrying." toolName
      else
        errorMetadata "tool" true
          ("Correct the request once or use another available capability; " ++
            "do not repeat the same failing call beyond that.") toolName

def contentToText : Json → Json
  | .str text => .str text
  | .arr items => .arr items
  | content => .str (env.dumps content)

def remoteDataTools : List String :=
  ["analyze_structured_output", "call_skill_api", "inspect_saved_output", "run_skill_transform",
    "tool_search"]

/-- The result with its metadata; `none` for an exception that is not caught. -/
def withMetadata (recovery : Bool) (toolName text : String) : Option String :=
  match env.loads text with
  | .raised => none
  | .value (.obj result) =>
    if recovery && (Json.get? result "ok").isSome then
      (toolResultMetadata env result toolName).map fun metadata =>
        env.dumps (.obj (Json.setField result "result_meta" metadata))
    else some text
  | _ => some text

def toolResultForGateway (recovery : Bool) (content : Json) (toolName : String) : Option Json :=
  match contentToText env content with
  | .str text =>
    (withMetadata env recovery toolName text).map fun text =>
      if remoteDataTools.any (decide <| · = toolName) ||
          "mcp__".toList.isPrefixOf toolName.toList then
        .str (String.ofList (neutralizeUntrustedText env.words false text.toList))
      else .str text
  | content => some content

def callToGateway (call : Call) : Option GatewayCall :=
  if call.name = "" then none
  else some ⟨call.id, call.name, env.dumps (.obj call.args)⟩

def toolCallsToGateway (calls : List Call) : List GatewayCall :=
  calls.filterMap (callToGateway env)

def messageToGateway (recovery : Bool) : Message → Option Payload
  | .system content => some { role := "system", content := contentToText env content }
  | .human content additionalKwargs =>
    let text := contentToText env content
    some { role := "user", content :=
      if (Json.getOrNull additionalKwargs "hide_from_ui").truthy then text
      else wrapUserInput env.words text }
  | .tool message =>
    (toolResultForGateway env recovery message.content (message.name.getD "")).map fun content =>
      { role := "tool", content, toolCallId := some message.toolCallId }
  | .ai message =>
    some { role := "assistant", content := contentToText env message.content,
           toolCalls := toolCallsToGateway env message.toolCalls }
  | .other type content => some { role := type.name, content := contentToText env content }

def feedbackHeader : String := "Tool-call recovery feedback (the tool was not executed):\n"

def feedbackOf (payload : Payload) : Payload where
  role := "user"
  content := .str (feedbackHeader ++ neutralize env.words (str env payload.content))

structure History where
  output : List Payload := []
  recoveryFeedback : List Payload := []
  invalidIds : List String := []

def isValid (message : AiMessage) (id : String) : Bool :=
  message.toolCalls.any fun call => decide (call.id = some id)

def isInvalid (message : AiMessage) (id : String) : Bool :=
  message.invalidToolCalls.any fun call => decide (call.id = some id)

def invalidIdsOf (message : AiMessage) : List String :=
  (message.invalidToolCalls.filterMap InvalidCall.id).filter fun id =>
    decide (id ≠ "") && !isValid message id

def place (history : History) (payload : Payload) : Message → History
  | .tool message =>
    if history.invalidIds.any (decide <| · = message.toolCallId) then
      { history with recoveryFeedback := history.recoveryFeedback ++ [feedbackOf env payload] }
    else { history with output := history.output ++ [payload] }
  | .ai message =>
    ⟨history.output ++ history.recoveryFeedback ++ [payload], [], invalidIdsOf message⟩
  | _ => ⟨history.output ++ history.recoveryFeedback ++ [payload], [], history.invalidIds⟩

def take (recovery : Bool) (history : History) (message : Message) : Option History :=
  (messageToGateway env recovery message).map fun payload => place env history payload message

def messagesToGateway (recovery : Bool) (messages : List Message) : Option (List Payload) :=
  (messages.foldlM (take env recovery) {}).map fun history =>
    history.output ++ history.recoveryFeedback

end SourceLens.GatewayHistory
