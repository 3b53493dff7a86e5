import SourceLens.Library.Frames
import SourceLens.Library.JsonText

/-! The event stream of a model call: what the gateway writes for each event, and what
the node reads from the pieces of the body. -/

namespace SourceLens.GatewayStream

open JsonText PyText TextLines

inductive Kind
  | content
  | reasoning
  | toolCall
  deriving DecidableEq

def Kind.name : Kind → String
  | .content => "content"
  | .reasoning => "reasoning"
  | .toolCall => "tool_call"

inductive RetryCode
  | modelUnavailable
  | modelStreamError
  deriving DecidableEq

def RetryCode.text : RetryCode → String
  | .modelUnavailable => "MODEL_UNAVAILABLE"
  | .modelStreamError => "MODEL_STREAM_ERROR"

inductive Event
  | token (kind : Kind) (text : String)
  | retry (code : RetryCode) (attempt : Nat)
  | heartbeat
  deriving DecidableEq

inductive Terminal
  /-- The provider's tool calls (`None` when it made none), its finish reason, and what
  is left of its result. -/
  | done (toolCalls finishReason : Json) (usage : List (String × Json)) (lensnodeUuid : String)
  | error (code message : String)

/-- `value or default`. -/
def orElse (value default : Json) : Json := if value.truthy then value else default

def Event.json : Event → Json
  | .token kind text =>
    .obj [("type", .str "token"), ("kind", .str kind.name), ("content", .str text)]
  | .retry code attempt =>
    .obj [("type", .str "retry"), ("code", .str code.text), ("attempt", .int attempt)]
  | .heartbeat => .obj [("type", .str "heartbeat")]

def Terminal.json : Terminal → Json
  | .done toolCalls finishReason usage lensnodeUuid =>
    .obj [("type", .str "done"), ("tool_calls", orElse toolCalls (.arr [])),
      ("finish_reason", finishReason), ("usage", .obj usage),
      ("lensnode_uuid", .str lensnodeUuid)]
  | .error code message =>
    .obj [("type", .str "error"),
      ("error", .obj [("code", .str code), ("message", .str message)])]

/-- `"data: "`. -/
def dataPrefix : List Char := ['d', 'a', 't', 'a', ':', ' ']

/-- `_sse`, up to the blank line that ends the event. -/
def dataLine (floatText : ℚ → List Char) (event : Json) : List Char :=
  dataPrefix ++ dumps floatText event

def sse (floatText : ℚ → List Char) (event : Json) : List Char :=
  Frames.framed '\n' (dataLine floatText event)

def published (events : List Event) (terminal : Terminal) : List Json :=
  events.map Event.json ++ [terminal.json]

def body (floatText : ℚ → List Char) (events : List Event) (terminal : Terminal) : List Char :=
  (published events terminal).flatMap (sse floatText)

/-- What the node's model was set up with, and what it asks of one call. -/
structure Setup where
  publishTokens : Bool
  emitsOutput : Bool
  /-- The call is a subagent's. -/
  silent : Bool
  readsReasoning : Bool
  readsToolCalls : Bool
  readsRetries : Bool
  watchesActivity : Bool
  records : Bool
  /-- `TOOL_PROTOCOL_PREFIX.match`. -/
  protocolPrefix : List Char → Bool

inductive Effect
  | activity
  | firstToken (kind : Json)
  | output (text : Json)
  | reasoning (text : Json)
  | toolCall (delta : List (String × Json))
  | retry (event : List (String × Json))

inductive Raised
  /-- `GatewayStreamError`. -/
  | gatewayStream (code message : Json)
  | attributeError
  | typeError
  deriving DecidableEq

structure Reader where
  contentParts : List Json := []
  publishedParts : Nat := 0
  outputPrefixChecked : Bool := false
  protocolText : Bool := false
  toolCalls : Json := .arr []
  usage : Json := .obj []
  finishReason : Json := .null
  reasoningParts : List Json := []
  firstToken : Bool := false
  doneReceived : Bool := false
  raised : Option Raised := none
  effects : List Effect := []
  /-- The non-empty deltas reached, with their kinds. -/
  received : List (Json × Json) := []

/-- `"".join(parts)`; `none` where a part is not a string. -/
def joinParts : List Json → Option (List Char)
  | [] => some []
  | .str text :: parts => (joinParts parts).map (text.toList ++ ·)
  | _ :: _ => none

namespace Reader

def call (reader : Reader) (wanted : Bool) (effect : Effect) : Reader :=
  if wanted then { reader with effects := reader.effects ++ [effect] } else reader

def fail (reader : Reader) (error : Raised) : Reader := { reader with raised := some error }

/-- Settle whether the answer starts like a tool call written out as text. -/
def checkPrefix (setup : Setup) (reader : Reader) : Reader :=
  if reader.outputPrefixChecked then reader
  else
    match joinParts reader.contentParts with
    | none => reader.fail .typeError
    | some whole =>
      let start := stripLeft isSpace whole
      if start ≠ [] ∧ ¬(start.head? = some '<' ∧ '>' ∉ start) then
        { reader with outputPrefixChecked := true, protocolText := setup.protocolPrefix start }
      else reader

/-- Emit the parts that are not emitted yet, once the prefix allows it. -/
def publishParts (reader : Reader) : Reader :=
  if reader.raised.isNone && reader.outputPrefixChecked && !reader.protocolText then
    { reader with
      effects := reader.effects ++
        (reader.contentParts.drop reader.publishedParts).map Effect.output
      publishedParts := reader.contentParts.length }
  else reader

def takeContent (setup : Setup) (reader : Reader) (text : Json) : Reader :=
  let taken := { reader with contentParts := reader.contentParts ++ [text] }
  if setup.publishTokens && setup.emitsOutput && !setup.silent then
    (taken.checkPrefix setup).publishParts
  else taken

def toolDelta (loads : List Char → Option Json) : Json → Option (List (String × Json))
  | .str text =>
    match loads text.toList with
    | some (.obj delta) => some delta
    | _ => none
  | _ => none

def takeToolCall (setup : Setup) (loads : List Char → Option Json) (reader : Reader)
    (text : Json) : Reader :=
  if setup.readsToolCalls && !setup.silent then
    match toolDelta loads text with
    | some delta => reader.call true (.toolCall delta)
    | none => reader
  else reader

def takeFirst (setup : Setup) (reader : Reader) (kind : Json) : Reader :=
  if reader.firstToken then reader
  else { reader.call setup.records (.firstToken kind) with firstToken := true }

def takeKind (setup : Setup) (loads : List Char → Option Json) (reader : Reader)
    (kind text : Json) : Reader :=
  if kind = .str "content" then reader.takeContent setup text
  else if kind = .str "reasoning" then
    { reader with reasoningParts := reader.reasoningParts ++ [text] }.call setup.readsReasoning
      (.reasoning text)
  else if kind = .str "tool_call" then reader.takeToolCall setup loads text
  else reader

def takeToken (setup : Setup) (loads : List Char → Option Json) (reader : Reader)
    (data : List (String × Json)) : Reader :=
  let kind := orElse (Json.getOrNull data "kind") (.str "content")
  let text := orElse (Json.getOrNull data "content") (.str "")
  if text.truthy then
    { reader.takeFirst setup kind with received := reader.received ++ [(kind, text)] }.takeKind
      setup loads kind text
  else reader

def takeDone (reader : Reader) (data : List (String × Json)) : Reader :=
  { reader with
    doneReceived := true
    usage := orElse (Json.getOrNull data "usage") (.obj [])
    toolCalls := orElse (Json.getOrNull data "tool_calls") (.arr [])
    finishReason := Json.getOrNull data "finish_reason" }

def takeError (reader : Reader) (data : List (String × Json)) : Reader :=
  match orElse (Json.getOrNull data "error") (.obj []) with
  | .obj error =>
    reader.fail (.gatewayStream (Json.getOrNull error "code") (Json.getOrNull error "message"))
  | _ => reader.fail .attributeError

def takeEvent (setup : Setup) (loads : List Char → Option Json) (reader : Reader)
    (data : List (String × Json)) : Reader :=
  let type := Json.getOrNull data "type"
  if type = .str "token" then reader.takeToken setup loads data
  else if type = .str "done" then reader.takeDone data
  else if type = .str "retry" then reader.call setup.readsRetries (.retry data)
  else if type = .str "error" then reader.takeError data
  else reader

def takeData (setup : Setup) (loads : List Char → Option Json) (reader : Reader)
    (data : Json) : Reader :=
  let active := reader.call setup.watchesActivity .activity
  match data with
  | .obj fields => active.takeEvent setup loads fields
  | _ => active.fail .attributeError

/-- One line of an event; nothing is read once an exception is up. -/
def takeLine (setup : Setup) (loads : List Char → Option Json) (reader : Reader)
    (line : List Char) : Reader :=
  if reader.raised.isSome || !dataPrefix.isPrefixOf line then reader
  else
    match loads (line.drop dataPrefix.length) with
    | none => reader
    | some data => reader.takeData setup loads data

def takeFrame (setup : Setup) (loads : List Char → Option Json) (reader : Reader)
    (frame : List Char) : Reader :=
  (splitlines frame).foldl (takeLine setup loads) reader

end Reader

inductive Ending
  | finished (content : List Char) (usage toolCalls finishReason : Json)
  | raised (error : Raised)
  deriving DecidableEq

def endedEarly : Raised :=
  .gatewayStream (.str "MODEL_STREAM_ERROR") (.str "AI gateway stream ended before completion.")

def Reader.ending (reader : Reader) : Ending :=
  match reader.raised with
  | some error => .raised error
  | none =>
    if reader.doneReceived then
      match joinParts reader.contentParts with
      | some content =>
        .finished content reader.usage reader.toolCalls reader.finishReason
      | none => .raised .typeError
    else .raised endedEarly

/-- `_generate_streaming` over the pieces of a body, up to its joined content. -/
def generateStreaming (setup : Setup) (loads : List Char → Option Json)
    (pieces : List (List Char)) : Reader :=
  (Frames.feedAll '\n' (Reader.takeFrame setup loads) ({}, []) pieces).1

def chunks (events : List Event) : List (Kind × String) :=
  events.filterMap fun event =>
    match event with
    | .token kind text => if text = "" then none else some (kind, text)
    | _ => none

def readAs (chunk : Kind × String) : Json × Json := (.str chunk.1.name, .str chunk.2)

def contentOf (events : List Event) : List Char :=
  ((chunks events).filter fun chunk => chunk.1 = .content).flatMap fun chunk => chunk.2.toList

def Terminal.ending (content : List Char) : Terminal → Ending
  | .done toolCalls finishReason usage _ =>
    .finished content (.obj usage) (orElse toolCalls (.arr [])) finishReason
  | .error code message => .raised (.gatewayStream (.str code) (.str message))

/-- The non-empty chunks in order with kind and text, and the same terminal event. -/
def GivesBack (reader : Reader) (events : List Event) (terminal : Terminal) : Prop :=
  reader.received = (chunks events).map readAs ∧
    reader.ending = terminal.ending (contentOf events)

end SourceLens.GatewayStream
