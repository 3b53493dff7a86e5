import SourceLens.GatewayStreamRuns
import SourceLens.RunGuardrails
import SourceLens.UserInput
import Mathlib.Data.List.DropRight

/-! What the user is shown of a streamed model call (`_generate_streaming`): the text of an
answer as it comes, and nothing of a tool call written out as text. -/

namespace SourceLens.PublishedAnswer

open GatewayStream List
open PyText (isSpace strip)
open TextSub (Text literal)
open UserInput (WordClass space wordEnd)

/-! ### `TOOL_PROTOCOL_PREFIX` -/

/-- `[｜|]` for a bar of the pattern. -/
def sameMark (p c : Char) : Bool := decide (c = p) || (decide (p = '|') && decide (c = '｜'))

def protocolMark : Text := ['<', '|', '|', 'D', 'S', 'M', 'L', '|', '|']

def protocolHead (text : Text) : Option Text :=
  (literal sameMark protocolMark (text.dropWhile isSpace)).bind fun rest =>
    (space rest).bind fun rest => some (rest.dropWhile isSpace)

def protocolWords : List Text := [['c', 'a', 'l', 'l', 's'], ['i', 'n', 'v', 'o', 'k', 'e']]

def toolProtocolPrefix (words : WordClass) (text : Text) : Bool :=
  (protocolHead text).any fun rest =>
    protocolWords.any fun word => (literal (decide <| · = ·) word rest).any (wordEnd words)

/-- `json.loads` of a text: a value, the message of a `JSONDecodeError`, or another exception. -/
inductive Loaded
  | value (json : Json)
  | invalid (message : String)
  | raised

structure Env where
  words : WordClass
  loads : String → Loaded
  /-- `str(value)` of a value that is no string -/
  repr : Json → String
  lower : List Char → List Char

/-- The arguments of a call: `null` is let through. -/
abbrev Args := Option (List (String × Json))

def strOf (env : Env) : Json → String
  | .str text => text
  | value => env.repr value

/-- `none` for an exception that is not caught. -/
def readArguments (env : Env) : Json → Option (Except String Args)
  | .obj fields => some (.ok (some fields))
  | .str text =>
    match env.loads (if text = "" then "{}" else text) with
    | .raised => none
    | .invalid message => some (.error ("Invalid JSON arguments: " ++ message))
    | .value (.obj fields) => some (.ok (some fields))
    | .value .null => some (.ok none)
    | .value _ => some (.error "Tool arguments must decode to a JSON object.")
  | _ => some (.error "Tool arguments must be a JSON object.")

def stripped (env : Env) (value : Json) : String :=
  String.ofList (strip isSpace (strOf env (orElse value (.str ""))).toList)

def readCall (env : Env) : Json → Option (RunGuardrails.RawCall Args)
  | .obj fields =>
    match orElse (Json.getOrNull fields "function") (.obj []) with
    | .obj function =>
      (readArguments env (Json.getOrNull function "arguments")).map fun args =>
        { name := stripped env (Json.getOrNull function "name"), args,
          id := stripped env (Json.getOrNull fields "id") }
    | _ => none
  | _ => none

def readCalls (env : Env) : Json → Option (List (RunGuardrails.RawCall Args))
  | .arr items => items.mapM (readCall env)
  | _ => none

def reasonOf (env : Env) : Json → Option String
  | .null => none
  | reason => some (strOf env reason)

/-- The parsing of a message asks for no fingerprint and no budget. -/
def guard (env : Env) : RunGuardrails.Env Args Unit where
  lower := env.lower
  protocolPrefix := toolProtocolPrefix env.words
  fingerprint _ := ()
  warns _ _ := false
  restoredWarns _ _ := false

inductive Outcome
  | failed
  /-- The response is discarded. -/
  | protocolError
  | message (message : RunGuardrails.Message Args)

structure Answer where
  effects : List Effect
  outcome : Outcome

def withPrefix (env : Env) (setup : Setup) : Setup :=
  { setup with protocolPrefix := toolProtocolPrefix env.words }

def takeDecoded (env : Env) (setup : Setup) (loads : List Char → Option Json) (reader : Reader)
    (data : Json) : Reader :=
  if reader.raised.isSome then reader else reader.takeData (withPrefix env setup) loads data

def readEvents (env : Env) (setup : Setup) (loads : List Char → Option Json)
    (events : List Event) : Reader :=
  (events.map Event.json).foldl (takeDecoded env setup loads) {}

def publishRest (setup : Setup) (suppressOutput : Bool) (reader : Reader) (content : List Char)
    (toolCalls : Json) : List Effect :=
  if setup.emitsOutput && !setup.silent && !content.isEmpty && !toolCalls.truthy &&
      !setup.publishTokens && !suppressOutput then
    reader.effects ++ [.output (.str (String.ofList content))]
  else if setup.publishTokens && setup.emitsOutput && !setup.silent && !toolCalls.truthy then
    reader.effects ++ (reader.contentParts.drop reader.publishedParts).map Effect.output
  else reader.effects

def finish (env : Env) (setup : Setup) (suppressOutput : Bool) (reader : Reader) : Answer :=
  match reader.ending with
  | .raised _ => ⟨reader.effects, .failed⟩
  | .finished content _ toolCalls finishReason =>
    match readCalls env toolCalls with
    | none => ⟨reader.effects, .failed⟩
    | some calls =>
      match RunGuardrails.messageFromGateway (guard env)
          ⟨content, reasonOf env finishReason, calls, ⟨none, none, none, none, none⟩⟩ with
      | none => ⟨reader.effects, .protocolError⟩
      | some message =>
        -- a message is not built from arguments that are no object
        if message.toolCalls.any fun call => call.args.isNone then ⟨reader.effects, .failed⟩
        else ⟨publishRest setup suppressOutput reader content toolCalls, .message message⟩

def generateStreaming (env : Env) (setup : Setup) (loads : List Char → Option Json)
    (suppressOutput : Bool) (events : List Event) (terminal : Option Terminal) : Answer :=
  finish env setup suppressOutput
    ((terminal.toList.map Terminal.json).foldl (takeDecoded env setup loads)
      (readEvents env setup loads events))

def emitted (effects : List Effect) : List Json :=
  effects.filterMap fun effect =>
    match effect with
    | .output text => some text
    | _ => none

def shownText (effects : List Effect) : List Char :=
  (emitted effects).flatMap fun text =>
    match text with
    | .str text => text.toList
    | _ => []

structure Publishes (setup : Setup) : Prop where
  tokens : setup.publishTokens = true
  output : setup.emitsOutput = true
  loud : setup.silent = false

def NoToolCalls (terminal : Option Terminal) : Prop :=
  ∀ toolCalls finishReason usage lensnodeUuid,
    terminal = some (.done toolCalls finishReason usage lensnodeUuid) → toolCalls.truthy = false

structure Published (env : Env) (setup : Setup) (loads : List Char → Option Json)
    (events : List Event) (terminal : Option Terminal) (answer : Answer) : Prop where
  hidden : toolProtocolPrefix env.words (contentOf events) = true → emitted answer.effects = []
  underway : ∀ front, front <+: events → ∀ shown, shown <+: (readEvents env setup loads front).effects →
    shownText shown <+: contentOf front
  partly : ∀ shown, shown <+: answer.effects → shownText shown <+: contentOf events
  whole : ∀ message, answer.outcome = .message message → NoToolCalls terminal →
    shownText answer.effects = contentOf events
  discarded : answer.outcome = .protocolError → emitted answer.effects = []

def Stops (mark : Char) (read : Text → Option Text) : Prop :=
  ∀ front, (∀ more, read (front ++ mark :: more) = none) ∨
    ∃ kept, ∀ more, read (front ++ mark :: more) = some (kept ++ mark :: more)

variable {mark : Char} {read next : Text → Option Text}

theorem Stops.bind (first : Stops mark read) (second : Stops mark next) :
    Stops mark fun text => (read text).bind next := by
  intro front
  rcases first front with none' | ⟨kept, some'⟩
  · refine .inl fun more => ?_
    simp only [none' more, Option.bind_none]
  · rcases second kept with none' | ⟨other, more'⟩
    · refine .inl fun more => ?_
      simp only [some' more, Option.bind_some, none' more]
    · refine .inr ⟨other, fun more => ?_⟩
      simp only [some' more, Option.bind_some, more' more]

theorem stops_literal {same : Char → Char → Bool} {pattern : Text}
    (other : ∀ p ∈ pattern, same p mark = false) : Stops mark (literal same pattern) := by
  induction pattern with
  | nil => exact fun front => .inr ⟨front, fun more => rfl⟩
  | cons p pattern ih =>
    have inner := ih fun q member => other q (mem_cons_of_mem _ member)
    intro front
    cases front with
    | nil =>
      refine .inl fun more => ?_
      rw [nil_append, literal, other p mem_cons_self]
      rfl
    | cons c front =>
      by_cases agrees : same p c = true
      · refine (inner front).imp (fun none' more => ?_) (fun kept => ?_)
        · rw [cons_append, literal, if_pos agrees, none']
        · obtain ⟨kept, some'⟩ := kept
          refine ⟨kept, fun more => ?_⟩
          rw [cons_append, literal, if_pos agrees, some']
      · refine .inl fun more => ?_
        rw [cons_append, literal, if_neg agrees]

theorem stops_dropWhile {skip : Char → Bool} (other : skip mark = false) :
    Stops mark fun text => some (text.dropWhile skip) := by
  intro front
  refine .inr ⟨front.dropWhile skip, fun more => ?_⟩
  induction front with
  | nil => simp [other]
  | cons c front ih =>
    by_cases skipped : skip c = true
    · simpa [skipped] using ih
    · simp [skipped]

theorem stops_space (other : isSpace mark = false) : Stops mark space := by
  intro front
  cases front with
  | nil => exact .inl fun more => by simp [space, other]
  | cons c front =>
    by_cases blank : isSpace c = true
    · exact .inr ⟨front, fun more => by simp [space, blank]⟩
    · exact .inl fun more => by simp [space, blank]

theorem stops_protocolHead : Stops '>' protocolHead :=
  (stops_dropWhile rfl).bind ((stops_literal (by simp [protocolMark, sameMark])).bind
    ((stops_space rfl).bind (stops_dropWhile rfl)))

theorem word_stops (words : WordClass) {word : Text}
    (other : ∀ p ∈ word, decide (p = mark) = false) (kept more others : Text) :
    (literal (decide <| · = ·) word (kept ++ mark :: more)).any (wordEnd words) =
      (literal (decide <| · = ·) word (kept ++ mark :: others)).any (wordEnd words) := by
  have stops : Stops mark (literal (decide <| · = ·) word) := stops_literal other
  rcases stops kept with none' | ⟨rest, some'⟩
  · rw [none', none']
  · rw [some', some']
    cases rest with
    | nil => rfl
    | cons c rest => rfl

theorem toolProtocolPrefix_append (words : WordClass) {text : Text} (closed : '>' ∈ text)
    (more : Text) : toolProtocolPrefix words (text ++ more) = toolProtocolPrefix words text := by
  obtain ⟨front, back, rfl⟩ := append_of_mem closed
  rw [append_assoc, cons_append, toolProtocolPrefix, toolProtocolPrefix]
  rcases stops_protocolHead front with none' | ⟨kept, some'⟩
  · rw [none', none']
  · rw [some', some', Option.any_some, Option.any_some]
    simp only [protocolWords, any_cons, any_nil, Bool.or_false]
    exact congrArg₂ (· || ·) (word_stops words (by simp) kept _ _)
      (word_stops words (by simp) kept _ _)

theorem toolProtocolPrefix_strip (words : WordClass) (text : Text) :
    toolProtocolPrefix words (text.dropWhile isSpace) = toolProtocolPrefix words text := by
  rw [toolProtocolPrefix, protocolHead, dropWhile_idempotent]
  rfl

theorem toolProtocolPrefix_opens {words : WordClass} {c : Char} {rest : Text}
    (other : c ≠ '<') (visible : isSpace c = false) :
    toolProtocolPrefix words (c :: rest) = false := by
  have none' : literal sameMark protocolMark (c :: rest) = none := by
    rw [protocolMark, literal, if_neg]
    simp [sameMark, other]
  rw [toolProtocolPrefix, protocolHead, dropWhile_cons_of_neg (by simp [visible]), none']
  rfl

theorem decided_append (words : WordClass) {whole : Text}
    (decided : whole.dropWhile isSpace ≠ [] ∧
      ¬((whole.dropWhile isSpace).head? = some '<' ∧ '>' ∉ whole.dropWhile isSpace))
    (more : Text) : toolProtocolPrefix words (whole ++ more) =
      toolProtocolPrefix words (whole.dropWhile isSpace) := by
  obtain ⟨filled, settled⟩ := decided
  rw [toolProtocolPrefix_strip]
  by_cases closed : '>' ∈ whole
  · exact toolProtocolPrefix_append words closed more
  · obtain ⟨c, rest, shape⟩ := exists_cons_of_ne_nil filled
    have visible : isSpace c = false := by
      have head := dropWhile_get_zero_not isSpace whole (length_pos_of_ne_nil filled)
      simpa [shape] using head
    have other : c ≠ '<' := by
      rintro rfl
      refine settled ⟨by rw [shape]; rfl, fun inside => closed ?_⟩
      exact (dropWhile_suffix isSpace).subset inside
    have split : whole = whole.takeWhile isSpace ++ c :: rest := by
      rw [← shape, takeWhile_append_dropWhile]
    have strip : ∀ other, (whole ++ other).dropWhile isSpace = c :: (rest ++ other) := by
      intro other
      rw [split, append_assoc, dropWhile_append_of_pos fun d => mem_takeWhile_imp,
        cons_append, dropWhile_cons_of_neg (by simp [visible])]
    rw [← toolProtocolPrefix_strip, strip, toolProtocolPrefix_opens other visible,
      ← toolProtocolPrefix_strip, shape, toolProtocolPrefix_opens other visible]

end SourceLens.PublishedAnswer
