import SourceLens.GatewayHistory
import SourceLens.UserInputNeutral
import SourceLens.Library.Histories

/-! Every tool payload stands behind the assistant payload with its call. -/

namespace SourceLens.GatewayHistory

open Histories Option List

def openAi (messages : List Message) : Option AiMessage :=
  messages.foldl (fun current message =>
    match message with
    | .ai message => some message
    | .tool _ => current
    | _ => none) none

def openAssistant (output : List Payload) : Option Payload :=
  output.foldl (fun current payload =>
    if payload.role = "assistant" then some payload
    else if payload.role = "tool" then current else none) none

/-- Each tool message follows the AI message that holds its identifier. -/
def FollowsCall (messages : List Message) : Prop :=
  Along (fun before message => ∀ tool, message = .tool tool →
    ∃ ai, openAi before = some ai ∧
      (isValid ai tool.toolCallId = true ∨ isInvalid ai tool.toolCallId = true)) messages

def Answered (output : List Payload) : Prop :=
  Along (fun before payload => payload.role = "tool" →
    ∃ assistant, openAssistant before = some assistant ∧
      ∃ call ∈ assistant.toolCalls, call.id = payload.toolCallId) output

variable (env : Env) (recovery : Bool)

def Contributes (message : Message) (payload : Payload) : Prop :=
  ∃ own, messageToGateway env recovery message = some own ∧
    (payload = own ∨ (∃ tool, message = .tool tool) ∧ payload = feedbackOf env own)

def suppressed (ai : AiMessage) (tool : ToolMessage) : Bool :=
  isInvalid ai tool.toolCallId && !isValid ai tool.toolCallId

/-- The results of a turn: behind the assistant payload the valid ones, then the feedback,
then what comes of the next message. -/
def FeedbackPlaced (messages : List Message) (output : List Payload) : Prop :=
  ∀ front ai (tools : List ToolMessage) rest,
    messages = front ++ .ai ai :: (tools.map Message.tool ++ rest) →
    (∀ tool, rest.head? ≠ some (.tool tool)) →
      ∃ before payload valid feedback after,
        output = before ++ payload :: (valid ++ feedback ++ after) ∧
        messageToGateway env recovery (.ai ai) = some payload ∧
        List.Forall₂ (fun tool own => messageToGateway env recovery (.tool tool) = some own)
          (tools.filter fun tool => !suppressed ai tool) valid ∧
        List.Forall₂ (fun tool text => ∃ own,
            messageToGateway env recovery (.tool tool) = some own ∧ text = feedbackOf env own)
          (tools.filter (suppressed ai)) feedback ∧
        ∀ next, rest.head? = some next →
          ∃ own, messageToGateway env recovery next = some own ∧ after.head? = some own

structure Converted (messages : List Message) (output : List Payload) : Prop where
  answered : Answered output
  contributed : ∃ payloads, List.Forall₂ (Contributes env recovery) messages payloads ∧
    output.Perm payloads
  placed : FeedbackPlaced env recovery messages output

structure Readable (tool : ToolMessage) : Prop where
  decodes : ∀ text, contentToText env tool.content = .str text → env.loads text ≠ .raised
  finite : recovery = true → ∀ text result, contentToText env tool.content = .str text →
    env.loads text = .value (.obj result) → (Json.get? result "ok").isSome = true →
      Json.get? result "ok" ≠ some (.bool true) →
        ∀ name, Json.getOrNull result "status_code" = .nonFinite name → name = "NaN"

/-- Each result has a named call, or a rejected one alone that has an identifier. -/
def Settled (messages : List Message) : Prop :=
  Along (fun before message => ∀ tool, message = .tool tool →
    ∃ ai, openAi before = some ai ∧
      ((∃ call ∈ ai.toolCalls, call.id = some tool.toolCallId ∧ call.name ≠ "") ∨
        tool.toolCallId ≠ "" ∧ isValid ai tool.toolCallId = false)) messages

variable {env : Env} {recovery : Bool}

theorem statusCode_isSome {value : Json} : (statusCode env value).isSome = true ↔
    ∀ name, value = .nonFinite name → name = "NaN" := by
  cases value with
  | nonFinite name =>
    rw [statusCode]
    simp only [Json.nonFinite.injEq, forall_eq']
    by_cases nan : name = "NaN"
    · simp [nan]
    · simp [nan]
  | _ => simp [statusCode]

theorem toolResultMetadata_isSome {result : List (String × Json)} {toolName : String} :
    (toolResultMetadata env result toolName).isSome = true ↔
      (Json.getOrNull result "ok" ≠ .bool true →
        ∀ name, Json.getOrNull result "status_code" = .nonFinite name → name = "NaN") := by
  have status : (statusCode env (GatewayStream.orElse (Json.getOrNull result "status_code")
      (.int 0))).isSome = true ↔
        ∀ name, Json.getOrNull result "status_code" = .nonFinite name → name = "NaN" := by
    rw [statusCode_isSome]
    cases found : Json.getOrNull result "status_code" with
    | nonFinite name => simp [GatewayStream.orElse, Json.truthy]
    | _ =>
      rw [GatewayStream.orElse]
      split
      · simp
      · simp
  rw [toolResultMetadata]
  split
  · rename_i ok
    simp [ok]
  · rename_i other
    simp only [isSome_map, status]
    exact ⟨fun all _ => all, fun all => all fun ok => other ok⟩

theorem getOrNull_eq {result : List (String × Json)} {key : String}
    (present : (Json.get? result key).isSome = true) (value : Json) :
    Json.getOrNull result key = value ↔ Json.get? result key = some value := by
  obtain ⟨found, held⟩ := isSome_iff_exists.mp present
  rw [Json.getOrNull, held, getD_some, Option.some.injEq]

theorem withMetadata_isSome {toolName text : String} :
    (withMetadata env recovery toolName text).isSome = true ↔
      env.loads text ≠ .raised ∧ (recovery = true → ∀ result,
        env.loads text = .value (.obj result) → (Json.get? result "ok").isSome = true →
          Json.get? result "ok" ≠ some (.bool true) →
            ∀ name, Json.getOrNull result "status_code" = .nonFinite name → name = "NaN") := by
  rw [withMetadata]
  split
  · rename_i raised
    simp [raised]
  · rename_i result loaded
    rw [loaded]
    by_cases used : (recovery && (Json.get? result "ok").isSome) = true
    · rw [if_pos used]
      obtain ⟨asked, present⟩ := Bool.and_eq_true_iff.mp used
      have same := getOrNull_eq present (.bool true)
      simp only [isSome_map, toolResultMetadata_isSome, asked, present, same, ne_eq,
        reduceCtorEq, not_false_eq_true, Loaded.value.injEq, Json.obj.injEq, forall_const,
        true_and, forall_eq']
    · rw [if_neg used]
      simp only [isSome_some, true_iff]
      refine ⟨by simp, fun asked other same present => ?_⟩
      obtain rfl : result = other := by simpa using same
      exact absurd (Bool.and_eq_true_iff.mpr ⟨asked, present⟩) used
  · rename_i raised other
    simp only [isSome_some, true_iff]
    exact ⟨raised, fun _ result same => absurd same (other result)⟩

theorem messageToGateway_isSome {tool : ToolMessage} :
    (messageToGateway env recovery (.tool tool)).isSome = true ↔ Readable env recovery tool := by
  rw [messageToGateway, isSome_map, toolResultForGateway]
  split
  · rename_i text shape
    rw [isSome_map, withMetadata_isSome]
    constructor
    · intro both
      refine ⟨fun other same => ?_, fun asked other result same => ?_⟩
      · rw [← Json.str.inj (shape.symm.trans same)]
        exact both.1
      · rw [← Json.str.inj (shape.symm.trans same)]
        exact both.2 asked result
    · exact fun readable => ⟨readable.decodes text shape,
        fun asked result => readable.finite asked text result shape⟩
  · rename_i other
    simp only [isSome_some, true_iff]
    exact ⟨fun text same => absurd same (other text), fun _ text _ same => absurd same (other text)⟩

theorem role_other {message : Message} {payload : Payload} (other : ∀ tool, message ≠ .tool tool)
    (made : messageToGateway env recovery message = some payload) : payload.role ≠ "tool" := by
  cases message with
  | system content => simp [← Option.some.inj made]
  | human content kwargs => simp [← Option.some.inj made]
  | ai ai => simp [← Option.some.inj made]
  | tool tool => exact absurd rfl (other tool)
  | other type content =>
    rw [← Option.some.inj made]
    exact type.notTool

theorem role_tool {tool : ToolMessage} {payload : Payload}
    (made : messageToGateway env recovery (.tool tool) = some payload) :
    payload.role = "tool" ∧ payload.toolCallId = some tool.toolCallId := by
  rw [messageToGateway] at made
  obtain ⟨content, -, rfl⟩ := map_eq_some_iff.mp made
  exact ⟨rfl, rfl⟩

theorem mem_toolCallsToGateway {calls : List Call} {id : Option String} :
    (∃ call ∈ toolCallsToGateway env calls, call.id = id) ↔
      ∃ call ∈ calls, call.id = id ∧ call.name ≠ "" := by
  simp only [toolCallsToGateway, mem_filterMap, callToGateway]
  constructor
  · intro held
    obtain ⟨made, ⟨call, listed, shape⟩, same⟩ := held
    by_cases unnamed : call.name = ""
    · rw [if_pos unnamed] at shape
      cases shape
    · rw [if_neg unnamed] at shape
      rw [← Option.some.inj shape] at same
      exact ⟨call, listed, same, unnamed⟩
  · intro held
    obtain ⟨call, listed, same, named⟩ := held
    exact ⟨_, ⟨call, listed, if_neg named⟩, same⟩

theorem mem_invalidIdsOf {ai : AiMessage} {id : String} :
    (invalidIdsOf ai).any (decide <| · = id) = true ↔
      id ≠ "" ∧ isInvalid ai id = true ∧ isValid ai id = false := by
  simp only [invalidIdsOf, isInvalid, List.any_eq_true, List.mem_filter, List.mem_filterMap,
    decide_eq_true_eq, Bool.and_eq_true, Bool.not_eq_true']
  constructor
  · intro held
    obtain ⟨other, ⟨⟨call, listed, same⟩, filled, free⟩, rfl⟩ := held
    exact ⟨filled, ⟨call, listed, same⟩, free⟩
  · intro held
    obtain ⟨filled, ⟨call, listed, same⟩, free⟩ := held
    exact ⟨id, ⟨⟨call, listed, same⟩, filled, free⟩, rfl⟩

theorem openAi_concat (messages : List Message) (message : Message) :
    openAi (messages ++ [message]) =
      match message with
      | .ai message => some message
      | .tool _ => openAi messages
      | _ => none := by
  rw [openAi, foldl_append]
  rfl

theorem openAssistant_concat (output : List Payload) (payload : Payload) :
    openAssistant (output ++ [payload]) =
      if payload.role = "assistant" then some payload
      else if payload.role = "tool" then openAssistant output else none := by
  rw [openAssistant, foldl_append]
  rfl

variable {messages : List Message} {history : History}

theorem place_other {payload : Payload} {message : Message}
    (other : ∀ tool, message ≠ .tool tool) :
    (place env history payload message).output =
        history.output ++ history.recoveryFeedback ++ [payload] ∧
      (place env history payload message).recoveryFeedback = [] := by
  cases message with
  | tool tool => exact absurd rfl (other tool)
  | _ => exact ⟨rfl, rfl⟩

theorem answered_append {output more : List Payload}
    (others : ∀ payload ∈ more, payload.role ≠ "tool") :
    Answered (output ++ more) ↔ Answered output := by
  induction more using List.reverseRecOn with
  | nil => rw [append_nil]
  | append_singleton more payload ih =>
    rw [← append_assoc, Answered, along_concat]
    have before := ih fun other member => others other (mem_append_left _ member)
    have own := others payload (mem_append_right _ (mem_singleton_self _))
    exact ⟨fun both => before.mp both.1, fun along => ⟨before.mpr along, fun role => absurd role own⟩⟩

variable (env recovery) in
structure Kept (messages : List Message) (history : History) : Prop where
  ids : ∀ ai, openAi messages = some ai → history.invalidIds = invalidIdsOf ai
  opened : ∀ ai, openAi messages = some ai → ∃ assistant,
    openAssistant history.output = some assistant ∧
      assistant.toolCalls = toolCallsToGateway env ai.toolCalls
  feedback : ∀ payload ∈ history.recoveryFeedback, payload.role ≠ "tool"
  contributed : ∃ payloads, List.Forall₂ (Contributes env recovery) messages payloads ∧
    (history.output ++ history.recoveryFeedback).Perm payloads
  answered : Answered history.output ↔ Settled messages

theorem Kept.other {message : Message}
    {payload : Payload} (kept : Kept env recovery messages history)
    (other : ∀ tool, message ≠ .tool tool)
    (made : messageToGateway env recovery message = some payload) :
    Kept env recovery (messages ++ [message]) (place env history payload message) := by
  obtain ⟨output, feedback⟩ : (place env history payload message).output =
      history.output ++ history.recoveryFeedback ++ [payload] ∧
        (place env history payload message).recoveryFeedback = [] := place_other other
  refine ⟨?_, ?_, ?_, ?_, ?_⟩
  · intro ai current
    rw [openAi_concat] at current
    cases message with
    | ai own =>
      obtain rfl := Option.some.inj current
      rfl
    | tool tool => exact absurd rfl (other tool)
    | _ => cases current
  · intro ai current
    rw [openAi_concat] at current
    cases message with
    | ai own =>
      obtain rfl := Option.some.inj current
      obtain rfl := Option.some.inj made
      rw [output, openAssistant_concat, if_pos rfl]
      exact ⟨_, rfl, rfl⟩
    | tool tool => exact absurd rfl (other tool)
    | _ => cases current
  · rw [feedback]
    exact fun payload member => absurd member not_mem_nil
  · obtain ⟨payloads, each, same⟩ := kept.contributed
    refine ⟨payloads ++ [payload], rel_append each (.cons ⟨payload, made, .inl rfl⟩ .nil), ?_⟩
    rw [output, feedback, append_nil]
    exact same.append_right _
  · rw [output, answered_append, answered_append kept.feedback, kept.answered, Settled, Settled,
      along_concat]
    · exact ⟨fun settled => ⟨settled, fun tool same => absurd same (other tool)⟩, And.left⟩
    · intro one member
      rw [mem_singleton.mp member]
      exact role_other other made

theorem Kept.tool {tool : ToolMessage}
    {payload : Payload} (kept : Kept env recovery messages history)
    (follows : ∃ ai, openAi messages = some ai ∧
      (isValid ai tool.toolCallId = true ∨ isInvalid ai tool.toolCallId = true))
    (made : messageToGateway env recovery (.tool tool) = some payload) :
    Kept env recovery (messages ++ [.tool tool]) (place env history payload (.tool tool)) := by
  obtain ⟨ai, current, holds⟩ := follows
  obtain ⟨assistant, opened, calls⟩ := kept.opened ai current
  obtain ⟨role, named⟩ := role_tool made
  have settled : Settled (messages ++ [.tool tool]) ↔ Settled messages ∧
      ((∃ call ∈ ai.toolCalls, call.id = some tool.toolCallId ∧ call.name ≠ "") ∨
        tool.toolCallId ≠ "" ∧ isValid ai tool.toolCallId = false) := by
    rw [Settled, along_concat]
    simp only [Message.tool.injEq, forall_eq', current, Option.some.injEq, exists_eq_left']
    rfl
  obtain ⟨payloads, each, same⟩ := kept.contributed
  by_cases rejected : history.invalidIds.any (decide <| · = tool.toolCallId) = true
  · have shape : place env history payload (.tool tool) =
        { history with recoveryFeedback := history.recoveryFeedback ++ [feedbackOf env payload] } :=
      if_pos rejected
    rw [kept.ids ai current] at rejected
    obtain ⟨filled, -, free⟩ := mem_invalidIdsOf.mp rejected
    rw [shape]
    refine ⟨?_, ?_, ?_, ?_, ?_⟩
    · intro other same
      rw [openAi_concat] at same
      exact kept.ids other same
    · intro other same
      rw [openAi_concat] at same
      exact kept.opened other same
    · intro other member
      rcases mem_append.mp member with early | last
      · exact kept.feedback other early
      · rw [mem_singleton.mp last]
        simp [feedbackOf]
    · refine ⟨payloads ++ [feedbackOf env payload],
        rel_append each (.cons ⟨payload, made, .inr ⟨⟨tool, rfl⟩, rfl⟩⟩ .nil), ?_⟩
      rw [← append_assoc]
      exact same.append_right _
    · rw [settled, ← kept.answered]
      exact ⟨fun answered => ⟨answered, .inr ⟨filled, free⟩⟩, And.left⟩
  · have shape : place env history payload (.tool tool) =
        { history with output := history.output ++ [payload] } := if_neg rejected
    rw [kept.ids ai current, mem_invalidIdsOf] at rejected
    rw [shape]
    refine ⟨?_, ?_, kept.feedback, ?_, ?_⟩
    · intro other same
      rw [openAi_concat] at same
      exact kept.ids other same
    · intro other same
      rw [openAi_concat] at same
      rw [openAssistant_concat, role, if_neg (by decide), if_pos rfl]
      exact kept.opened other same
    · refine ⟨payloads ++ [payload],
        rel_append each (.cons ⟨payload, made, .inl rfl⟩ .nil), ?_⟩
      -- the payload goes before the feedback that waits
      calc history.output ++ [payload] ++ history.recoveryFeedback
        _ = history.output ++ ([payload] ++ history.recoveryFeedback) := append_assoc ..
        _ |>.Perm (history.output ++ (history.recoveryFeedback ++ [payload])) :=
          perm_append_comm.append_left _
        _ = history.output ++ history.recoveryFeedback ++ [payload] := (append_assoc ..).symm
        _ |>.Perm (payloads ++ [payload]) := same.append_right _
    · rw [settled, Answered, along_concat, ← kept.answered]
      simp only [role, named, opened, Option.some.injEq, exists_eq_left', calls, forall_const,
        mem_toolCallsToGateway]
      refine and_congr_right fun _ => ⟨.inl, fun either => ?_⟩
      rcases either with call | ⟨filled, free⟩
      · exact call
      · rcases holds with valid | invalid
        · rw [free] at valid
          cases valid
        · exact absurd ⟨filled, invalid, free⟩ rejected

theorem run_concat (messages : List Message) (message : Message) (history : History) :
    (messages ++ [message]).foldlM (take env recovery) history =
      (messages.foldlM (take env recovery) history).bind fun history =>
        take env recovery history message := by
  rw [foldlM_append]
  simp only [foldlM_cons, foldlM_nil, bind_pure]
  rfl

theorem run_kept (follows : FollowsCall messages)
    (run : messages.foldlM (take env recovery) {} = some history) :
    Kept env recovery messages history := by
  induction messages using List.reverseRecOn generalizing history with
  | nil =>
    obtain rfl := Option.some.inj run
    refine ⟨nofun, nofun, nofun, ⟨[], .nil, .nil⟩, ?_⟩
    exact ⟨fun _ => along_nil, fun _ => along_nil⟩
  | append_singleton messages message ih =>
    obtain ⟨before, last⟩ := along_concat.mp follows
    rw [run_concat] at run
    obtain ⟨earlier, ran, taken⟩ := bind_eq_some_iff.mp run
    obtain ⟨payload, made, rfl⟩ := map_eq_some_iff.mp taken
    have kept := ih before ran
    by_cases result : ∃ tool, message = .tool tool
    · obtain ⟨tool, rfl⟩ := result
      exact kept.tool (last tool rfl) made
    · exact kept.other (fun tool same => result ⟨tool, same⟩) made

theorem run_isSome :
    (messages.foldlM (take env recovery) history).isSome = true ↔
      ∀ tool, .tool tool ∈ messages → Readable env recovery tool := by
  induction messages using List.reverseRecOn with
  | nil => simp
  | append_singleton messages message ih =>
    have last : (messageToGateway env recovery message).isSome = true ↔
        ∀ tool, message = .tool tool → Readable env recovery tool := by
      cases message with
      | tool tool => simp [messageToGateway_isSome]
      | _ => simp [messageToGateway]
    rw [run_concat]
    simp only [mem_append, mem_singleton, or_imp, forall_and, eq_comm, ← ih, ← last]
    cases messages.foldlM (take env recovery) history with
    | none => simp
    | some history => simp [take]

theorem run_extends {before after : History}
    (run : messages.foldlM (take env recovery) before = some after) :
    ∃ more, after.output = before.output ++ more := by
  induction messages using List.reverseRecOn generalizing after with
  | nil =>
    obtain rfl := Option.some.inj run
    exact ⟨[], (append_nil _).symm⟩
  | append_singleton messages message ih =>
    rw [run_concat] at run
    obtain ⟨earlier, ran, taken⟩ := bind_eq_some_iff.mp run
    obtain ⟨payload, made, rfl⟩ := map_eq_some_iff.mp taken
    obtain ⟨more, same⟩ := ih ran
    by_cases result : ∃ tool, message = .tool tool
    · obtain ⟨tool, rfl⟩ := result
      rw [place]
      split
      · exact ⟨more, same⟩
      · exact ⟨more ++ [payload], by rw [same, append_assoc]⟩
    · rw [(place_other fun tool same => result ⟨tool, same⟩).1, same]
      exact ⟨more ++ earlier.recoveryFeedback ++ [payload], by simp only [append_assoc]⟩

theorem run_tools {tools : List ToolMessage} {before after : History} (out : ToolMessage → Bool)
    (rejected : ∀ tool ∈ tools, out tool = before.invalidIds.any (decide <| · = tool.toolCallId))
    (run : (tools.map Message.tool).foldlM (take env recovery) before = some after) :
    ∃ valid feedback,
      after = ⟨before.output ++ valid, before.recoveryFeedback ++ feedback, before.invalidIds⟩ ∧
      List.Forall₂ (fun tool own => messageToGateway env recovery (.tool tool) = some own)
        (tools.filter fun tool => !out tool) valid ∧
      List.Forall₂ (fun tool text => ∃ own,
          messageToGateway env recovery (.tool tool) = some own ∧ text = feedbackOf env own)
        (tools.filter out) feedback := by
  induction tools using List.reverseRecOn generalizing after with
  | nil =>
    obtain rfl := Option.some.inj run
    exact ⟨[], [], by simp, .nil, .nil⟩
  | append_singleton tools tool ih =>
    rw [map_append, map_singleton, run_concat] at run
    obtain ⟨earlier, ran, taken⟩ := bind_eq_some_iff.mp run
    obtain ⟨payload, made, rfl⟩ := map_eq_some_iff.mp taken
    obtain ⟨valid, feedback, rfl, kept, dropped⟩ :=
      ih (fun other member => rejected other (mem_append_left _ member)) ran
    have own := rejected tool (mem_append_right _ (mem_singleton_self _))
    rw [filter_append, filter_append, place]
    by_cases away : out tool = true
    · rw [if_pos (own ▸ away)]
      refine ⟨valid, feedback ++ [feedbackOf env payload], ?_, ?_, ?_⟩
      · rw [← append_assoc]
      · simpa [away] using kept
      · simpa [away] using rel_append dropped (.cons ⟨payload, made, rfl⟩ .nil)
    · rw [if_neg (own ▸ away)]
      refine ⟨valid ++ [payload], feedback, ?_, ?_, ?_⟩
      · rw [← append_assoc]
      · simpa [away] using rel_append kept (.cons made .nil)
      · simpa [away] using dropped

theorem openAi_tools (front : List Message) (ai : AiMessage) (tools : List ToolMessage) :
    openAi (front ++ .ai ai :: tools.map Message.tool) = some ai := by
  induction tools using List.reverseRecOn with
  | nil => exact openAi_concat front (.ai ai)
  | append_singleton tools tool ih =>
    rw [map_append, map_singleton, ← cons_append, ← append_assoc, openAi_concat]
    exact ih

theorem suppressed_eq {front rest : List Message} {ai : AiMessage} {tools : List ToolMessage}
    (settled : Settled (front ++ .ai ai :: (tools.map Message.tool ++ rest))) :
    ∀ tool ∈ tools, suppressed ai tool =
      (invalidIdsOf ai).any (decide <| · = tool.toolCallId) := by
  intro tool member
  obtain ⟨early, late, rfl⟩ := append_of_mem member
  have own := settled (front ++ .ai ai :: early.map Message.tool) (.tool tool)
    (late.map Message.tool ++ rest) (by simp) tool rfl
  rw [openAi_tools] at own
  obtain ⟨other, same, either⟩ := own
  obtain rfl := Option.some.inj same
  rw [Bool.eq_iff_iff, mem_invalidIdsOf, suppressed, Bool.and_eq_true, Bool.not_eq_true']
  constructor
  · intro both
    refine ⟨?_, both⟩
    rcases either with ⟨call, listed, named, -⟩ | ⟨filled, -⟩
    · have valid : isValid ai tool.toolCallId = true :=
        any_eq_true.mpr ⟨call, listed, decide_eq_true named⟩
      rw [both.2] at valid
      cases valid
    · exact filled
  · exact And.right

theorem feedbackPlaced (settled : Settled messages)
    (run : messages.foldlM (take env recovery) {} = some history) :
    FeedbackPlaced env recovery messages (history.output ++ history.recoveryFeedback) := by
  intro front ai tools rest shape closed
  subst shape
  rw [foldlM_append] at run
  obtain ⟨earlier, -, run⟩ := bind_eq_some_iff.mp run
  rw [foldlM_cons] at run
  obtain ⟨turn, taken, run⟩ := bind_eq_some_iff.mp run
  obtain ⟨payload, made, rfl⟩ := map_eq_some_iff.mp taken
  rw [foldlM_append] at run
  obtain ⟨answered, ran, run⟩ := bind_eq_some_iff.mp run
  obtain ⟨valid, feedback, rfl, kept, dropped⟩ :=
    run_tools (suppressed ai) (suppressed_eq settled) ran
  cases rest with
  | nil =>
    obtain rfl := Option.some.inj run
    refine ⟨earlier.output ++ earlier.recoveryFeedback, payload, valid, feedback, [], ?_, made,
      kept, dropped, nofun⟩
    simp [place]
  | cons next rest =>
    rw [foldlM_cons] at run
    obtain ⟨following, taken, run⟩ := bind_eq_some_iff.mp run
    obtain ⟨own, read, rfl⟩ := map_eq_some_iff.mp taken
    obtain ⟨more, same⟩ := run_extends run
    have other : ∀ tool, next ≠ .tool tool := fun tool same => closed tool (congrArg some same)
    rw [(place_other other).1] at same
    refine ⟨earlier.output ++ earlier.recoveryFeedback, payload, valid, feedback,
      own :: (more ++ history.recoveryFeedback), ?_, made, kept, dropped, ?_⟩
    · rw [same]
      simp [place]
    · intro first head
      obtain rfl := Option.some.inj head
      exact ⟨own, read, rfl⟩

variable (env recovery) in
theorem messagesToGateway_iff (messages : List Message) (follows : FollowsCall messages) :
    (∃ output, messagesToGateway env recovery messages = some output ∧
      Converted env recovery messages output) ↔
        (∀ tool, .tool tool ∈ messages → Readable env recovery tool) ∧ Settled messages := by
  constructor
  · intro converted
    obtain ⟨output, made, meets⟩ := converted
    obtain ⟨history, run, rfl⟩ := map_eq_some_iff.mp made
    have kept := run_kept follows run
    refine ⟨run_isSome.mp (isSome_iff_exists.mpr ⟨history, run⟩), ?_⟩
    exact kept.answered.mp ((answered_append kept.feedback).mp meets.answered)
  · intro both
    obtain ⟨readable, settled⟩ := both
    obtain ⟨history, run⟩ := isSome_iff_exists.mp (run_isSome.mpr readable)
    have kept := run_kept follows run
    refine ⟨_, congrArg (Option.map _) run, ?_, kept.contributed, feedbackPlaced settled run⟩
    exact (answered_append kept.feedback).mpr (kept.answered.mpr settled)

def plainEnv : Env where
  words := UserInput.asciiWords
  isDigit := Char.isDigit
  loads _ := .undecodable
  dumps _ := "{}"
  repr _ := ""
  upper := String.toUpper
  intOf _ := none

def turn : List Message :=
  [.ai ⟨.str "", [⟨"read", [], some "a"⟩], [⟨some "b"⟩]⟩, .tool ⟨.str "refused", some "read", "b"⟩,
    .tool ⟨.str "done", some "read", "a"⟩]

theorem turn_converted : ∃ output, messagesToGateway plainEnv false turn = some output ∧
    Converted plainEnv false turn output := by
  have shape : turn = ([] ++ [turn[0]] ++ [turn[1]]) ++ [turn[2]] := rfl
  refine (messagesToGateway_iff plainEnv false turn ?_).mpr ⟨?_, ?_⟩
  · rw [shape, FollowsCall, along_concat, along_concat, along_concat]
    refine ⟨⟨⟨along_nil, nofun⟩, ?_⟩, ?_⟩
    · rintro _ ⟨⟩
      exact ⟨_, rfl, .inr rfl⟩
    · rintro _ ⟨⟩
      exact ⟨_, rfl, .inl rfl⟩
  · exact fun tool _ => ⟨fun _ _ => nofun, nofun⟩
  · rw [shape, Settled, along_concat, along_concat, along_concat]
    refine ⟨⟨⟨along_nil, nofun⟩, ?_⟩, ?_⟩
    · rintro _ ⟨⟩
      exact ⟨_, rfl, .inr ⟨by decide, rfl⟩⟩
    · rintro _ ⟨⟩
      exact ⟨_, rfl, .inl ⟨_, mem_cons_self, rfl, by decide⟩⟩

def namelessTurn : List Message :=
  [.ai ⟨.str "", [⟨"", [], some "a"⟩], []⟩] ++ [.tool ⟨.str "done", none, "a"⟩]

/-- The result is a tool payload without a call. -/
theorem nameless_unanswered : FollowsCall namelessTurn ∧
    ¬ ∃ output, messagesToGateway plainEnv false namelessTurn = some output ∧
      Converted plainEnv false namelessTurn output := by
  constructor
  · refine along_concat.mpr ⟨?_, ?_⟩
    · exact along_concat.mpr ⟨along_nil, nofun⟩
    · rintro _ ⟨⟩
      exact ⟨_, rfl, .inl rfl⟩
  · intro converted
    obtain ⟨output, made, meets⟩ := converted
    obtain rfl := Option.some.inj made
    obtain ⟨assistant, opened, call, listed, -⟩ := meets.answered
      [{ role := "assistant", content := .str "" }]
      { role := "tool", content := .str "done", toolCallId := some "a" } [] rfl rfl
    obtain rfl := Option.some.inj opened
    exact absurd listed not_mem_nil

end SourceLens.GatewayHistory
