import SourceLens.Library.Json

/-! The guard of a resumed run (`agent_runtime/resume.py`): the tool calls without a durable
result are executed again, and their tools decide whether the run may resume. -/

namespace SourceLens.ReplayGuard

open List

variable {tools : List Tool}

structure Call where
  name : String
  args : Json
  id : Option String

inductive Message
  | ai (toolCalls : List Call)
  | tool (toolCallId : String)
  | other

structure Tool where
  name : String
  metadata : Json

inductive Value
  | toolMessage (toolCallId : String)
  | items (values : List Value)
  | other

/-- A pending write; a tuple of less than three entries is no write. -/
inductive PendingWrite
  | short
  | entry (channel : String) (value : Value)

inductive Rejection
  | sessionValues
  | unclassified
  | write
  deriving DecidableEq

mutual
def collect : Value → List String
  | .toolMessage toolCallId => if toolCallId = "" then [] else [toolCallId]
  | .items values => collectAll values
  | .other => []

def collectAll : List Value → List String
  | [] => []
  | value :: rest => collect value ++ collectAll rest
end

def PendingWrite.toolCallIds : PendingWrite → List String
  | .short => []
  | .entry channel value => if channel = "messages" then collect value else []

def pendingWriteToolCallIds (pendingWrites : List PendingWrite) : List String :=
  pendingWrites.flatMap PendingWrite.toolCallIds

def pendingFrom (completed : List String) : List Message → List Call
  | [] => []
  | .tool toolCallId :: rest =>
    pendingFrom (if toolCallId = "" then completed else toolCallId :: completed) rest
  | .ai toolCalls :: rest =>
    let pending := toolCalls.filter fun call => !completed.any (decide <| · = call.id.getD "")
    if pending.isEmpty then pendingFrom completed rest else pending
  | .other :: rest => pendingFrom completed rest

def pendingCheckpointToolCalls (messages : List Message) (completed : List String) : List Call :=
  pendingFrom completed messages.reverse

def potentiallySideEffectingTools : List String :=
  ["call_skill_api", "run_skill_script", "run_skill_transform", "save_deliverable"]

/-- `tools_by_name.get(name)`: the last tool of the name. -/
def toolByName (tools : List Tool) (name : String) : Option Tool :=
  (tools.filter fun tool => decide (tool.name = name)).getLast?

def Tool.metadataFields (tool : Tool) : List (String × Json) :=
  match tool.metadata with
  | .obj fields => fields
  | _ => []

def Tool.hasFlag (tool : Tool) (key : String) (flag : Bool) : Bool :=
  match Json.getOrNull tool.metadataFields key with
  | .bool value => value == flag
  | _ => false

def Tool.hasOperation (tool : Tool) (operation : String) : Bool :=
  match Json.getOrNull tool.metadataFields "operation" with
  | .str value => decide (value = operation)
  | _ => false

def Tool.idempotent (tool : Tool) : Bool := tool.hasFlag "idempotent" true

def Tool.readOnly (tool : Tool) : Bool := tool.hasFlag "read_only" true || tool.hasOperation "read"

/-- `is_write` for a call of the name. -/
def Tool.isWrite (tool : Tool) (name : String) : Bool :=
  tool.hasOperation "write" || tool.hasFlag "read_only" false || tool.hasFlag "side_effects" true ||
    "mcp__".toList.isPrefixOf name.toList ||
      potentiallySideEffectingTools.any (decide <| · = name)

def Call.captures (call : Call) : Bool :=
  decide (call.name = "call_skill_api") &&
    match call.args with
    | .obj fields => (Json.getOrNull fields "capture").truthy
    | _ => false

def Message.captures : Message → Bool
  | .ai toolCalls => toolCalls.any Call.captures
  | _ => false

def checkCall (tools : List Tool) (call : Call) : Except Rejection Unit :=
  match toolByName tools call.name with
  | none => .error .unclassified
  | some tool =>
    if tool.idempotent then .ok ()
    else if tool.readOnly then .ok ()
    else if tool.isWrite call.name then .error .write
    else .ok ()

def checkCalls (tools : List Tool) : List Call → Except Rejection Unit
  | [] => .ok ()
  | call :: rest =>
    match checkCall tools call with
    | .error rejection => .error rejection
    | .ok () => checkCalls tools rest

def rejectUnsafeResumeToolReplay (messages : List Message) (tools : List Tool)
    (pendingWriteToolCallIds : List String) : Except Rejection Unit :=
  if messages.any Message.captures then .error .sessionValues
  else checkCalls tools (pendingCheckpointToolCalls messages pendingWriteToolCallIds)

inductive Holds (id : String) : Value → Prop
  | toolMessage : Holds id (.toolMessage id)
  | items {values : List Value} {value : Value} (member : value ∈ values)
      (held : Holds id value) : Holds id (.items values)

/-- The result of the call is behind its message or in the pending writes. -/
def HasResult (later : List Message) (pendingWrites : List PendingWrite) (call : Call) : Prop :=
  ∃ id, call.id = some id ∧ id ≠ "" ∧
    (.tool id ∈ later ∨ ∃ value, .entry "messages" value ∈ pendingWrites ∧ Holds id value)

def Replayed (messages : List Message) (pendingWrites : List PendingWrite) (call : Call) : Prop :=
  ∃ before toolCalls later, messages = before ++ .ai toolCalls :: later ∧
    (∀ calls, .ai calls ∉ later) ∧ call ∈ toolCalls ∧ ¬ HasResult later pendingWrites call

/-- The guard passes a listed tool that is declared idempotent or read-only, and one that it
does not take for a write. -/
def Admitted (tools : List Tool) (call : Call) : Prop :=
  ∃ tool, toolByName tools call.name = some tool ∧
    (tool.idempotent = true ∨ tool.readOnly = true ∨ tool.isWrite call.name = false)

mutual
theorem mem_collect {id : String} : ∀ value, id ∈ collect value ↔ id ≠ "" ∧ Holds id value
  | .toolMessage toolCallId => by
    rw [collect]
    by_cases empty : toolCallId = ""
    · rw [if_pos empty]
      refine ⟨fun member => absurd member not_mem_nil, ?_⟩
      rintro ⟨filled, held⟩
      cases held
      exact absurd empty filled
    · rw [if_neg empty, mem_singleton]
      constructor
      · rintro rfl
        exact ⟨empty, .toolMessage⟩
      · rintro ⟨-, held⟩
        cases held
        rfl
  | .items values => by
    rw [collect, mem_collectAll values]
    refine and_congr_right fun _ => ⟨?_, ?_⟩
    · rintro ⟨value, member, held⟩
      exact .items member held
    · intro held
      cases held with
      | items member held => exact ⟨_, member, held⟩
  | .other => by
    rw [collect]
    refine ⟨fun member => absurd member not_mem_nil, ?_⟩
    rintro ⟨-, held⟩
    cases held

theorem mem_collectAll {id : String} :
    ∀ values, id ∈ collectAll values ↔ id ≠ "" ∧ ∃ value ∈ values, Holds id value
  | [] => by simp [collectAll]
  | value :: rest => by
    rw [collectAll, mem_append, mem_collect value, mem_collectAll rest, ← and_or_left]
    simp
end

theorem mem_pendingWriteToolCallIds {pendingWrites : List PendingWrite} {id : String} :
    id ∈ pendingWriteToolCallIds pendingWrites ↔
      id ≠ "" ∧ ∃ value, .entry "messages" value ∈ pendingWrites ∧ Holds id value := by
  rw [pendingWriteToolCallIds, mem_flatMap]
  constructor
  · intro collected
    obtain ⟨pendingWrite, listed, member⟩ := collected
    cases pendingWrite with
    | short => exact absurd member not_mem_nil
    | entry channel value =>
      rw [PendingWrite.toolCallIds] at member
      by_cases messages : channel = "messages"
      · subst messages
        rw [if_pos rfl, mem_collect] at member
        exact ⟨member.1, value, listed, member.2⟩
      · rw [if_neg messages] at member
        exact absurd member not_mem_nil
  · intro held
    obtain ⟨filled, value, listed, inside⟩ := held
    refine ⟨_, listed, ?_⟩
    rw [PendingWrite.toolCallIds, if_pos rfl, mem_collect]
    exact ⟨filled, inside⟩

theorem pendingFrom_later {later : List Message} (closed : ∀ calls, .ai calls ∉ later)
    (completed : List String) (rest : List Message) :
    ∃ known, pendingFrom completed (later ++ rest) = pendingFrom known rest ∧
      ∀ id ∈ known, id ∈ completed ∨ id ≠ "" ∧ .tool id ∈ later := by
  induction later generalizing completed with
  | nil => exact ⟨completed, rfl, fun id member => .inl member⟩
  | cons message later ih =>
    have inner := ih fun calls member => closed calls (mem_cons_of_mem _ member)
    cases message with
    | ai calls => exact absurd mem_cons_self (closed calls)
    | other =>
      obtain ⟨known, same, source⟩ := inner completed
      refine ⟨known, same, fun id member => (source id member).imp_right ?_⟩
      exact And.imp_right (mem_cons_of_mem _)
    | tool toolCallId =>
      obtain ⟨known, same, source⟩ :=
        inner (if toolCallId = "" then completed else toolCallId :: completed)
      refine ⟨known, same, fun id member => ?_⟩
      rcases source id member with taken | ⟨filled, behind⟩
      · by_cases empty : toolCallId = ""
        · rw [if_pos empty] at taken
          exact .inl taken
        · rw [if_neg empty] at taken
          rcases mem_cons.mp taken with rfl | old
          · exact .inr ⟨empty, mem_cons_self⟩
          · exact .inl old
      · exact .inr ⟨filled, mem_cons_of_mem _ behind⟩

theorem mem_pendingCheckpointToolCalls {messages : List Message}
    {pendingWrites : List PendingWrite} {call : Call}
    (replayed : Replayed messages pendingWrites call) :
    call ∈ pendingCheckpointToolCalls messages (pendingWriteToolCallIds pendingWrites) := by
  obtain ⟨before, toolCalls, later, rfl, closed, listed, missing⟩ := replayed
  have closed' : ∀ calls, .ai calls ∉ later.reverse := fun calls member =>
    closed calls (mem_reverse.mp member)
  rw [pendingCheckpointToolCalls, reverse_append, reverse_cons, append_assoc]
  obtain ⟨known, same, source⟩ := pendingFrom_later closed' (pendingWriteToolCallIds pendingWrites)
    ([.ai toolCalls] ++ before.reverse)
  rw [same]
  have pending : call ∈ toolCalls.filter fun call => !known.any (decide <| · = call.id.getD "") := by
    refine mem_filter.mpr ⟨listed, ?_⟩
    rw [Bool.not_eq_true', Bool.eq_false_iff]
    intro completed
    obtain ⟨id, member, equal⟩ := any_eq_true.mp completed
    have filled : id ≠ "" := by
      rcases source id member with written | ⟨filled, -⟩
      · exact (mem_pendingWriteToolCallIds.mp written).1
      · exact filled
    have own : call.id = some id := by
      rw [of_decide_eq_true equal] at filled ⊢
      cases named : call.id with
      | none => simp [named] at filled
      | some id => rfl
    refine missing ⟨id, own, filled, ?_⟩
    rcases source id member with written | ⟨-, behind⟩
    · exact .inr (mem_pendingWriteToolCallIds.mp written).2
    · exact .inl (mem_reverse.mp behind)
  rw [singleton_append, pendingFrom]
  split
  · rename_i empty
    rw [isEmpty_iff.mp empty] at pending
    exact absurd pending not_mem_nil
  · exact pending

theorem checkCall_ok {call : Call} : checkCall tools call = .ok () ↔ Admitted tools call := by
  rw [checkCall, Admitted]
  cases toolByName tools call.name with
  | none => simp
  | some tool =>
    simp only [Option.some.injEq, exists_eq_left']
    cases tool.idempotent <;> cases tool.readOnly <;> cases tool.isWrite call.name <;> simp

theorem checkCalls_ok {calls : List Call} :
    checkCalls tools calls = .ok () ↔ ∀ call ∈ calls, Admitted tools call := by
  induction calls with
  | nil => simp [checkCalls]
  | cons call calls ih =>
    rw [forall_mem_cons, ← ih, ← checkCall_ok, checkCalls]
    cases checkCall tools call with
    | error rejection => simp
    | ok value => simp

theorem rejectUnsafeResumeToolReplay_ok {messages : List Message} {completed : List String} :
    rejectUnsafeResumeToolReplay messages tools completed = .ok () ↔
      (∀ message ∈ messages, message.captures = false) ∧
        ∀ call ∈ pendingCheckpointToolCalls messages completed, Admitted tools call := by
  rw [rejectUnsafeResumeToolReplay, ← checkCalls_ok]
  by_cases captured : messages.any Message.captures = true
  · rw [if_pos captured]
    obtain ⟨message, listed, holds⟩ := any_eq_true.mp captured
    refine ⟨nofun, fun both => ?_⟩
    rw [both.1 message listed] at holds
    cases holds
  · rw [if_neg captured]
    refine ⟨fun checked => ⟨fun message listed => ?_, checked⟩, And.right⟩
    exact Bool.eq_false_iff.mpr fun holds => captured (any_eq_true.mpr ⟨message, listed, holds⟩)

theorem replayed_admitted (messages : List Message) (pendingWrites : List PendingWrite)
    (tools : List Tool)
    (returned : rejectUnsafeResumeToolReplay messages tools
      (pendingWriteToolCallIds pendingWrites) = .ok ()) :
    ∀ call, Replayed messages pendingWrites call → Admitted tools call :=
  fun call replayed =>
    (rejectUnsafeResumeToolReplay_ok.mp returned).2 call (mem_pendingCheckpointToolCalls replayed)

def exportTool : Tool := ⟨"export", .null⟩

def exportCall : Call := ⟨"export", .obj [], some "a"⟩

theorem exportCall_replayed : Replayed [.ai [exportCall]] [.short] exportCall := by
  refine ⟨[], [exportCall], [], rfl, fun _ => not_mem_nil, mem_cons_self, ?_⟩
  rintro ⟨id, -, -, behind | ⟨value, written, -⟩⟩
  · exact absurd behind not_mem_nil
  · cases mem_singleton.mp written

theorem exportCall_admitted : Admitted [exportTool] exportCall :=
  replayed_admitted [.ai [exportCall]] [.short] [exportTool] rfl exportCall exportCall_replayed

/-- The guard passes a call whose tool declares nothing. -/
theorem undeclared_returns :
    ¬ (rejectUnsafeResumeToolReplay [.ai [exportCall]] [exportTool]
          (pendingWriteToolCallIds [.short]) = .ok () →
        ∀ call, Replayed [.ai [exportCall]] [.short] call →
          ∃ tool, toolByName [exportTool] call.name = some tool ∧
            (tool.idempotent = true ∨ tool.readOnly = true)) := by
  intro declared
  obtain ⟨tool, named, either⟩ := declared rfl exportCall exportCall_replayed
  obtain rfl : exportTool = tool := Option.some.inj named
  rcases either with idempotent | readOnly
  · exact absurd idempotent (by decide)
  · exact absurd readOnly (by decide)

end SourceLens.ReplayGuard
