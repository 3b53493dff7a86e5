import SourceLens.Library.Window
import SourceLens.RunGuardrails

/-! The loop detector of a run that crashes and resumes (`restore_runtime_state`), beside
the detector of the same run without the crash. -/

namespace SourceLens.LoopResume

open RunGuardrails Window Transition List

variable {Args Fingerprint Item : Type} [DecidableEq Fingerprint] [DecidableEq Item]
  {env : Env Args Fingerprint} {config : Config} {model other : Model Fingerprint}
  {message : Message Args}

structure World (Args Fingerprint : Type) where
  /-- The model of the run that never crashes. -/
  live : Model Fingerprint
  resumed : Model Fingerprint
  /-- The guardrail state that the resumed run has last exported. -/
  exported : Durable Fingerprint
  /-- The AI messages of the resumed run. -/
  messages : List (Message Args)
  /-- The calls of every turn, before the detector. -/
  turns : List (List (ToolCall Args))
  /-- The turns before the last export. -/
  persisted : Nat

inductive Action (Args : Type)
  /-- A turn of the model, with tool calls. -/
  | turn (message : Message Args)
  | persist
  | crash

def turn (env : Env Args Fingerprint) (config : Config) (world : World Args Fingerprint)
    (message : Message Args) : World Args Fingerprint :=
  { world with
    live := (applyLoopDetection env config world.live message).1
    resumed := (applyLoopDetection env config world.resumed message).1
    messages := world.messages ++ [(applyLoopDetection env config world.resumed message).2]
    turns := world.turns ++ [message.toolCalls] }

def step (env : Env Args Fingerprint) (config : Config) (world : World Args Fingerprint) :
    Action Args → Option (World Args Fingerprint)
  | .turn message => if message.toolCalls = [] then none else some (turn env config world message)
  | .persist =>
    some { world with
      exported := exportRuntimeState config world.resumed
      persisted := world.turns.length }
  | .crash =>
    some { world with
      resumed := restoreRuntimeState env config world.messages world.exported }

def start (config : Config) : World Args Fingerprint :=
  ⟨freshModel, freshModel, exportRuntimeState config freshModel, [], [], 0⟩

/-- The detectors of the two runs decide alike: both let the calls pass, or both suppress
them in the same way. -/
def Agrees (env : Env Args Fingerprint) (config : Config) (world : World Args Fingerprint) :
    Action Args → Prop
  | .turn message => (applyLoopDetection env config world.live message).2 =
      (applyLoopDetection env config world.resumed message).2
  | _ => True

/-- No call had left the window at the export; and what the messages have beyond the calls
of then, at its earliest occurrences, is what has been called since, in its order. -/
def InOrder (bound : Nat) (before since inMessages : List Item) : Prop :=
  before.length ≤ bound ∧ earliest (inMessages.diff before) inMessages = since

instance (bound : Nat) (before since inMessages : List Item) :
    Decidable (InOrder bound before since inMessages) :=
  inferInstanceAs (Decidable (_ ∧ _))

def fingerprints (env : Env Args Fingerprint) (turns : List (List (ToolCall Args))) :
    List Fingerprint :=
  turns.map env.fingerprint

def toolNames (turns : List (List (ToolCall Args))) : List String :=
  turns.flatten.map fun call => call.name

def Restorable (env : Env Args Fingerprint) (config : Config) (world : World Args Fingerprint) :
    Action Args → Prop
  | .crash => config.generalChatExecutionGates = true →
      InOrder 20 (fingerprints env (world.turns.take world.persisted))
        (fingerprints env (world.turns.drop world.persisted))
        (fingerprints env (withCalls world.messages)) ∧
      InOrder 50 (toolNames (world.turns.take world.persisted))
        (toolNames (world.turns.drop world.persisted)) (toolNames (withCalls world.messages))
  | _ => True

instance (env : Env Args Fingerprint) (config : Config) (world : World Args Fingerprint)
    (action : Action Args) : Decidable (Restorable env config world action) :=
  match action with
  | .crash => inferInstanceAs (Decidable (_ → _ ∧ _))
  | .turn _ | .persist => .isTrue trivial

theorem mergeRuntimeHistory_eq (durable messages : List Item) :
    mergeRuntimeHistory durable messages =
      durable ++ earliest (messages.diff durable) messages := by
  have loop : ∀ (rest merged wanted : List Item),
      (∀ value, wanted.count value = messages.count value - merged.count value) →
      rest.foldl (fun merged value =>
        if messages.count value ≤ merged.count value then merged else merged ++ [value]) merged =
        merged ++ earliest wanted rest := by
    intro rest
    induction rest with
    | nil => simp [earliest]
    | cons value rest ih =>
      intro merged wanted counts
      have count := counts value
      rw [foldl_cons, earliest]
      by_cases owed : value ∈ wanted
      · have positive : 0 < wanted.count value := count_pos_iff.mpr owed
        have below : ¬ messages.count value ≤ merged.count value := by omega
        rw [if_neg below, if_pos owed, ih (merged ++ [value]) (wanted.erase value),
          append_assoc, singleton_append]
        intro other
        have before := counts other
        by_cases same : other = value
        · subst same
          simp only [count_erase_self, count_append, count_singleton_self]
          omega
        · have apart : [value].count other = 0 := count_eq_zero.mpr (by simpa using same)
          rw [count_erase_of_ne same, count_append, apart]
          omega
      · have zero : wanted.count value = 0 := count_eq_zero.mpr owed
        have enough : messages.count value ≤ merged.count value := by omega
        rw [if_pos enough, if_neg owed, ih merged wanted counts]
  exact loop messages durable _ fun value => count_diff value messages durable

theorem mergeRuntimeHistory_inOrder {bound : Nat} {before since inMessages : List Item}
    (ordered : InOrder bound before since inMessages) :
    mergeRuntimeHistory (latest bound before) inMessages = before ++ since := by
  rw [latest_of_le ordered.1, mergeRuntimeHistory_eq, ordered.2]

omit [DecidableEq Item] in
theorem pushBounded_eq (bound : Nat) (items : List Item) (item : Item) :
    pushBounded bound items item = latest bound (items ++ [item]) := by
  rw [pushBounded, latest, length_append, length_singleton]

omit [DecidableEq Item] in
theorem pushAll_latest (bound : Nat) (items more : List Item) :
    pushAll bound (latest bound items) more = latest bound (items ++ more) := by
  induction more generalizing items with
  | nil => simp [pushAll]
  | cons item more ih =>
    calc
      pushAll bound (latest bound items) (item :: more) =
          pushAll bound (pushBounded bound (latest bound items) item) more := rfl
      _ = pushAll bound (latest bound (items ++ [item])) more := by
        rw [pushBounded_eq, latest_append]
      _ = latest bound (items ++ item :: more) := by
        rw [ih, append_assoc, singleton_append]

structure Seen (env : Env Args Fingerprint) (turns : List (List (ToolCall Args)))
    (calls : List Fingerprint) (names : List String) : Prop where
  calls : calls = latest 20 (fingerprints env turns)
  names : names = latest 50 (toolNames turns)

abbrev SeenBy (env : Env Args Fingerprint) (turns : List (List (ToolCall Args)))
    (model : Model Fingerprint) : Prop :=
  Seen env turns model.toolCallHistory model.toolNameHistory

omit [DecidableEq Fingerprint] in
theorem remember_seen {turns : List (List (ToolCall Args))} (seen : SeenBy env turns model)
    (calls : List (ToolCall Args)) : SeenBy env (turns ++ [calls]) (remember env model calls) := by
  constructor
  · rw [remember, seen.calls, pushBounded_eq, latest_append, fingerprints, fingerprints,
      map_append, map_singleton]
  · rw [remember, seen.names, pushAll_latest, toolNames, toolNames, flatten_append,
      map_append, flatten_singleton]

theorem restoreRuntimeState_seen {world : World Args Fingerprint}
    (exported : Seen env (world.turns.take world.persisted) world.exported.toolCallHistory
      world.exported.toolNameHistory)
    (restorable : Restorable env config world .crash)
    (gated : config.generalChatExecutionGates = true) :
    SeenBy env world.turns (restoreRuntimeState env config world.messages world.exported) := by
  obtain ⟨calls, names⟩ := restorable gated
  have whole : world.turns.take world.persisted ++ world.turns.drop world.persisted =
      world.turns := take_append_drop ..
  have windows : (restoreRuntimeState env config world.messages world.exported).toolCallHistory =
        pushAll 20 [] (mergeRuntimeHistory world.exported.toolCallHistory
          (fingerprints env (withCalls world.messages))) ∧
      (restoreRuntimeState env config world.messages world.exported).toolNameHistory =
        pushAll 50 [] (mergeRuntimeHistory world.exported.toolNameHistory
          (toolNames (withCalls world.messages))) := by
    rw [restoreRuntimeState, recapped]
    dsimp only
    split_ifs <;> exact ⟨rfl, rfl⟩
  have restored {bound : Nat} {Item : Type} [DecidableEq Item]
      {before since inMessages kept : List Item} (is : kept = latest bound before)
      (ordered : InOrder bound before since inMessages) :
      pushAll bound [] (mergeRuntimeHistory kept inMessages) = latest bound (before ++ since) := by
    rw [is, mergeRuntimeHistory_inOrder ordered]
    have empty : latest bound ([] : List Item) = [] := latest_of_le (Nat.zero_le _)
    have pushed := pushAll_latest bound [] (before ++ since)
    rwa [empty] at pushed
  constructor
  · rw [windows.1, restored exported.calls calls, fingerprints, fingerprints, fingerprints,
      ← map_append, whole]
  · rw [windows.2, restored exported.names names, toolNames, toolNames, toolNames,
      ← map_append, ← flatten_append, whole]

theorem applyLoopDetection_congr (calls : model.toolCallHistory = other.toolCallHistory)
    (names : model.toolNameHistory = other.toolNameHistory) :
    (applyLoopDetection env config model message).2 =
      (applyLoopDetection env config other message).2 := by
  have sameCalls : (remember env model message.toolCalls).toolCallHistory =
      (remember env other message.toolCalls).toolCallHistory := by
    rw [remember, remember, calls]
  have sameNames : (remember env model message.toolCalls).toolNameHistory =
      (remember env other message.toolCalls).toolNameHistory := by
    rw [remember, remember, names]
  have sameTool : ∀ of : List String, loopTool config (remember env model message.toolCalls) of =
      loopTool config (remember env other message.toolCalls) of := by
    intro of
    rw [loopTool, loopTool, sameNames]
  rw [applyLoopDetection, applyLoopDetection]
  split
  · rfl
  · dsimp only
    rw [sameCalls, sameTool]
    split <;> rfl

theorem warnRepeat_windows (fingerprint : Fingerprint) :
    (warnRepeat config model fingerprint).toolCallHistory = model.toolCallHistory ∧
      (warnRepeat config model fingerprint).toolNameHistory = model.toolNameHistory := by
  rw [warnRepeat]
  split <;> exact ⟨rfl, rfl⟩

omit [DecidableEq Fingerprint] in
theorem warnTools_windows (names : List String) (model : Model Fingerprint) :
    (names.foldl (warnTool config) model).toolCallHistory = model.toolCallHistory ∧
      (names.foldl (warnTool config) model).toolNameHistory = model.toolNameHistory := by
  induction names generalizing model with
  | nil => exact ⟨rfl, rfl⟩
  | cons name rest ih =>
    have one : (warnTool config model name).toolCallHistory = model.toolCallHistory ∧
        (warnTool config model name).toolNameHistory = model.toolNameHistory := by
      rw [warnTool]
      split <;> exact ⟨rfl, rfl⟩
    rw [foldl_cons, (ih _).1, (ih _).2]
    exact one

theorem applyLoopDetection_seen {turns : List (List (ToolCall Args))}
    (seen : SeenBy env turns model) (gated : config.generalChatExecutionGates = true)
    (calling : message.toolCalls ≠ []) :
    SeenBy env (turns ++ [message.toolCalls])
      (applyLoopDetection env config model message).1 := by
  have taken := remember_seen seen message.toolCalls
  have on : ¬ (config.generalChatExecutionGates = false ∨ message.toolCalls = []) := by
    simp [gated, calling]
  rw [applyLoopDetection, if_neg on]
  dsimp only
  split
  · exact ⟨taken.calls, taken.names⟩
  · constructor
    · rw [(warnTools_windows ..).1, (warnRepeat_windows _).1]
      exact taken.calls
    · rw [(warnTools_windows ..).2, (warnRepeat_windows _).2]
      exact taken.names

/-- Both detectors have seen all turns, and the export those before it. -/
structure Synced (env : Env Args Fingerprint) (world : World Args Fingerprint) : Prop where
  live : SeenBy env world.turns world.live
  resumed : SeenBy env world.turns world.resumed
  exported : Seen env (world.turns.take world.persisted) world.exported.toolCallHistory
    world.exported.toolNameHistory
  past : world.persisted ≤ world.turns.length

omit [DecidableEq Fingerprint] in
theorem start_synced : Synced env (start config : World Args Fingerprint) :=
  ⟨⟨rfl, rfl⟩, ⟨rfl, rfl⟩, ⟨rfl, rfl⟩, Nat.le_refl 0⟩

theorem step_synced {world next : World Args Fingerprint} {action : Action Args}
    (gated : config.generalChatExecutionGates = true) (synced : Synced env world)
    (restorable : Restorable env config world action)
    (taken : step env config world action = some next) : Synced env next := by
  cases action with
  | turn message =>
    simp only [step, Option.ite_none_left_eq_some, Option.some.injEq] at taken
    obtain ⟨calling, rfl⟩ := taken
    refine ⟨applyLoopDetection_seen synced.live gated calling,
      applyLoopDetection_seen synced.resumed gated calling, ?_, ?_⟩
    · have same : (world.turns ++ [message.toolCalls]).take world.persisted =
          world.turns.take world.persisted := take_append_of_le_length synced.past
      rw [turn, same]
      exact synced.exported
    · have past := synced.past
      simp only [turn, length_append]
      omega
  | persist =>
    cases taken
    refine ⟨synced.live, synced.resumed, ?_, Nat.le_refl _⟩
    rw [take_length]
    exact synced.resumed
  | crash =>
    cases taken
    exact ⟨synced.live, restoreRuntimeState_seen synced.exported restorable gated,
      synced.exported, synced.past⟩

theorem Synced.agrees {world : World Args Fingerprint} (synced : Synced env world)
    (action : Action Args) : Agrees env config world action := by
  cases action with
  | turn message =>
    apply applyLoopDetection_congr
    · rw [synced.live.calls, synced.resumed.calls]
    · rw [synced.live.names, synced.resumed.names]
  | persist => trivial
  | crash => trivial

theorem agrees_of_ungated (ungated : config.generalChatExecutionGates = false)
    (world : World Args Fingerprint) (action : Action Args) : Agrees env config world action := by
  cases action with
  | turn message =>
    have off : ∀ model : Model Fingerprint,
        (applyLoopDetection env config model message).2 = message := by
      intro model
      rw [applyLoopDetection, if_pos (.inl ungated)]
    rw [Agrees, off, off]
  | persist => trivial
  | crash => trivial

/-- Where every crash comes while the export has lost nothing and the calls since then
come back in order, the resumed run is stopped exactly as the one without crashes. -/
theorem loop_stops_resumed {actions : List (Action Args)} {finish : World Args Fingerprint}
    (run : Steps (step env config) (Restorable env config) (start config) actions finish) :
    Steps (step env config) (Agrees env config) (start config) actions finish := by
  cases gated : config.generalChatExecutionGates with
  | false => exact run.weaken fun world action _ => agrees_of_ungated gated world action
  | true =>
    refine run.implied (Synced env) ?_ ?_ start_synced
    · exact fun _ _ _ synced restorable taken => step_synced gated synced restorable taken
    · exact fun _ action synced _ => synced.agrees action

def reads (line : Nat) : Message Nat := ⟨[], [⟨"read", line, "call"⟩], [], {}⟩

def linesEnv : Env Nat (List Nat) where
  lower := id
  protocolPrefix := fun _ => false
  fingerprint := fun calls => calls.map fun call => call.args
  warns := fun _ _ => false
  restoredWarns := fun _ _ => false

def defaults : Config where
  tokenBudgetGatesEnabled := false
  tokenBudgetMaxTokens := 0
  tokenBudgetFinalReserveTokens := 0
  shared := false
  generalChatExecutionGates := true
  summarizes := false
  loopRepeatWarn := 3
  loopRepeatHard := 5
  loopToolWarn := 30
  loopToolHard := 50

/-- Two calls are lost with the crash, and the fifth repetition stops both runs. -/
def resumedTurns : List (Action Nat) :=
  List.replicate 2 (.turn (reads 100)) ++ [.persist] ++
    List.replicate 2 (.turn (reads 100)) ++ [.crash, .turn (reads 100)]

theorem loop_stops_resumed_reads :
    ∃ finish, Steps (step linesEnv defaults) (Agrees linesEnv defaults) (start defaults)
      resumedTurns finish ∧ finish.live.stopReason = some .loopCapped ∧
        finish.resumed.stopReason = some .loopCapped := by
  have executed : (execGuarded (step linesEnv defaults) (Restorable linesEnv defaults)
      (start defaults) resumedTurns).any (fun finish =>
        decide (finish.live.stopReason = some .loopCapped ∧
          finish.resumed.stopReason = some .loopCapped)) = true := by
    decide +kernel
  obtain ⟨finish, reached, stopped⟩ := (Option.any_eq_true _ _).mp executed
  exact ⟨finish, loop_stops_resumed (execGuarded_steps reached), of_decide_eq_true stopped⟩

/-- Four calls, and twenty others that push them out of the window. -/
def evictedTurns : List (Action Nat) :=
  List.replicate 4 (.turn (reads 100)) ++
    (List.range 20).map (fun index => .turn (reads index)) ++ [.persist, .crash]

/-- After the crash the fifth call in twenty-five turns counts as the fifth in a row. -/
theorem loop_stop_after_crash :
    ∃ world, exec (step linesEnv defaults) (start defaults) evictedTurns = some world ∧
      (applyLoopDetection linesEnv defaults world.live (reads 100)).2 = reads 100 ∧
      (applyLoopDetection linesEnv defaults world.resumed (reads 100)).1.stopReason =
        some .loopCapped ∧
      ¬ Agrees linesEnv defaults world (.turn (reads 100)) := by
  have executed : (exec (step linesEnv defaults) (start defaults) evictedTurns).any (fun world =>
      decide ((applyLoopDetection linesEnv defaults world.live (reads 100)).2 =
        reads 100 ∧
      (applyLoopDetection linesEnv defaults world.resumed (reads 100)).1.stopReason =
        some .loopCapped ∧
      (applyLoopDetection linesEnv defaults world.live (reads 100)).2 ≠
        (applyLoopDetection linesEnv defaults world.resumed (reads 100)).2)) = true := by
    decide +kernel
  obtain ⟨world, reached, facts⟩ := (Option.any_eq_true _ _).mp executed
  have facts := of_decide_eq_true facts
  exact ⟨world, reached, facts.1, facts.2.1, facts.2.2⟩

end SourceLens.LoopResume
