import SourceLens.RunGuardrails
import Mathlib.Data.List.Induction

/-! What one response does to the usage, the stop reason and the message of its model. -/

namespace SourceLens.RunGuardrails

variable {Args Fingerprint : Type} {env : Env Args Fingerprint}
  {config : Config} {model : Model Fingerprint} {message : Message Args} {usage : Usage}

variable {received : List Usage}

def spent (config : Config) (received : List Usage) : TokenUsage :=
  (received.map (charge config)).foldl TokenUsage.add noUsage

def TokenUsage.Le (left right : TokenUsage) : Prop :=
  left.prompt ≤ right.prompt ∧ left.completion ≤ right.completion ∧ left.total ≤ right.total

theorem TokenUsage.Le.refl (usage : TokenUsage) : usage.Le usage :=
  ⟨Nat.le_refl _, Nat.le_refl _, Nat.le_refl _⟩

theorem TokenUsage.Le.trans {first second third : TokenUsage} (front : first.Le second)
    (back : second.Le third) : first.Le third :=
  ⟨Nat.le_trans front.1 back.1, Nat.le_trans front.2.1 back.2.1, Nat.le_trans front.2.2 back.2.2⟩

theorem TokenUsage.le_add (left right : TokenUsage) : left.Le (left.add right) :=
  ⟨Nat.le_add_right .., Nat.le_add_right .., Nat.le_add_right ..⟩

theorem TokenUsage.Le.sup {left right : TokenUsage} (less : right.Le left) :
    left.sup right = left := by
  obtain ⟨prompt, completion, total⟩ := less
  simp only [TokenUsage.sup, Nat.max_eq_left prompt, Nat.max_eq_left completion,
    Nat.max_eq_left total]

theorem spent_snoc (received : List Usage) (usage : Usage) :
    spent config (received ++ [usage]) = (spent config received).add (charge config usage) := by
  simp only [spent, List.map_append, List.map_cons, List.map_nil, List.foldl_append,
    List.foldl_cons, List.foldl_nil]

theorem spent_le (received more : List Usage) :
    (spent config received).Le (spent config (received ++ more)) := by
  induction more using List.reverseRecOn with
  | nil =>
    rw [List.append_nil]
    exact .refl _
  | append_singleton more usage ih =>
    rw [← List.append_assoc, spent_snoc]
    exact ih.trans (TokenUsage.le_add ..)

structure Books (config : Config) (received : List Usage) (model : Model Fingerprint) : Prop where
  run : model.runTokenUsage = spent config received
  shared : model.sharedUsage = if config.shared then spent config received else noUsage

abbrev Reached (config : Config) (received : List Usage) : Prop :=
  hardStop config (spent config received).total = true

theorem Books.reported (books : Books config received model) :
    tokenUsage config model = spent config received := by
  rw [tokenUsage]
  split
  · rename_i shared
    rw [books.shared, if_pos shared]
  · exact books.run

theorem Books.of_eq {other : Model Fingerprint} (books : Books config received model)
    (run : other.runTokenUsage = model.runTokenUsage)
    (shared : other.sharedUsage = model.sharedUsage) : Books config received other :=
  ⟨run.trans books.run, shared.trans books.shared⟩

theorem Reached.mono (reached : Reached config received) (more : List Usage) :
    Reached config (received ++ more) := by
  simp only [Reached, hardStop, Bool.and_eq_true, decide_eq_true_eq] at reached ⊢
  exact ⟨reached.1, Nat.le_trans reached.2 (spent_le received more).2.2⟩

theorem terminated_usage (metadata : Metadata) :
    (terminated model metadata).runTokenUsage = model.runTokenUsage ∧
      (terminated model metadata).sharedUsage = model.sharedUsage := by
  rw [terminated]
  split
  · exact ⟨rfl, rfl⟩
  · split <;> exact ⟨rfl, rfl⟩

theorem consume_books (books : Books config received model) (usage : Usage) :
    Books config (received ++ [usage]) (consume config model (charge config usage)) := by
  rw [consume]
  split
  · rename_i shared
    have known := books.shared
    rw [if_pos shared] at known
    constructor
    · rw [spent_snoc, ← known]
    · rw [if_pos shared, spent_snoc, ← known]
  · rename_i separate
    constructor
    · rw [spent_snoc, ← books.run]
    · rw [books.shared, if_neg separate, if_neg separate]

theorem budgeted_usage :
    (budgeted env config model).runTokenUsage = model.runTokenUsage ∧
      (budgeted env config model).sharedUsage = model.sharedUsage := by
  dsimp only [budgeted]
  split_ifs <;> exact ⟨rfl, rfl⟩

theorem budgeted_reason (stop : hardStop config model.runTokenUsage.total = true) :
    (budgeted env config model).stopReason = some .tokenCapped := by
  dsimp only [budgeted]
  rw [if_pos stop]

theorem budgeted_capped (capped : (budgeted env config model).stopReason = some .tokenCapped) :
    hardStop config model.runTokenUsage.total = true ∨ model.stopReason = some .tokenCapped := by
  by_cases stop : hardStop config model.runTokenUsage.total = true
  · exact .inl stop
  · right
    dsimp only [budgeted] at capped
    rw [if_neg stop] at capped
    split_ifs at capped <;> first | exact capped | cases capped

/-- What the budget makes of a message that came with the last of the responses. -/
structure Budgeted (config : Config) (received : List Usage) (model : Model Fingerprint)
    (message : Message Args) (result : Model Fingerprint × Message Args) : Prop where
  books : Books config received result.1
  reason : Reached config received → result.1.stopReason = some .tokenCapped
  capped : result.1.stopReason = some .tokenCapped →
    Reached config received ∨ model.stopReason = some .tokenCapped
  calls : Reached config received → result.2.toolCalls = []
  idle : message.toolCalls = [] → result.2.toolCalls = [] ∧ result.2.content = message.content
  length : result.2.metadata.modelLengthCapped = message.metadata.modelLengthCapped
  usage : ∀ noted, result.2.metadata.runTokenUsage = some noted →
    noted = spent config received ∨ message.metadata.runTokenUsage = some noted
  marked : result.2.metadata.tokenCapped = true →
    Reached config received ∨ message.metadata.tokenCapped = true

theorem terminated_capped {metadata : Metadata}
    (capped : (terminated model metadata).stopReason = some .tokenCapped) :
    model.stopReason = some .tokenCapped := by
  rw [terminated] at capped
  split at capped
  · cases capped
  · split at capped
    · cases capped
    · exact capped

theorem consume_reason {cost : TokenUsage} :
    (consume config model cost).stopReason = model.stopReason := by
  rw [consume]
  split <;> rfl

theorem applyTokenBudget_spec (books : Books config received model) (env : Env Args Fingerprint)
    (message : Message Args) (usage : Usage) : Budgeted config (received ++ [usage]) model message
      (applyTokenBudget env config model message usage) := by
  have begun : Books config received (terminated model message.metadata) :=
    books.of_eq (terminated_usage _).1 (terminated_usage _).2
  have consumed := consume_books begun usage
  have total := congrArg TokenUsage.total consumed.run
  dsimp only [applyTokenBudget]
  constructor
  case books => exact consumed.of_eq budgeted_usage.1 budgeted_usage.2
  case reason =>
    intro reached
    exact budgeted_reason (by rw [total]; exact reached)
  case capped =>
    intro capped
    rcases budgeted_capped capped with stop | before
    · left
      rw [total] at stop
      exact stop
    · rw [consume_reason] at before
      exact .inr (terminated_capped before)
  case calls =>
    intro reached
    have stop : ¬hardStop config (consume config (terminated model message.metadata)
        (charge config usage)).runTokenUsage.total = false := by
      rw [total, reached]
      decide
    rw [if_neg stop]
    split
    · assumption
    · rfl
  case idle =>
    intro none
    split
    · exact ⟨none, rfl⟩
    · exact ⟨none, rfl⟩
  case length =>
    split
    · rfl
    · split <;> rfl
  case usage =>
    intro noted is
    split at is
    · left
      rw [← consumed.run]
      exact (Option.some.inj is).symm
    · split at is
      · left
        rw [← consumed.run]
        exact (Option.some.inj is).symm
      · exact .inr is
  case marked =>
    intro marked
    split at marked
    · exact .inr marked
    · rename_i stop
      left
      rw [total, Bool.not_eq_false] at stop
      exact stop

theorem messageFromGateway_spec {response : Response Args}
    (parsed : messageFromGateway env response = some message) :
    message.metadata.runTokenUsage = none ∧ message.metadata.tokenCapped = false ∧
      (message.metadata.modelLengthCapped = true → message.toolCalls = []) := by
  dsimp only [messageFromGateway] at parsed
  split at parsed
  · cases parsed
  · split at parsed
    · cases parsed
      exact ⟨rfl, rfl, fun _ => rfl⟩
    · split at parsed
      · cases parsed
        exact ⟨rfl, rfl, fun _ => rfl⟩
      · cases parsed
        exact ⟨rfl, rfl, nofun⟩

theorem warnTool_usage {name : String} :
    (warnTool config model name).runTokenUsage = model.runTokenUsage ∧
      (warnTool config model name).sharedUsage = model.sharedUsage ∧
      (warnTool config model name).stopReason = model.stopReason := by
  rw [warnTool]
  split <;> exact ⟨rfl, rfl, rfl⟩

theorem warnTools_usage (names : List String) (model : Model Fingerprint) :
    (names.foldl (warnTool config) model).runTokenUsage = model.runTokenUsage ∧
      (names.foldl (warnTool config) model).sharedUsage = model.sharedUsage ∧
      (names.foldl (warnTool config) model).stopReason = model.stopReason := by
  induction names generalizing model with
  | nil => exact ⟨rfl, rfl, rfl⟩
  | cons name names ih =>
    obtain ⟨run, shared, reason⟩ := ih (warnTool config model name)
    exact ⟨run.trans warnTool_usage.1, shared.trans warnTool_usage.2.1,
      reason.trans warnTool_usage.2.2⟩

variable [DecidableEq Fingerprint]

theorem warnRepeat_usage {fingerprint : Fingerprint} :
    (warnRepeat config model fingerprint).runTokenUsage = model.runTokenUsage ∧
      (warnRepeat config model fingerprint).sharedUsage = model.sharedUsage ∧
      (warnRepeat config model fingerprint).stopReason = model.stopReason := by
  rw [warnRepeat]
  split <;> exact ⟨rfl, rfl, rfl⟩

structure Looped (model : Model Fingerprint) (message : Message Args)
    (result : Model Fingerprint × Message Args) : Prop where
  run : result.1.runTokenUsage = model.runTokenUsage
  shared : result.1.sharedUsage = model.sharedUsage
  capped : result.1.stopReason = some .tokenCapped → model.stopReason = some .tokenCapped
  idle : message.toolCalls = [] → result = (model, message)
  length : result.2.metadata.modelLengthCapped = message.metadata.modelLengthCapped
  usage : result.2.metadata.runTokenUsage = message.metadata.runTokenUsage
  marked : result.2.metadata.tokenCapped = message.metadata.tokenCapped

theorem applyLoopDetection_spec (env : Env Args Fingerprint) (config : Config)
    (model : Model Fingerprint) (message : Message Args) :
    Looped model message (applyLoopDetection env config model message) := by
  dsimp only [applyLoopDetection]
  split
  · exact ⟨rfl, rfl, id, fun _ => rfl, rfl, rfl, rfl⟩
  · rename_i active
    have busy : message.toolCalls ≠ [] := fun none => active (.inr none)
    split
    · exact ⟨rfl, rfl, fun no => by (cases no), fun none => absurd none busy, rfl, rfl, rfl⟩
    · refine ⟨?_, ?_, ?_, fun none => absurd none busy, rfl, rfl, rfl⟩
      · exact (warnTools_usage _ _).1.trans warnRepeat_usage.1
      · exact (warnTools_usage _ _).2.1.trans warnRepeat_usage.2.1
      · rw [(warnTools_usage _ _).2.2, warnRepeat_usage.2.2]
        exact id

structure Received (env : Env Args Fingerprint) (config : Config) (received : List Usage)
    (model : Model Fingerprint) (response : Response Args)
    (result : Model Fingerprint × Option (Message Args)) : Prop where
  books : Books config received result.1
  reason : Reached config received → result.1.stopReason = some .tokenCapped
  capped : result.1.stopReason = some .tokenCapped →
    Reached config received ∨ model.stopReason = some .tokenCapped
  refused : result.2 = none ↔ messageFromGateway env response = none
  calls : ∀ message ∈ result.2, Reached config received → message.toolCalls = []
  parsed : ∀ message ∈ result.2, ∃ parsed, messageFromGateway env response = some parsed ∧
    shouldRetryLengthCapped message = shouldRetryLengthCapped parsed ∧
    message.metadata.modelLengthCapped = parsed.metadata.modelLengthCapped
  usage : ∀ message ∈ result.2, ∀ noted, message.metadata.runTokenUsage = some noted →
    noted = spent config received
  marked : ∀ message ∈ result.2, message.metadata.tokenCapped = true → Reached config received

theorem receive_spec (env : Env Args Fingerprint) (response : Response Args)
    (books : Books config received model) :
    Received env config (received ++ [response.usage]) model response
      (receive env config model response) := by
  cases parsed : messageFromGateway env response with
  | none =>
    have budget := applyTokenBudget_spec books env emptyMessage response.usage
    have same : receive env config model response =
        ((applyTokenBudget env config model emptyMessage response.usage).1, none) := by
      rw [receive, parsed]
    rw [same]
    exact ⟨budget.books, budget.reason, budget.capped, ⟨fun _ => parsed, fun _ => rfl⟩,
      fun _ no => by (cases no), fun _ no => by (cases no), fun _ no => by (cases no),
      fun _ no => by (cases no)⟩
  | some message =>
    obtain ⟨unnoted, unmarked, silent⟩ := messageFromGateway_spec parsed
    have budget := applyTokenBudget_spec books env message response.usage
    have loops := applyLoopDetection_spec env config
      (applyTokenBudget env config model message response.usage).1
      (applyTokenBudget env config model message response.usage).2
    have same : receive env config model response =
        ((applyLoopDetection env config (applyTokenBudget env config model message
            response.usage).1 (applyTokenBudget env config model message response.usage).2).1,
          some (applyLoopDetection env config (applyTokenBudget env config model message
            response.usage).1 (applyTokenBudget env config model message response.usage).2).2) := by
      rw [receive, parsed]
    rw [same]
    constructor
    case books => exact budget.books.of_eq loops.run loops.shared
    case reason =>
      intro reached
      rw [loops.idle (budget.calls reached)]
      exact budget.reason reached
    case capped => exact fun capped => budget.capped (loops.capped capped)
    case refused => exact ⟨fun no => by (cases no), fun no => by (rw [parsed] at no; cases no)⟩
    case calls =>
      intro result is reached
      cases is
      rw [loops.idle (budget.calls reached)]
      exact budget.calls reached
    case parsed =>
      intro result is
      cases is
      refine ⟨message, parsed, ?_, loops.length.trans budget.length⟩
      cases capped : message.metadata.modelLengthCapped with
      | false =>
        simp only [shouldRetryLengthCapped, loops.length, budget.length, capped,
          Bool.false_and]
      | true =>
        obtain ⟨still, content⟩ := budget.idle (silent capped)
        rw [loops.idle still]
        simp only [shouldRetryLengthCapped, budget.length, still, content, silent capped]
    case usage =>
      intro result is noted notes
      cases is
      rw [loops.usage] at notes
      rcases budget.usage noted notes with now | before
      · exact now
      · rw [unnoted] at before
        cases before
    case marked =>
      intro result is marks
      cases is
      rw [loops.marked] at marks
      rcases budget.marked marks with now | before
      · exact now
      · rw [unmarked] at before
        cases before

end SourceLens.RunGuardrails
