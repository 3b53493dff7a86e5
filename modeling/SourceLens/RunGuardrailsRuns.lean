import SourceLens.RunGuardrailsSteps
import Mathlib.Algebra.GroupWithZero.Nat

/-! The usage of a run is the sum over its responses, and a total at the budget stops the run,
but for a length-capped response whose retry is not capped. -/

namespace SourceLens.RunGuardrails

open Transition List

variable {Args Fingerprint : Type} {env : Env Args Fingerprint} {config : Config}
  {model : Model Fingerprint} {call : Call Args} {received : List Usage}

variable {run : Run Args Fingerprint} {messages : List (Message Args)}

/-- The message that a call accepts before any retry, with all that is received by then. -/
def accepted (env : Env Args Fingerprint) (config : Config) (received : List Usage)
    (call : Call Args) : Option (Message Args × List Usage) :=
  if call.cancelled then none
  else match call.first with
    | .failed => none
    | .response first =>
      match messageFromGateway env first with
      | some message => some (message, received ++ [first.usage])
      | none =>
        if call.control ∨ config.summarizes ∨ Reached config (received ++ [first.usage]) then none
        else match call.recovery with
          | .failed => none
          | .response second =>
            (messageFromGateway env second).map fun message =>
              (message, received ++ [first.usage, second.usage])

/-- The call retries a length-capped message without text, the answer to the retry is not
capped, and the total with it is at the budget. -/
def Lifts (env : Env Args Fingerprint) (config : Config) (received : List Usage)
    (call : Call Args) : Prop :=
  ∃ message before response retried, accepted env config received call = some (message, before) ∧
    shouldRetryLengthCapped message = true ∧ call.retry = .response response ∧
    messageFromGateway env response = some retried ∧
    retried.metadata.modelLengthCapped = false ∧ Reached config (before ++ [response.usage])

def Behind (config : Config) (received : List Usage) (message : Message Args) : Prop :=
  (∀ noted, message.metadata.runTokenUsage = some noted → noted.Le (spent config received)) ∧
    (message.metadata.tokenCapped = true → Reached config received)

theorem Behind.mono {message : Message Args} (behind : Behind config received message)
    (more : List Usage) : Behind config (received ++ more) message :=
  ⟨fun noted is => (behind.1 noted is).trans (spent_le received more),
    fun marked => (behind.2 marked).mono more⟩

theorem restoredUsage_spent (behind : ∀ message ∈ messages, Behind config received message) :
    restoredUsage (spent config received) messages = spent config received := by
  induction messages with
  | nil => rfl
  | cons message messages ih =>
    have rest := ih fun other member => behind other (mem_cons_of_mem _ member)
    have first := (behind message (mem_cons_self ..)).1
    cases noted : message.metadata.runTokenUsage with
    | none =>
      simp only [restoredUsage, foldl_cons, noted]
      exact rest
    | some candidate =>
      simp only [restoredUsage, foldl_cons, noted, (first candidate noted).sup]
      exact rest

theorem metadataReason_capped {metadata : Metadata}
    (capped : metadataReason metadata = some .tokenCapped) : metadata.tokenCapped = true := by
  rw [metadataReason] at capped
  split_ifs at capped with marked <;> first | exact marked | cases capped

theorem restoredReason_capped {reason : Option StopReason}
    (behind : ∀ message ∈ messages, Behind config received message)
    (before : reason = some .tokenCapped → Reached config received)
    (capped : restoredReason reason messages = some .tokenCapped) : Reached config received := by
  induction messages generalizing reason with
  | nil => exact before capped
  | cons message messages ih =>
    refine ih (fun other member => behind other (mem_cons_of_mem _ member)) ?_ capped
    intro now
    cases reason with
    | some reason => exact before now
    | none => exact (behind message (mem_cons_self ..)).2 (metadataReason_capped now)

theorem recapped_usage :
    (recapped env config model).runTokenUsage = model.runTokenUsage ∧
      (recapped env config model).sharedUsage = model.sharedUsage := by
  dsimp only [recapped]
  split_ifs <;> exact ⟨rfl, rfl⟩

theorem hardStop_iff (gated : config.tokenBudgetGatesEnabled = true) {total : Nat} :
    hardStop config total = true ↔
      config.tokenBudgetMaxTokens ≠ 0 ∧ config.tokenBudgetMaxTokens ≤ total := by
  simp only [hardStop, gated, Bool.true_and, Bool.and_eq_true, bne_iff_ne, decide_eq_true_eq]

theorem recapped_reason (gated : config.tokenBudgetGatesEnabled = true)
    (reached : hardStop config model.runTokenUsage.total = true) :
    (recapped env config model).stopReason = some .tokenCapped := by
  dsimp only [recapped]
  rw [if_pos ((hardStop_iff gated).mp reached)]

theorem recapped_capped (gated : config.tokenBudgetGatesEnabled = true)
    (capped : (recapped env config model).stopReason = some .tokenCapped) :
    hardStop config model.runTokenUsage.total = true ∨ model.stopReason = some .tokenCapped := by
  by_cases full : hardStop config model.runTokenUsage.total = true
  · exact .inl full
  · right
    dsimp only [recapped] at capped
    rw [if_neg fun reached => full ((hardStop_iff gated).mpr reached)] at capped
    split_ifs at capped <;> first | exact capped | cases capped

/-- The messages of a checkpoint are returned ones, or bear no mark of the budget. -/
def Genuine (run : Run Args Fingerprint) : Action Args → Prop
  | .call _ => True
  | .roundTrip messages => ∀ message ∈ messages, message ∈ run.returned.map Prod.fst ∨
      message.metadata.runTokenUsage = none ∧ message.metadata.tokenCapped = false

def Clear (env : Env Args Fingerprint) (config : Config) (run : Run Args Fingerprint) :
    Action Args → Prop
  | .call call => ¬Lifts env config run.received call
  | .roundTrip _ => True

structure Kept (config : Config) (run : Run Args Fingerprint) : Prop where
  books : Books config run.received run.model
  capped : run.model.stopReason = some .tokenCapped → Reached config run.received
  behind : ∀ returned ∈ run.returned, Behind config run.received returned.1
  calls : ∀ returned ∈ run.returned, hardStop config returned.2 = true → returned.1.toolCalls = []

theorem Kept.start : Kept config (start : Run Args Fingerprint) := by
  constructor
  case books =>
    constructor
    · rfl
    · split <;> rfl
  case capped => nofun
  case behind => nofun
  case calls => nofun

theorem spent_total (received : List Usage) : (spent config received).total =
    (received.map fun usage => (charge config usage).total).sum := by
  induction received using List.reverseRecOn with
  | nil => rfl
  | append_singleton received usage ih =>
    rw [spent_snoc, map_append, sum_append, ← ih]
    rfl

theorem Kept.reported (kept : Kept config run) : (tokenUsage config run.model).total =
      (run.received.map fun usage => (charge config usage).total).sum :=
  (congrArg TokenUsage.total kept.books.reported).trans (spent_total run.received)

/-- What a call returns and leaves, after all the responses that are received by its end. -/
structure Generated (config : Config) (received : List Usage)
    (result : Result Args Fingerprint) : Prop where
  books : Books config (received ++ result.received) result.model
  capped : result.model.stopReason = some .tokenCapped →
    Reached config (received ++ result.received)
  calls : ∀ message ∈ result.message, Reached config (received ++ result.received) →
    message.toolCalls = []
  usage : ∀ message ∈ result.message, ∀ noted, message.metadata.runTokenUsage = some noted →
    noted = spent config (received ++ result.received)
  marked : ∀ message ∈ result.message, message.metadata.tokenCapped = true →
    Reached config (received ++ result.received)

/-- A total at the budget is stopped for, unless it was reached before without a stop. -/
abbrev Stopped (config : Config) (received : List Usage) (model : Model Fingerprint) : Prop :=
  Reached config received → model.stopReason = some .tokenCapped

theorem Generated.idle (books : Books config received model)
    (capped : model.stopReason = some .tokenCapped → Reached config received) :
    Generated config received (⟨model, none, []⟩ : Result Args Fingerprint) := by
  constructor
  case books =>
    rw [append_nil]
    exact books
  case capped =>
    rw [append_nil]
    exact capped
  all_goals nofun

theorem Generated.answered (more : List Usage) {response : Response Args}
    {result : Model Fingerprint × Option (Message Args)}
    (spec : Received env config (received ++ more ++ [response.usage]) model response result)
    (capped : model.stopReason = some .tokenCapped → Reached config (received ++ more)) :
    Generated config received
      (⟨result.1, result.2, more ++ [response.usage]⟩ : Result Args Fingerprint) := by
  constructor
  all_goals rw [← append_assoc]
  case books => exact spec.books
  case capped =>
    intro now
    rcases spec.capped now with reached | before
    · exact reached
    · exact (capped before).mono _
  case calls => exact spec.calls
  case usage => exact spec.usage
  case marked => exact spec.marked

/-- The message that the recovery ends with is the one that the call accepts. -/
structure Recovered (env : Env Args Fingerprint) (config : Config) (received : List Usage)
    (call : Call Args) (model : Model Fingerprint) (result : Result Args Fingerprint) : Prop where
  generated : Generated config received result
  stopped : Stopped config received model → Stopped config (received ++ result.received) result.model
  accepts : ∀ message ∈ result.message, ∃ parsed,
    accepted env config received call = some (parsed, received ++ result.received) ∧
    shouldRetryLengthCapped message = shouldRetryLengthCapped parsed
  refuses : result.message = none → accepted env config received call = none

variable [DecidableEq Fingerprint]

theorem withProtocolRecovery_spec (env : Env Args Fingerprint) (live : call.cancelled = false)
    (books : Books config received model)
    (capped : model.stopReason = some .tokenCapped → Reached config received) :
    Recovered env config received call model (withProtocolRecovery env config model call) := by
  cases replied : call.first with
  | failed =>
    have same : withProtocolRecovery env config model call = ⟨model, none, []⟩ := by
      rw [withProtocolRecovery, replied]
    rw [same]
    refine ⟨.idle books capped, ?_, fun _ no => by (cases no), fun _ => ?_⟩
    · rw [append_nil]
      exact id
    · rw [accepted, live, replied]
      rfl
  | response first =>
    have one := receive_spec env first books
    have before : model.stopReason = some .tokenCapped → Reached config (received ++ []) := by
      rw [append_nil]
      exact capped
    have opened : Received env config (received ++ [] ++ [first.usage]) model first
        (receive env config model first) := by
      rw [append_nil]
      exact one
    have alone := Generated.answered [] opened before
    rw [nil_append] at alone
    cases result : receive env config model first with
    | mk next answer =>
      rw [result] at one alone
      cases answer with
      | some message =>
        have same : withProtocolRecovery env config model call =
            ⟨next, some message, [first.usage]⟩ := by
          rw [withProtocolRecovery, replied]
          dsimp only
          rw [result]
        obtain ⟨parsed, is, retries, -⟩ := one.parsed message rfl
        rw [same]
        refine ⟨alone, fun _ => one.reason, ?_, fun no => by (cases no)⟩
        intro other member
        cases member
        refine ⟨parsed, ?_, retries⟩
        rw [accepted, live, replied]
        dsimp only
        rw [is]
        rfl
      | none =>
        have refused := one.refused.mp rfl
        have stops : next.stopReason = some .tokenCapped ↔
            Reached config (received ++ [first.usage]) := by
          refine ⟨fun now => ?_, one.reason⟩
          rcases one.capped now with reached | earlier
          · exact reached
          · exact (capped earlier).mono _
        by_cases final : call.control ∨ config.summarizes ∨
            next.stopReason = some .tokenCapped
        · have same : withProtocolRecovery env config model call =
              ⟨next, none, [first.usage]⟩ := by
            rw [withProtocolRecovery, replied]
            dsimp only
            rw [result]
            exact if_pos final
          rw [same]
          refine ⟨alone, fun _ => one.reason, fun _ no => by (cases no), fun _ => ?_⟩
          rw [accepted, live, replied]
          dsimp only
          rw [refused]
          rw [stops] at final
          exact if_pos final
        · have goes : ¬(call.control ∨ config.summarizes ∨
              Reached config (received ++ [first.usage])) := by
            rw [← stops]
            exact final
          cases again : call.recovery with
          | failed =>
            have same : withProtocolRecovery env config model call =
                ⟨next, none, [first.usage]⟩ := by
              rw [withProtocolRecovery, replied]
              dsimp only
              rw [result]
              dsimp only
              rw [if_neg final, again]
            rw [same]
            refine ⟨alone, fun _ => one.reason, fun _ no => by (cases no), fun _ => ?_⟩
            rw [accepted, live, replied]
            dsimp only
            rw [refused]
            dsimp only
            rw [if_neg goes, again]
            rfl
          | response second =>
            have two := receive_spec env second one.books
            have both := Generated.answered [first.usage] two stops.mp
            have same : withProtocolRecovery env config model call =
                ⟨(receive env config next second).1, (receive env config next second).2,
                  [first.usage, second.usage]⟩ := by
              rw [withProtocolRecovery, replied]
              dsimp only
              rw [result]
              dsimp only
              rw [if_neg final, again]
            have accepts : accepted env config received call =
                (messageFromGateway env second).map fun message =>
                  (message, received ++ [first.usage, second.usage]) := by
              rw [accepted, live, replied]
              dsimp only
              rw [refused]
              dsimp only
              rw [if_neg goes, again]
              rfl
            rw [same]
            refine ⟨both, fun _ => ?_, ?_, ?_⟩
            · have reason := two.reason
              rw [append_assoc] at reason
              exact reason
            · intro message member
              obtain ⟨parsed, is, retries, -⟩ := two.parsed message member
              refine ⟨parsed, ?_, retries⟩
              rw [accepts, is]
              rfl
            · intro none
              rw [accepts, two.refused.mp none]
              rfl

theorem retryLengthCapped_spec (env : Env Args Fingerprint) {result : Result Args Fingerprint}
    (retry : Reply Args)
    (generated : Generated config received result) :
    Generated config received (retryLengthCapped env config result retry) ∧
      (Stopped config (received ++ result.received) result.model → ((Reached config (received ++ (retryLengthCapped env config result retry).received) ∧
          (retryLengthCapped env config result retry).model.stopReason ≠ some .tokenCapped) ↔
        ∃ response retried, retry = .response response ∧
          messageFromGateway env response = some retried ∧
          retried.metadata.modelLengthCapped = false ∧
          Reached config (received ++ result.received ++ [response.usage]))) := by
  cases retry with
  | failed =>
    refine ⟨⟨generated.books, generated.capped, fun _ no => by (cases no),
      fun _ no => by (cases no), fun _ no => by (cases no)⟩, fun stopped => ⟨?_, ?_⟩⟩
    · exact fun lifted => absurd (stopped lifted.1) lifted.2
    · rintro ⟨_, _, no, -⟩
      cases no
  | response response =>
    have last := receive_spec env response generated.books
    have whole := Generated.answered result.received last generated.capped
    cases answered : receive env config result.model response with
    | mk next answer =>
      rw [answered] at last whole
      have reason := last.reason
      cases answer with
      | none =>
        have same : retryLengthCapped env config result (.response response) =
            ⟨next, none, result.received ++ [response.usage]⟩ := by
          dsimp only [retryLengthCapped]
          rw [answered]
        rw [same]
        refine ⟨whole, fun _ => ⟨?_, ?_⟩⟩
        · rw [← append_assoc]
          exact fun lifted => absurd (reason lifted.1) lifted.2
        · rintro ⟨other, retried, is, parsed, -⟩
          cases is
          rw [last.refused.mp rfl] at parsed
          cases parsed
      | some message =>
        obtain ⟨parsed, is, -, length⟩ := last.parsed message rfl
        have same : retryLengthCapped env config result (.response response) =
            ⟨if message.metadata.modelLengthCapped then next
              else { next with stopReason := none },
              some message, result.received ++ [response.usage]⟩ := by
          dsimp only [retryLengthCapped]
          rw [answered]
        rw [same]
        cases capped : message.metadata.modelLengthCapped with
        | true =>
          refine ⟨whole, fun _ => ⟨?_, ?_⟩⟩
          · rw [← append_assoc]
            exact fun lifted => absurd (reason lifted.1) lifted.2
          · rintro ⟨other, retried, same, parses, short, -⟩
            cases same
            rw [is] at parses
            cases parses
            rw [← length, capped] at short
            cases short
        | false =>
          refine ⟨⟨whole.books.of_eq rfl rfl, fun no => by (cases no), whole.calls,
            whole.usage, whole.marked⟩, fun _ => ⟨?_, ?_⟩⟩
          · rw [← append_assoc]
            rintro ⟨reached, -⟩
            exact ⟨response, parsed, rfl, is, length.symm.trans capped, reached⟩
          · rintro ⟨other, retried, same, -, -, reached⟩
            cases same
            rw [← append_assoc]
            exact ⟨reached, nofun⟩

theorem generate_spec (env : Env Args Fingerprint) (call : Call Args)
    (books : Books config received model)
    (capped : model.stopReason = some .tokenCapped → Reached config received) :
    Generated config received (generate env config model call) ∧
      (Stopped config received model → ((Reached config (received ++ (generate env config model call).received) ∧
          (generate env config model call).model.stopReason ≠ some .tokenCapped) ↔
        Lifts env config received call)) := by
  cases live : call.cancelled with
  | true =>
    have same : generate env config model call = ⟨model, none, []⟩ := by
      rw [generate, live]
      rfl
    rw [same]
    refine ⟨.idle books capped, fun stopped => ⟨?_, ?_⟩⟩
    · rw [append_nil]
      exact fun lifted => absurd (stopped lifted.1) lifted.2
    · rintro ⟨message, before, response, retried, is, -⟩
      rw [accepted, live] at is
      cases is
  | false =>
    have warned : ∃ warned : Model Fingerprint, warned =
        (if call.control then model else consumeRuntimeWarnings model) ∧
        warned.runTokenUsage = model.runTokenUsage ∧ warned.sharedUsage = model.sharedUsage ∧
        warned.stopReason = model.stopReason := by
      refine ⟨_, rfl, ?_⟩
      split <;> exact ⟨rfl, rfl, rfl⟩
    obtain ⟨warned, is, run, shared, reason⟩ := warned
    have recovered := withProtocolRecovery_spec env live (books.of_eq run shared)
      (fun now => capped (reason.symm.trans now))
    have stops := fun stopped : Stopped config received model =>
      recovered.stopped fun reached => reason.trans (stopped reached)
    cases ended : (withProtocolRecovery env config warned call).message with
    | none =>
      have same : generate env config model call = withProtocolRecovery env config warned call := by
        rw [generate, live, ← is]
        dsimp only
        rw [ended]
        rfl
      rw [same]
      refine ⟨recovered.generated, fun stopped =>
        ⟨fun lifted => absurd (stops stopped lifted.1) lifted.2, ?_⟩⟩
      rintro ⟨message, before, response, retried, other, -⟩
      rw [recovered.refuses ended] at other
      cases other
    | some message =>
      obtain ⟨parsed, accepts, retries⟩ := recovered.accepts message ended
      cases short : shouldRetryLengthCapped message with
      | false =>
        have same : generate env config model call =
            withProtocolRecovery env config warned call := by
          rw [generate, live, ← is]
          dsimp only
          rw [ended]
          dsimp only
          rw [short]
          rfl
        rw [same]
        refine ⟨recovered.generated, fun stopped =>
      ⟨fun lifted => absurd (stops stopped lifted.1) lifted.2, ?_⟩⟩
        rintro ⟨other, before, response, retried, same, retry, -⟩
        rw [accepts] at same
        cases same
        rw [← retries, short] at retry
        cases retry
      | true =>
        have same : generate env config model call = retryLengthCapped env config
            (withProtocolRecovery env config warned call) call.retry := by
          rw [generate, live, ← is]
          dsimp only
          rw [ended]
          dsimp only
          rw [short]
          rfl
        rw [same]
        obtain ⟨generated, lifts⟩ := retryLengthCapped_spec env call.retry
          recovered.generated
        refine ⟨generated, fun stopped => (lifts (stops stopped)).trans ?_⟩
        constructor
        · rintro ⟨response, retried, replied, parses, full, reached⟩
          exact ⟨parsed, _, response, retried, accepts, retries.symm.trans short, replied,
            parses, full, reached⟩
        · rintro ⟨other, before, response, retried, same, -, replied, parses, full, reached⟩
          rw [accepts] at same
          cases same
          exact ⟨response, retried, replied, parses, full, reached⟩

theorem restoreRuntimeState_spec (env : Env Args Fingerprint)
    (gated : config.tokenBudgetGatesEnabled = true) (books : Books config received model)
    (capped : model.stopReason = some .tokenCapped → Reached config received)
    (behind : ∀ message ∈ messages, Behind config received message) : Books config received
        (restoreRuntimeState env config messages (exportRuntimeState config model)) ∧
      ((restoreRuntimeState env config messages (exportRuntimeState config model)).stopReason =
        some .tokenCapped ↔ Reached config received) := by
  have usage : restoredUsage (exportRuntimeState config model).runTokenUsage messages =
      spent config received := by
    rw [exportRuntimeState, books.reported]
    exact restoredUsage_spent behind
  dsimp only [restoreRuntimeState]
  rw [usage]
  refine ⟨⟨recapped_usage.1, recapped_usage.2⟩, ?_, ?_⟩
  · intro now
    rcases recapped_capped gated now with reached | before
    · exact reached
    · exact restoredReason_capped behind capped before
  · exact fun reached => recapped_reason gated reached

theorem Kept.called (kept : Kept config run)
    (generated : Generated config run.received (generate env config run.model call)) :
    Kept config (afterCall env config run call) := by
  have fresh : ∀ returned ∈ (afterCall env config run call).returned, returned ∈ run.returned ∨
      returned.1 ∈ (generate env config run.model call).message ∧
        returned.2 = (spent config (afterCall env config run call).received).total := by
    intro returned member
    rcases mem_append.mp member with old | new
    · exact .inl old
    · obtain ⟨message, is, same⟩ := mem_map.mp new
      rw [← same]
      exact .inr ⟨Option.mem_toList.mp is, congrArg TokenUsage.total generated.books.reported⟩
  constructor
  case books => exact generated.books
  case capped => exact generated.capped
  case behind =>
    intro returned member
    rcases fresh returned member with old | ⟨new, -⟩
    · exact (kept.behind returned old).mono _
    · refine ⟨fun noted is => ?_, generated.marked _ new⟩
      rw [generated.usage _ new noted is]
      exact .refl _
  case calls =>
    intro returned member stop
    rcases fresh returned member with old | ⟨new, total⟩
    · exact kept.calls returned old stop
    · rw [total] at stop
      exact generated.calls _ new stop

theorem Kept.restored (gated : config.tokenBudgetGatesEnabled = true) (kept : Kept config run)
    (genuine : Genuine run (.roundTrip messages)) :
    Kept config (afterRoundTrip env config run messages) ∧
      ((afterRoundTrip env config run messages).model.stopReason = some .tokenCapped ↔
        Reached config run.received) := by
  have behind : ∀ message ∈ messages, Behind config run.received message := by
    intro message member
    rcases genuine message member with returned | ⟨unnoted, unmarked⟩
    · obtain ⟨one, is, rfl⟩ := mem_map.mp returned
      exact kept.behind one is
    · refine ⟨fun noted is => ?_, fun marked => ?_⟩
      · rw [unnoted] at is
        cases is
      · rw [unmarked] at marked
        cases marked
  obtain ⟨books, capped⟩ := restoreRuntimeState_spec env gated kept.books kept.capped behind
  exact ⟨⟨books, capped.mp, kept.behind, kept.calls⟩, capped⟩

theorem Kept.step {next : Run Args Fingerprint} {action : Action Args}
    (gated : config.tokenBudgetGatesEnabled = true) (kept : Kept config run)
    (genuine : Genuine run action) (taken : step env config run action = some next) :
    Kept config next := by
  cases action with
  | call call =>
    cases taken
    exact kept.called (generate_spec env call kept.books kept.capped).1
  | roundTrip messages =>
    cases taken
    exact (kept.restored gated genuine).1

theorem Kept.stops (kept : Kept config run) (stopped : Stopped config run.received run.model) :
    Stopped config (afterCall env config run call).received (afterCall env config run call).model ↔
      ¬Lifts env config run.received call := by
  have lifts := (generate_spec env call kept.books kept.capped).2 stopped
  rw [← lifts, not_and_not_right]
  rfl

theorem Stopped.step {next : Run Args Fingerprint} {action : Action Args}
    (gated : config.tokenBudgetGatesEnabled = true) (kept : Kept config run)
    (stopped : Stopped config run.received run.model) (genuine : Genuine run action)
    (clear : Clear env config run action) (taken : step env config run action = some next) :
    Stopped config next.received next.model := by
  cases action with
  | call call =>
    cases taken
    exact (kept.stops stopped).mpr clear
  | roundTrip messages =>
    cases taken
    exact (kept.restored gated genuine).2.mpr

def AtBudget (config : Config) (total : Nat) : Prop :=
  config.tokenBudgetMaxTokens ≠ 0 ∧ config.tokenBudgetMaxTokens ≤ total

/-- The reported total is the sum over all the responses and no message that is returned at the
budget bears calls, in every run; and as long as no call lifts the stop, a run at the budget is
stopped after every step, and after its next call exactly if that does not lift it either. -/
theorem token_budget_kept (env : Env Args Fingerprint) (config : Config)
    (gated : config.tokenBudgetGatesEnabled = true) :
    (∀ actions run, Steps (step env config) Genuine start actions run →
      (tokenUsage config run.model).total =
        (run.received.map fun usage => (charge config usage).total).sum ∧
      ∀ returned ∈ run.returned, AtBudget config returned.2 → returned.1.toolCalls = []) ∧
    ∀ actions run, Steps (step env config)
        (fun run action => Genuine run action ∧ Clear env config run action) start actions run →
      (AtBudget config (tokenUsage config run.model).total →
        run.model.stopReason = some .tokenCapped) ∧
      ∀ call next, step env config run (.call call) = some next →
        ((AtBudget config (tokenUsage config next.model).total →
          next.model.stopReason = some .tokenCapped) ↔ ¬Lifts env config run.received call) := by
  have reaches : ∀ {run : Run Args Fingerprint}, Kept config run →
      (AtBudget config (tokenUsage config run.model).total ↔ Reached config run.received) := by
    intro run kept
    rw [kept.books.reported]
    exact (hardStop_iff gated).symm
  constructor
  · intro actions run reached
    have kept : Kept config run := reached.invariant (Kept config)
      (fun _ _ _ kept genuine taken => kept.step gated genuine taken) Kept.start
    exact ⟨kept.reported, fun returned member full =>
      kept.calls returned member ((hardStop_iff gated).mpr full)⟩
  · intro actions run reached
    obtain ⟨kept, stopped⟩ := reached.invariant
      (fun run => Kept config run ∧ Stopped config run.received run.model)
      (fun _ _ _ held allowed taken => ⟨held.1.step gated allowed.1 taken,
        held.2.step gated held.1 allowed.1 allowed.2 taken⟩)
      ⟨Kept.start, fun full => by
        rw [Reached, hardStop_iff gated] at full
        exact absurd (Nat.le_zero.mp full.2) full.1⟩
    refine ⟨fun full => stopped ((reaches kept).mp full), fun call next taken => ?_⟩
    have genuine : Genuine run (.call call) := trivial
    have after := kept.step gated genuine taken
    cases taken
    rw [reaches after]
    exact kept.stops stopped

def plainEnv : Env Unit Nat where
  lower := fun text => text.map Char.toLower
  protocolPrefix := fun _ => false
  fingerprint := List.length
  warns := fun limit total => decide (4 * limit ≤ 5 * total)
  restoredWarns := fun limit total => decide (4 * limit ≤ 5 * total)

def hundredTokens : Config where
  tokenBudgetGatesEnabled := true
  tokenBudgetMaxTokens := 100
  tokenBudgetFinalReserveTokens := 0
  shared := true
  generalChatExecutionGates := true
  summarizes := false
  loopRepeatWarn := 3
  loopRepeatHard := 5
  loopToolWarn := 30
  loopToolHard := 50

theorem token_budget_kept_hundred :
    (∀ actions run, Steps (step plainEnv hundredTokens) Genuine start actions run →
      (tokenUsage hundredTokens run.model).total =
        (run.received.map fun usage => (charge hundredTokens usage).total).sum ∧
      ∀ returned ∈ run.returned, AtBudget hundredTokens returned.2 →
        returned.1.toolCalls = []) ∧
    ∀ actions run, Steps (step plainEnv hundredTokens)
        (fun run action => Genuine run action ∧ Clear plainEnv hundredTokens run action) start
          actions run →
      (AtBudget hundredTokens (tokenUsage hundredTokens run.model).total →
        run.model.stopReason = some .tokenCapped) ∧
      ∀ call next, step plainEnv hundredTokens run (.call call) = some next →
        ((AtBudget hundredTokens (tokenUsage hundredTokens next.model).total →
          next.model.stopReason = some .tokenCapped) ↔
            ¬Lifts plainEnv hundredTokens run.received call) :=
  token_budget_kept plainEnv hundredTokens rfl

def tokens (total : Int) : Usage := ⟨none, none, none, none, some total⟩

/-- A capped response that spends the budget, and a short answer to its retry. -/
def cappedCall : Call Unit where
  cancelled := false
  control := false
  first := .response ⟨[], some "length", [], tokens 100⟩
  recovery := .failed
  retry := .response ⟨"Done.".toList, some "stop", [], tokens 5⟩

theorem token_budget_lifted :
    (exec (step plainEnv hundredTokens) start [.call cappedCall]).map (fun run =>
        ((tokenUsage hundredTokens run.model).total, run.model.stopReason)) =
      some (105, none) := by
  decide +kernel

end SourceLens.RunGuardrails
