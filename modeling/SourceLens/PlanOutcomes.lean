import SourceLens.PlanStages

/-! What becomes of a planner's answer: a plan within its bounds, a `PlanValidationError`, or an
exception that nobody handles. -/

namespace SourceLens.RetrievalPlan

open Json (getOrNull)
open Stages (Verdict Follows verdict verdictOf)

variable {env : Env} {fields : List (String × Json)} {raw : Json} {plan : Plan}

theorem eraseDups_take_texts {queries : List String} {value : Json} (count : Nat)
    (read : uniqueQueries env value = .ok queries) : (queries.take count).length ≤ count ∧
      ∀ text ∈ queries.take count, text.length ≤ maxQueryChars :=
  ⟨List.length_take_le _ _, fun text member =>
    (uniqueQueries_texts read).2 text (List.mem_of_mem_take member)⟩

/-- The windows of a plan are those of the items read, one for each. -/
def WindowsOf (env : Env) (fields : List (String × Json)) (windows : List SourceWindow) : Prop :=
  (windowItems fields).mapM (sourceWindow env) = .ok windows

structure RequestsBounded (env : Env) (fields : List (String × Json)) (requests : Requests) : Prop where
  codegraph : requests.codegraphQueries.length ≤ maxCodegraphQueries ∧
    ∀ query ∈ requests.codegraphQueries, query.operation ∈ allowedOperations ∧
      query.query.length ≤ maxQueryChars ∧ query.symbol.length ≤ maxQueryChars
  literals : requests.literalQueries.length ≤ maxLiteralQueries ∧
    ∀ text ∈ requests.literalQueries, text.length ≤ maxQueryChars
  scopes : requests.fileScopes.length ≤ maxLiteralQueries ∧
    ∀ text ∈ requests.fileScopes, text.length ≤ maxQueryChars
  windows : WindowsOf env fields requests.sourceWindows
  clarification : ∀ request, requests.clarification = some request →
    request.question.length ≤ maxQueryChars ∧ request.reason ∈ clarificationReasons ∧
      request.answerType = "text"
  budgets : (1 ≤ requests.budgets.maxSourceWindowLines ∧
      requests.budgets.maxSourceWindowLines ≤ maxSourceWindowLines) ∧
    1 ≤ requests.budgets.maxEvidenceTokens ∧ requests.budgets.maxEvidenceTokens ≤ maxEvidenceTokens

theorem parseClarification_bounds {value : Json} {clarification : Option ClarificationRequest}
    (read : parseClarification env value = .ok clarification) (request : ClarificationRequest)
    (given : clarification = some request) : request.question.length ≤ maxQueryChars ∧
      request.reason ∈ clarificationReasons ∧ request.answerType = "text" := by
  subst given
  cases value with
  | null => cases read
  | obj fields =>
    cases fields with
    | nil => cases read
    | cons field rest =>
      obtain ⟨other, same, bounds⟩ := clarificationOf_some read
      obtain rfl := Option.some.inj same
      exact bounds
  | _ => cases read

theorem mapM_length {Item Value : Type} {step : Item → Except Raised Value} {items : List Item}
    {values : List Value} (made : items.mapM step = .ok values) : values.length = items.length :=
  (Stages.mapM_forall₂ items values made).length_eq.symm

theorem parseRequests_bounds {requests : Requests} (read : parseRequests env fields = .ok requests) :
    RequestsBounded env fields requests := by
  obtain ⟨codegraphItems, listed, read⟩ := Stages.bind_ok read
  obtain ⟨queries, madeQueries, read⟩ := Stages.bind_ok read
  obtain ⟨items, windowed, read⟩ := Stages.bind_ok read
  rw [listValue_items windowed] at read
  obtain ⟨windows, madeWindows, read⟩ := Stages.bind_ok read
  obtain ⟨budgets, budgeted, read⟩ := Stages.bind_ok read
  obtain ⟨clarification, clarified, read⟩ := Stages.bind_ok read
  obtain ⟨literals, readLiterals, read⟩ := Stages.bind_ok read
  obtain ⟨scopes, readScopes, read⟩ := Stages.bind_ok read
  split at read
  · cases read
  · obtain rfl := Except.ok.inj read
    constructor
    · constructor
      · rw [mapM_length madeQueries]
        exact List.length_take_le _ _
      · intro query member
        obtain ⟨item, -, made⟩ := Stages.mem_mapM madeQueries member
        exact codegraphQuery_bounds made
    · exact eraseDups_take_texts maxLiteralQueries readLiterals
    · exact eraseDups_take_texts maxLiteralQueries readScopes
    · exact madeWindows
    · exact parseClarification_bounds clarified
    · exact parseBudgets_bounds budgeted

theorem parseFields_bounds (read : parseFields env fields = .ok plan) :
    Bounded plan ∧ WindowsOf env fields plan.sourceWindows := by
  obtain ⟨objective, readObjective, read⟩ := Stages.bind_ok read
  obtain ⟨requests, requested, read⟩ := Stages.bind_ok read
  obtain ⟨project, readProject, read⟩ := Stages.bind_ok read
  obtain ⟨repository, readRepository, read⟩ := Stages.bind_ok read
  obtain ⟨revision, readRevision, read⟩ := Stages.bind_ok read
  obtain ⟨questionType, readType, read⟩ := Stages.bind_ok read
  obtain ⟨requirements, readRequirements, read⟩ := Stages.bind_ok read
  obtain ⟨files, readFiles, read⟩ := Stages.bind_ok read
  obtain ⟨rounds, readRounds, read⟩ := Stages.bind_ok read
  obtain rfl := Except.ok.inj read
  have bounds := parseRequests_bounds requested
  constructor
  · exact {
      objective := requiredText_length readObjective
      project := (boundedQuery_text readProject).2
      repository := (boundedQuery_text readRepository).2
      revision := (boundedQuery_text readRevision).2
      questionType := by
        dsimp only
        split
        · decide
        · exact (boundedQuery_text readType).2
      requirements := eraseDups_take_texts maxLiteralQueries readRequirements
      codegraph := bounds.codegraph
      literals := bounds.literals
      scopes := bounds.scopes
      windows := by
        constructor
        · dsimp only
          rw [mapM_length bounds.windows]
          exact List.length_take_le _ _
        · intro window member
          obtain ⟨item, -, made⟩ := Stages.mem_mapM bounds.windows member
          exact (sourceWindow_bounds made).2
      clarification := bounds.clarification
      files := clamp_within (by decide)
      rounds := clamp_within (by decide)
      lines := bounds.budgets.1
      tokens := bounds.budgets.2 }
  · exact bounds.windows

theorem parseRetrievalPlan_bounds (read : parseRetrievalPlan env raw = .ok plan) :
    Bounded plan ∧ WindowsOf env (fieldsOf (planValue env raw)) plan.sourceWindows := by
  obtain ⟨value, loaded, read⟩ := Stages.bind_ok read
  rw [← decoded_eq loaded]
  cases value with
  | obj fields => exact parseFields_bounds read
  | _ => cases read

/-- A plan within all its bounds, or the one error that callers handle. -/
def Sound : Except Raised Plan → Prop
  | .ok plan => Bounded plan ∧ ∀ window ∈ plan.sourceWindows, 1 ≤ window.startLine
  | .error (.planValidation _) => True
  | .error (.other _) => False

/-- The first stage that does not pass is refused, if there is one; else no window starts below the
first line. -/
structure Readable (env : Env) (raw : Json) : Prop where
  reached : ∀ front stage back, stagesOf env raw = front ++ stage :: back →
    (∀ earlier ∈ front, judge env earlier = .passes) → judge env stage ≠ .escapes
  starts : (∀ stage ∈ stagesOf env raw, judge env stage = .passes) →
    ∀ item ∈ windowItems (fieldsOf (planValue env raw)), 1 ≤ startOf env item

theorem starts_iff {windows : List SourceWindow} (made : WindowsOf env fields windows) :
    (∀ window ∈ windows, 1 ≤ window.startLine) ↔
      ∀ item ∈ windowItems fields, 1 ≤ startOf env item := by
  have pairs := Stages.mapM_forall₂ _ windows made
  generalize windowItems fields = items at pairs
  clear made
  induction pairs with
  | nil => simp
  | cons first later ih =>
    rw [List.forall_mem_cons, List.forall_mem_cons, (sourceWindow_bounds first).1]
    exact and_congr Iff.rfl ih

theorem parseRetrievalPlan_iff (env : Env) (raw : Json) :
    Sound (parseRetrievalPlan env raw) ↔ Readable env raw := by
  have follows : verdictOf escaping (parseRetrievalPlan env raw) =
      verdict (judge env) (stagesOf env raw) := follows_parseRetrievalPlan raw
  have reached := Stages.verdict_escapes_iff (judge env) (stagesOf env raw)
  have passes := Stages.verdict_passes_iff (judge env) (stagesOf env raw)
  rw [← follows] at reached passes
  cases result : parseRetrievalPlan env raw with
  | error error =>
    rw [result] at reached passes
    cases error with
    | other escape =>
      constructor
      · exact False.elim
      · exact fun readable => absurd rfl (reached.mpr readable.reached)
    | planValidation message =>
      constructor
      · intro _
        exact ⟨reached.mp nofun, fun all => absurd (passes.mpr all) nofun⟩
      · exact fun _ => trivial
  | ok plan =>
    rw [result] at reached passes
    obtain ⟨bounded, windows⟩ := parseRetrievalPlan_bounds result
    have starts := starts_iff windows
    constructor
    · intro sound
      exact ⟨reached.mp nofun, fun _ => starts.mp sound.2⟩
    · intro readable
      exact ⟨bounded, starts.mpr (readable.starts (passes.mp rfl))⟩

def plainEnv : Env where
  loads _ := .error none
  repr _ := .ok ""
  intOfText := PyText.intOfStr
  lower := id

def planWith (start : Json) : Json :=
  .obj [("objective", .str "x"), ("source_windows", .arr [.obj [("path", .str "a"), ("start_line", start)]])]

/-- A window may start below the first line, and an infinite line number is an `OverflowError`. -/
theorem start_unchecked :
    ¬Sound (parseRetrievalPlan plainEnv (planWith (.int (-5)))) ∧
      ¬Sound (parseRetrievalPlan plainEnv (planWith (.nonFinite "Infinity"))) := by
  constructor
  · have read : (parseRetrievalPlan plainEnv (planWith (.int (-5)))).toOption.map
        (fun plan => plan.sourceWindows) = some [⟨"a", -5, none⟩] := by decide
    intro sound
    cases result : parseRetrievalPlan plainEnv (planWith (.int (-5))) with
    | error error =>
      rw [result] at read
      cases read
    | ok plan =>
      rw [result] at read sound
      have windows : plan.sourceWindows = [⟨"a", -5, none⟩] := Option.some.inj read
      have start := sound.2 ⟨"a", -5, none⟩ (by rw [windows]; exact List.mem_singleton_self _)
      exact absurd start (by decide)
  · have raised : parseRetrievalPlan plainEnv (planWith (.nonFinite "Infinity")) =
        .error (.other .overflowError) := by rfl
    rw [raised]
    exact id

end SourceLens.RetrievalPlan
