import SourceLens.RetrievalPlan
import SourceLens.Library.Stages

/-! What the parser of a plan goes through, field by field, and what holds of the plan it returns. -/

namespace SourceLens.RetrievalPlan

open List
open Json (getOrNull)
open Stages (Verdict Follows verdict verdictOf)

variable {env : Env} {value : Json} {fields : List (String × Json)}

variable {Value : Type} {text : String}

/-- A text to decode, a value to turn into a text or into an integer, or a check. -/
inductive Stage
  | loads (text : String)
  | text (value : Json)
  | number (value : Json)
  | check (passes : Bool)

def judgeText (env : Env) : Json → Verdict
  | .str _ => .passes
  | value =>
    match env.repr value with
    | .ok _ => .passes
    | .error _ => .escapes

/-- An infinite float has no integer, and that error is not handled. -/
def judgeNumber (env : Env) : Json → Verdict
  | .nonFinite name => if name = "NaN" then .refused else .escapes
  | .str text => if (env.intOfText text).isSome then .passes else .refused
  | .arr _ => .refused
  | .obj _ => .refused
  | _ => .passes

def judge (env : Env) : Stage → Verdict
  | .loads text =>
    match env.loads text with
    | .ok _ => .passes
    | .error none => .refused
    | .error (some _) => .escapes
  | .text value => judgeText env value
  | .number value => judgeNumber env value
  | .check passes => if passes then .passes else .refused

def escaping : Raised → Bool
  | .planValidation _ => false
  | .other _ => true

def textOf (env : Env) (value : Json) : String := stripText ((str env value).toOption.getD "")

def numberOf (env : Env) (value : Json) (default : Int) : Int :=
  (positiveInt env value default).toOption.getD default

def queryText (env : Env) (value : Json) : String := if isNull value then "" else textOf env value

def itemsOf : Json → List Json
  | .arr items => items
  | _ => []

def fieldsOf : Json → List (String × Json)
  | .obj fields => fields
  | _ => []

def isList : Json → Bool
  | .null => true
  | .arr _ => true
  | _ => false

def requiredStages (env : Env) (value : Json) (maxChars : Nat) : List Stage :=
  let text := textOf env (either value (.str ""))
  [.text (either value (.str "")), .check !(decide (text = "") || decide (maxChars < text.length))]

def boundedStages (env : Env) (value : Json) : List Stage :=
  if isNull value then []
  else [.text value, .check !decide (maxQueryChars < (textOf env value).length)]

def uniqueStages (env : Env) (value : Json) : List Stage :=
  .check (isList value) ::
    (itemsOf value).flatMap fun item => boundedStages env (literalQueryValue item)

def queryStages (env : Env) : Json → List Stage
  | .obj fields =>
    .check (allowedOperations.any (decide <| · = operationOf env fields)) ::
      (boundedStages env (getOrNull fields "query") ++ (boundedStages env (getOrNull fields "symbol") ++
        [.check !(decide (queryText env (getOrNull fields "query") = "") &&
          decide (queryText env (getOrNull fields "symbol") = ""))]))
  | _ => [.check false]

def startField (fields : List (String × Json)) : Json :=
  either (getOrNull fields "start_line") (getOrNull fields "line_start")

def startOf (env : Env) (item : Json) : Int := numberOf env (startField (fieldsOf item)) 1

def endStages (env : Env) (fields : List (String × Json)) : List Stage :=
  if isNull (endField fields) then []
  else [.number (endField fields),
    .check !decide (numberOf env (endField fields) 0 < numberOf env (startField fields) 1)]

def windowStages (env : Env) : Json → List Stage
  | .obj fields =>
    requiredStages env (either (getOrNull fields "path") (getOrNull fields "file_path")) maxQueryChars ++
      .number (startField fields) :: endStages env fields
  | _ => [.check false]

def budgetStages : Json → List Stage
  | .null => [.check true, .number .null, .number .null]
  | .obj fields => [.check true, .number (getOrNull fields "max_source_window_lines"),
      .number (getOrNull fields "max_evidence_tokens")]
  | _ => [.check false]

def clarificationStages (env : Env) : Json → List Stage
  | .null => []
  | .obj [] => []
  | .obj fields =>
    requiredStages env (getOrNull fields "question") maxQueryChars ++
      [.check (isText ((Json.get? fields "answer_type").getD (.str "text"))),
        .text (either (getOrNull fields "reason") (.str "missing_input"))]
  | _ => [.check false]

def clarifies : Json → Bool
  | .null => false
  | .obj [] => false
  | _ => true

def requests (env : Env) (fields : List (String × Json)) : Bool :=
  clarifies (getOrNull fields "clarification") ||
    !((itemsOf (getOrNull fields "codegraph_queries")).isEmpty) ||
    (itemsOf (getOrNull fields "literal_queries")).any
      (fun item => decide (queryText env (literalQueryValue item) ≠ "")) ||
    !((itemsOf (getOrNull fields "source_windows")).isEmpty)

def windowItems (fields : List (String × Json)) : List Json :=
  (itemsOf (getOrNull fields "source_windows")).take maxSourceWindows

def requestStages (env : Env) (fields : List (String × Json)) : List Stage :=
  .check (isList (getOrNull fields "codegraph_queries")) ::
    (((itemsOf (getOrNull fields "codegraph_queries")).take maxCodegraphQueries).flatMap (queryStages env) ++
      .check (isList (getOrNull fields "source_windows")) ::
        ((windowItems fields).flatMap (windowStages env) ++
          (budgetStages (getOrNull fields "budgets") ++
            (clarificationStages env (getOrNull fields "clarification") ++
              (uniqueStages env (getOrNull fields "literal_queries") ++
                (uniqueStages env (getOrNull fields "file_scopes") ++
                  [.check (requests env fields)]))))))

def fieldStages (env : Env) (fields : List (String × Json)) : List Stage :=
  requiredStages env (getOrNull fields "objective") maxObjectiveChars ++
    (requestStages env fields ++
      (boundedStages env (getOrNull fields "project") ++
        (boundedStages env (getOrNull fields "repository") ++
          (boundedStages env (getOrNull fields "revision") ++
            (boundedStages env (getOrNull fields "question_type") ++
              (uniqueStages env (getOrNull fields "evidence_requirements") ++
                [.number (getOrNull fields "max_files"), .number (getOrNull fields "max_fallback_rounds")]))))))

def valueStages (env : Env) : Json → List Stage
  | .obj fields => fieldStages env fields
  | _ => [.check false]

def planValue (env : Env) : Json → Json
  | .str text => ((env.loads text).toOption).getD .null
  | raw => raw

def loadStages : Json → List Stage
  | .str text => [.loads text]
  | _ => []

def stagesOf (env : Env) (raw : Json) : List Stage := loadStages raw ++ valueStages env (planValue env raw)

theorem follows_guard {condition : Prop} [Decidable condition] {passes : Bool} {message : String}
    {run : Except Raised Value} {stages : List Stage} (same : passes = !decide condition)
    (later : ¬condition → Follows (judge env) escaping run stages) :
    Follows (judge env) escaping (if condition then refuse message else run)
      (.check passes :: stages) := by
  rw [Follows, verdict, judge, same]
  by_cases holds : condition
  · simp [holds, refuse, verdictOf, escaping, Verdict.andThen]
  · rw [if_neg holds, decide_eq_false holds]
    exact later holds

theorem follows_check {condition : Prop} [Decidable condition] {passes : Bool} {message : String}
    {value : Value} (same : passes = !decide condition) :
    Follows (judge env) escaping (if condition then refuse message else .ok value) [.check passes] :=
  follows_guard same fun _ => Stages.follows_ok value

theorem follows_str (env : Env) (value : Json) : Follows (judge env) escaping (str env value) [.text value] := by
  rw [Follows, Stages.verdict_singleton, judge]
  cases value with
  | str text => rfl
  | _ =>
    simp only [str, judgeText]
    generalize env.repr _ = rendered
    cases rendered <;> rfl

theorem follows_positiveInt (env : Env) (value : Json) (default : Int) :
    Follows (judge env) escaping (positiveInt env value default) [.number value] := by
  rw [Follows, Stages.verdict_singleton, judge]
  cases value with
  | nonFinite name =>
    by_cases nan : name = "NaN"
    · simp [positiveInt, isNull, intOf, nan, judgeNumber, refuse, verdictOf, escaping]
    · simp [positiveInt, isNull, intOf, nan, judgeNumber, verdictOf, escaping]
  | str text =>
    cases read : env.intOfText text with
    | none => simp [positiveInt, isNull, intOf, read, judgeNumber, refuse, verdictOf, escaping]
    | some number => simp [positiveInt, isNull, intOf, read, judgeNumber, verdictOf]
  | _ => rfl

theorem textOf_of_str (read : str env value = .ok text) : textOf env value = stripText text := by
  rw [textOf, read]
  rfl

theorem numberOf_of_ok {default number : Int} (read : positiveInt env value default = .ok number) :
    numberOf env value default = number := by
  rw [numberOf, read]
  rfl

theorem positiveInt_default (first second : Int) (given : isNull value = false) :
    positiveInt env value first = positiveInt env value second := by
  simp only [positiveInt, given, Bool.false_eq_true, if_false]

theorem follows_requiredText (value : Json) (label : String) (maxChars : Nat) :
    Follows (judge env) escaping (requiredText env value label maxChars)
      (requiredStages env value maxChars) := by
  have first := follows_str env (either value (.str ""))
  refine first.bind fun text read => follows_check ?_
  rw [textOf_of_str read, Bool.decide_or]

theorem follows_boundedQuery (value : Json) :
    Follows (judge env) escaping (boundedQuery env value) (boundedStages env value) := by
  rw [boundedQuery, boundedStages]
  split
  · exact Stages.follows_ok _
  · refine (follows_str env value).bind fun text read => follows_check ?_
    rw [textOf_of_str read]

theorem follows_listValue (value : Json) :
    Follows (judge env) escaping (listValue value) [.check (isList value)] := by
  cases value <;> rfl

theorem listValue_items {items : List Json} (read : listValue value = .ok items) :
    items = itemsOf value := by
  cases value with
  | null => exact (Except.ok.inj read).symm
  | arr list => exact (Except.ok.inj read).symm
  | _ => cases read

theorem follows_uniqueQueries (value : Json) :
    Follows (judge env) escaping (uniqueQueries env value) (uniqueStages env value) := by
  refine (follows_listValue value).bind fun items read => ?_
  rw [listValue_items read]
  exact (Stages.follows_mapM (fun item => follows_boundedQuery (literalQueryValue item)) _).map _

theorem boundedQuery_text (read : boundedQuery env value = .ok text) :
    text = queryText env value ∧ text.length ≤ maxQueryChars := by
  rw [boundedQuery] at read
  split at read
  · rename_i null
    obtain rfl := Except.ok.inj read
    exact ⟨by rw [queryText, if_pos null], Nat.zero_le _⟩
  · rename_i given
    obtain ⟨whole, rendered, read⟩ := Stages.bind_ok read
    dsimp only at read
    split at read
    · cases read
    · rename_i short
      obtain rfl := Except.ok.inj read
      exact ⟨by rw [queryText, if_neg given, textOf_of_str rendered], Nat.le_of_not_lt short⟩

theorem requiredText_length {label : String} {maxChars : Nat}
    (read : requiredText env value label maxChars = .ok text) : text.length ≤ maxChars := by
  obtain ⟨whole, rendered, read⟩ := Stages.bind_ok read
  dsimp only at read
  split at read
  · cases read
  · rename_i short
    obtain rfl := Except.ok.inj read
    exact Nat.le_of_not_lt fun long => short (.inr long)

theorem uniqueQueries_texts {queries : List String} (read : uniqueQueries env value = .ok queries) :
    queries = (((itemsOf value).map fun item => queryText env (literalQueryValue item)).filter
      fun query => decide (query ≠ "")).eraseDups ∧ ∀ query ∈ queries, query.length ≤ maxQueryChars := by
  obtain ⟨items, listed, read⟩ := Stages.bind_ok read
  obtain ⟨texts, made, read⟩ := Stages.bind_ok read
  obtain rfl := Except.ok.inj read
  obtain rfl := listValue_items listed
  constructor
  · rw [Stages.mapM_map (fun item text made => (boundedQuery_text made).1) made]
  · intro query member
    rw [mem_eraseDups, mem_filter] at member
    obtain ⟨item, -, made⟩ := Stages.mem_mapM made member.1
    exact (boundedQuery_text made).2

theorem follows_codegraphQuery (item : Json) :
    Follows (judge env) escaping (codegraphQuery env item) (queryStages env item) := by
  cases item with
  | obj fields =>
    have named : Follows (judge env) escaping (normalizeCodegraphOperation env fields)
        [.check (allowedOperations.any (decide <| · = operationOf env fields))] := by
      rw [normalizeCodegraphOperation]
      cases allowed : allowedOperations.any (decide <| · = operationOf env fields) <;> rfl
    refine named.bind fun operation _ => ?_
    refine (follows_boundedQuery _).bind fun query readQuery => ?_
    refine (follows_boundedQuery _).bind fun symbol readSymbol => follows_check ?_
    rw [(boundedQuery_text readQuery).1, (boundedQuery_text readSymbol).1, Bool.decide_and]
  | _ => rfl

theorem follows_sourceWindow (item : Json) :
    Follows (judge env) escaping (sourceWindow env item) (windowStages env item) := by
  cases item with
  | obj fields =>
    refine (follows_requiredText _ _ _).bind fun path _ => ?_
    refine (follows_positiveInt env (startField fields) 1).bind fun start read => ?_
    split
    · exact Stages.follows_ok _
    · rename_i given
      refine (follows_positiveInt env (endField fields) start).bind fun stop readEnd =>
        follows_check ?_
      rw [positiveInt_default start 0 (by simpa using given)] at readEnd
      rw [numberOf_of_ok read, numberOf_of_ok readEnd]
  | _ => rfl

theorem follows_parseBudgets (value : Json) :
    Follows (judge env) escaping (parseBudgets env value) (budgetStages value) := by
  have numbers (fields : List (String × Json)) :
      Follows (judge env) escaping
        (do
          let lines ← positiveInt env (getOrNull fields "max_source_window_lines") maxSourceWindowLines
          let tokens ← positiveInt env (getOrNull fields "max_evidence_tokens") maxEvidenceTokens
          .ok (⟨clamp 1 maxSourceWindowLines lines, clamp 1 maxEvidenceTokens tokens⟩ : RetrievalBudgets))
        [.number (getOrNull fields "max_source_window_lines"),
          .number (getOrNull fields "max_evidence_tokens")] :=
    (follows_positiveInt env _ _).bind fun lines _ => (follows_positiveInt env _ _).map _
  cases value with
  | null => exact numbers []
  | obj fields => exact numbers fields
  | _ => rfl

theorem follows_clarificationOf (fields : List (String × Json)) :
    Follows (judge env) escaping (clarificationOf env fields)
      (requiredStages env (getOrNull fields "question") maxQueryChars ++
        [.check (isText ((Json.get? fields "answer_type").getD (.str "text"))),
          .text (either (getOrNull fields "reason") (.str "missing_input"))]) := by
  refine (follows_requiredText _ _ _).bind fun question read => ?_
  have short : ¬1000 < question.length := by
    have bound := requiredText_length read
    rw [maxQueryChars] at bound
    omega
  rw [if_neg short]
  refine follows_guard (by simp) fun _ => ?_
  exact (follows_str env _).map _

theorem follows_parseClarification (value : Json) :
    Follows (judge env) escaping (parseClarification env value) (clarificationStages env value) := by
  cases value with
  | obj fields =>
    cases fields with
    | nil => rfl
    | cons field rest => exact follows_clarificationOf (field :: rest)
  | _ => rfl

theorem clarificationOf_some {clarification : Option ClarificationRequest}
    (read : clarificationOf env fields = .ok clarification) :
    ∃ request, clarification = some request ∧ request.question.length ≤ maxQueryChars ∧
      request.reason ∈ clarificationReasons ∧ request.answerType = "text" := by
  obtain ⟨question, asked, read⟩ := Stages.bind_ok read
  split at read
  · cases read
  · split at read
    · cases read
    · obtain ⟨reason, rendered, read⟩ := Stages.bind_ok read
      obtain rfl := Except.ok.inj read
      refine ⟨_, rfl, requiredText_length asked, ?_, rfl⟩
      dsimp only
      split
      · rename_i known
        simpa using known
      · exact mem_cons_self

theorem parseClarification_isNone {clarification : Option ClarificationRequest}
    (read : parseClarification env value = .ok clarification) :
    clarification.isNone = !clarifies value := by
  cases value with
  | null =>
    obtain rfl := Except.ok.inj read
    rfl
  | obj fields =>
    cases fields with
    | nil =>
      obtain rfl := Except.ok.inj read
      rfl
    | cons field rest =>
      obtain ⟨request, rfl, -⟩ := clarificationOf_some read
      rfl
  | _ => cases read

theorem take_isEmpty {Item : Type} (items : List Item) {count : Nat} (positive : 0 < count) :
    (items.take count).isEmpty = items.isEmpty := by
  cases items with
  | nil => rw [take_nil]
  | cons item rest =>
    obtain ⟨before, rfl⟩ := Nat.exists_eq_add_one_of_ne_zero (Nat.ne_of_gt positive)
    rfl

theorem mapM_isEmpty {Item : Type} {step : Item → Except Raised Value} {items : List Item}
    {values : List Value} (made : items.mapM step = .ok values) :
    values.isEmpty = items.isEmpty := by
  cases Stages.mapM_forall₂ items values made <;> rfl

theorem uniqueQueries_isEmpty {queries : List String} (read : uniqueQueries env value = .ok queries) :
    queries.isEmpty = !(itemsOf value).any fun item =>
      decide (queryText env (literalQueryValue item) ≠ "") := by
  rw [(uniqueQueries_texts read).1, any_eq_not_all_not]
  cases shape : ((itemsOf value).map fun item => queryText env (literalQueryValue item)).filter
      fun query => decide (query ≠ "") with
  | nil =>
    rw [filter_eq_nil_iff, forall_mem_map] at shape
    symm
    simpa using shape
  | cons text rest =>
    have listed := shape.symm ▸ (mem_cons_self : text ∈ text :: rest)
    rw [mem_filter, mem_map] at listed
    obtain ⟨⟨item, member, rfl⟩, filled⟩ := listed
    rw [eraseDups_cons]
    symm
    simpa using ⟨item, member, by simpa using filled⟩

theorem follows_parseRequests (fields : List (String × Json)) :
    Follows (judge env) escaping (parseRequests env fields) (requestStages env fields) := by
  refine (follows_listValue _).bind fun codegraphItems readItems => ?_
  rw [listValue_items readItems]
  refine (Stages.follows_mapM follows_codegraphQuery _).bind fun queries madeQueries => ?_
  refine (follows_listValue _).bind fun windowItems readWindows => ?_
  rw [listValue_items readWindows]
  refine (Stages.follows_mapM follows_sourceWindow _).bind fun windows madeWindows => ?_
  refine (follows_parseBudgets _).bind fun budgets _ => ?_
  refine (follows_parseClarification _).bind fun clarification readClarification => ?_
  refine (follows_uniqueQueries _).bind fun literals readLiterals => ?_
  refine (follows_uniqueQueries _).bind fun scopes _ => follows_check ?_
  rw [parseClarification_isNone readClarification, mapM_isEmpty madeQueries, mapM_isEmpty madeWindows,
    take_isEmpty _ (by decide), take_isEmpty _ (by decide), take_isEmpty _ (by decide),
    uniqueQueries_isEmpty readLiterals, requests]
  rw [Bool.decide_eq_true]
  simp only [Bool.not_and, Bool.not_not]

theorem follows_parseFields (fields : List (String × Json)) :
    Follows (judge env) escaping (parseFields env fields) (fieldStages env fields) := by
  refine (follows_requiredText _ _ _).bind fun objective _ => ?_
  refine (follows_parseRequests _).bind fun requested _ => ?_
  refine (follows_boundedQuery _).bind fun project _ => ?_
  refine (follows_boundedQuery _).bind fun repository _ => ?_
  refine (follows_boundedQuery _).bind fun revision _ => ?_
  refine (follows_boundedQuery _).bind fun questionType _ => ?_
  refine (follows_uniqueQueries _).bind fun requirements _ => ?_
  exact (follows_positiveInt env _ _).bind fun files _ => (follows_positiveInt env _ _).map _

theorem follows_decoded (raw : Json) :
    Follows (judge env) escaping (decoded env raw) (loadStages raw) := by
  cases raw with
  | str text =>
    rw [Follows, loadStages, Stages.verdict_singleton, judge, decoded]
    cases env.loads text with
    | ok value => rfl
    | error error => cases error <;> rfl
  | _ => rfl

theorem decoded_eq {raw value : Json} (read : decoded env raw = .ok value) : value = planValue env raw := by
  cases raw with
  | str text =>
    rw [decoded] at read
    rw [planValue]
    cases loaded : env.loads text with
    | ok other =>
      rw [loaded] at read
      exact (Except.ok.inj read).symm
    | error error =>
      rw [loaded] at read
      cases error <;> cases read
  | _ => exact (Except.ok.inj read).symm

theorem follows_parseRetrievalPlan (raw : Json) :
    Follows (judge env) escaping (parseRetrievalPlan env raw) (stagesOf env raw) := by
  refine (follows_decoded raw).bind fun value read => ?_
  rw [← decoded_eq read]
  cases value with
  | obj fields => exact follows_parseFields fields
  | _ => rfl

/-- Everything but the first lines of the windows is within its bounds. -/
structure Bounded (plan : Plan) : Prop where
  objective : plan.objective.length ≤ maxObjectiveChars
  project : plan.project.length ≤ maxQueryChars
  repository : plan.repository.length ≤ maxQueryChars
  revision : plan.revision.length ≤ maxQueryChars
  questionType : plan.questionType.length ≤ maxQueryChars
  requirements : plan.evidenceRequirements.length ≤ maxLiteralQueries ∧
    ∀ text ∈ plan.evidenceRequirements, text.length ≤ maxQueryChars
  codegraph : plan.codegraphQueries.length ≤ maxCodegraphQueries ∧
    ∀ query ∈ plan.codegraphQueries, query.operation ∈ allowedOperations ∧
      query.query.length ≤ maxQueryChars ∧ query.symbol.length ≤ maxQueryChars
  literals : plan.literalQueries.length ≤ maxLiteralQueries ∧
    ∀ text ∈ plan.literalQueries, text.length ≤ maxQueryChars
  scopes : plan.fileScopes.length ≤ maxLiteralQueries ∧
    ∀ text ∈ plan.fileScopes, text.length ≤ maxQueryChars
  windows : plan.sourceWindows.length ≤ maxSourceWindows ∧
    ∀ window ∈ plan.sourceWindows, window.path.length ≤ maxQueryChars ∧
      ∀ stop, window.endLine = some stop → window.startLine ≤ stop
  clarification : ∀ request, plan.clarification = some request →
    request.question.length ≤ maxQueryChars ∧ request.reason ∈ clarificationReasons ∧
      request.answerType = "text"
  files : 1 ≤ plan.maxFiles ∧ plan.maxFiles ≤ maxFiles
  rounds : 0 ≤ plan.maxFallbackRounds ∧ plan.maxFallbackRounds ≤ 1
  lines : 1 ≤ plan.budgets.maxSourceWindowLines ∧
    plan.budgets.maxSourceWindowLines ≤ maxSourceWindowLines
  tokens : 1 ≤ plan.budgets.maxEvidenceTokens ∧ plan.budgets.maxEvidenceTokens ≤ maxEvidenceTokens

theorem clamp_within {low high value : Int} (ordered : low ≤ high) :
    low ≤ clamp low high value ∧ clamp low high value ≤ high := by
  rw [clamp]
  omega

theorem codegraphQuery_bounds {item : Json} {query : CodeGraphQuery}
    (read : codegraphQuery env item = .ok query) : query.operation ∈ allowedOperations ∧
      query.query.length ≤ maxQueryChars ∧ query.symbol.length ≤ maxQueryChars := by
  cases item with
  | obj fields =>
    obtain ⟨operation, named, read⟩ := Stages.bind_ok read
    obtain ⟨query, first, read⟩ := Stages.bind_ok read
    obtain ⟨symbol, second, read⟩ := Stages.bind_ok read
    split at read
    · cases read
    · obtain rfl := Except.ok.inj read
      refine ⟨?_, (boundedQuery_text first).2, (boundedQuery_text second).2⟩
      rw [normalizeCodegraphOperation] at named
      split at named
      · rename_i allowed
        obtain rfl := Except.ok.inj named
        simpa using allowed
      · cases named
  | _ => cases read

theorem sourceWindow_bounds {item : Json} {window : SourceWindow}
    (read : sourceWindow env item = .ok window) : window.startLine = startOf env item ∧
      window.path.length ≤ maxQueryChars ∧
      ∀ stop, window.endLine = some stop → window.startLine ≤ stop := by
  cases item with
  | obj fields =>
    obtain ⟨path, named, read⟩ := Stages.bind_ok read
    obtain ⟨start, first, read⟩ := Stages.bind_ok read
    have begins : start = startOf env (.obj fields) := (numberOf_of_ok first).symm
    split at read
    · obtain rfl := Except.ok.inj read
      exact ⟨begins, requiredText_length named, nofun⟩
    · obtain ⟨stop, last, read⟩ := Stages.bind_ok read
      split at read
      · cases read
      · rename_i ordered
        obtain rfl := Except.ok.inj read
        refine ⟨begins, requiredText_length named, ?_⟩
        intro other same
        obtain rfl := Option.some.inj same
        exact Int.not_lt.mp ordered
  | _ => cases read

theorem parseBudgets_bounds {budgets : RetrievalBudgets} (read : parseBudgets env value = .ok budgets) :
    (1 ≤ budgets.maxSourceWindowLines ∧ budgets.maxSourceWindowLines ≤ maxSourceWindowLines) ∧
      1 ≤ budgets.maxEvidenceTokens ∧ budgets.maxEvidenceTokens ≤ maxEvidenceTokens := by
  obtain ⟨fields, _, read⟩ := Stages.bind_ok read
  obtain ⟨lines, _, read⟩ := Stages.bind_ok read
  obtain ⟨tokens, _, read⟩ := Stages.bind_ok read
  obtain rfl := Except.ok.inj read
  exact ⟨clamp_within (by decide), clamp_within (by decide)⟩

end SourceLens.RetrievalPlan
