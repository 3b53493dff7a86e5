import SourceLens.Library.Json
import SourceLens.Library.PyText

/-! Retrieval plans (`parse_retrieval_plan` of `planned_evidence.py`): what a planner model returns is
read field by field, and bounded. -/

namespace SourceLens.RetrievalPlan

open Json (getOrNull)
open PyText (isSpace strip)

/-- The exceptions that are no `PlanValidationError`. -/
inductive Escape
  | overflowError
  | valueError
  | recursionError
  deriving DecidableEq

inductive Raised
  | planValidation (message : String)
  | other (escape : Escape)
  deriving DecidableEq

structure Env where
  /-- `json.loads`; `none` is a `JSONDecodeError`. -/
  loads : String → Except (Option Escape) Json
  /-- `str` of a value that is no string. -/
  repr : Json → Except Escape String
  /-- `int` of a string. -/
  intOfText : String → Option Int
  lower : String → String

def refuse {Value : Type} (message : String) : Except Raised Value := .error (.planValidation message)

def maxFiles : Int := 8

def maxSourceWindowLines : Int := 250

def maxEvidenceTokens : Int := 20000

def maxObjectiveChars : Nat := 2000

def maxQueryChars : Nat := 500

def maxCodegraphQueries : Nat := 2

def maxLiteralQueries : Nat := 8

def maxSourceWindows : Nat := 8

def str (env : Env) : Json → Except Raised String
  | .str text => .ok text
  | value =>
    match env.repr value with
    | .ok text => .ok text
    | .error escape => .error (.other escape)

def stripText (text : String) : String := String.ofList (strip isSpace text.toList)

/-- `first or second` -/
def either (first second : Json) : Json := if first.truthy then first else second

def isNull : Json → Bool
  | .null => true
  | _ => false

/-- `int(value)`; `none` is a `TypeError` or a `ValueError`. -/
def intOf (env : Env) : Json → Except (Option Escape) Int
  | .int value => .ok value
  | .bool value => .ok (if value then 1 else 0)
  | .float value => .ok (value.num.tdiv value.den)
  | .nonFinite name => if name = "NaN" then .error none else .error (some .overflowError)
  | .str text =>
    match env.intOfText text with
    | some value => .ok value
    | none => .error none
  | _ => .error none

def positiveInt (env : Env) (value : Json) (default : Int) : Except Raised Int :=
  if isNull value then .ok default
  else
    match intOf env value with
    | .ok number => .ok number
    | .error none => refuse "plan numeric fields must be integers"
    | .error (some escape) => .error (.other escape)

def requiredText (env : Env) (value : Json) (label : String) (maxChars : Nat) : Except Raised String := do
  let text ← str env (either value (.str ""))
  let text := stripText text
  if text = "" ∨ maxChars < text.length then refuse (label ++ " is missing or too long") else .ok text

def boundedQuery (env : Env) (value : Json) : Except Raised String :=
  if isNull value then .ok ""
  else do
    let text ← str env value
    let text := stripText text
    if maxQueryChars < text.length then refuse "plan query is too long" else .ok text

def listValue : Json → Except Raised (List Json)
  | .null => .ok []
  | .arr items => .ok items
  | _ => refuse "plan list fields must be arrays"

def literalQueryValue : Json → Json
  | .obj fields => either (either (getOrNull fields "pattern") (getOrNull fields "query")) (.str "")
  | item => item

def uniqueQueries (env : Env) (value : Json) : Except Raised (List String) := do
  let items ← listValue value
  let queries ← items.mapM fun item => boundedQuery env (literalQueryValue item)
  .ok (queries.filter fun query => decide (query ≠ "")).eraseDups

structure CodeGraphQuery where
  operation : String
  query : String
  symbol : String
  deriving DecidableEq

structure SourceWindow where
  path : String
  startLine : Int
  endLine : Option Int
  deriving DecidableEq

structure ClarificationRequest where
  question : String
  reason : String
  answerType : String := "text"
  deriving DecidableEq

structure RetrievalBudgets where
  maxSourceWindowLines : Int
  maxEvidenceTokens : Int
  deriving DecidableEq

structure Plan where
  objective : String
  project : String
  repository : String
  revision : String
  questionType : String
  evidenceRequirements : List String
  codegraphQueries : List CodeGraphQuery
  literalQueries : List String
  fileScopes : List String
  sourceWindows : List SourceWindow
  clarification : Option ClarificationRequest
  maxFiles : Int
  maxFallbackRounds : Int
  budgets : RetrievalBudgets
  deriving DecidableEq

def allowedOperations : List String :=
  ["callers", "callees", "context", "explore", "impact", "node", "search", "trace"]

def operationAliases : List (String × String) :=
  [("symbol_search", "search"), ("code_search", "search"), ("search_symbol", "search"),
    ("search_code", "search"), ("symbol_lookup", "node"), ("callers_of", "callers"),
    ("callees_of", "callees"), ("dependency_graph", "impact"), ("subgraph", "explore"),
    ("code_analysis", "explore")]

def operationOf (env : Env) (fields : List (String × Json)) : String :=
  let named :=
    match getOrNull fields "operation" with
    | .str text => env.lower (stripText text)
    | _ => ""
  let operation :=
    if named = "" then if (getOrNull fields "symbol").truthy then "search" else "explore" else named
  (operationAliases.lookup operation).getD operation

def normalizeCodegraphOperation (env : Env) (fields : List (String × Json)) : Except Raised String :=
  let operation := operationOf env fields
  if allowedOperations.any (decide <| · = operation) then .ok operation
  else refuse ("unsupported CodeGraph operation: " ++ operation)

def codegraphQuery (env : Env) : Json → Except Raised CodeGraphQuery
  | .obj fields => do
      let operation ← normalizeCodegraphOperation env fields
      let query ← boundedQuery env (getOrNull fields "query")
      let symbol ← boundedQuery env (getOrNull fields "symbol")
      if query = "" ∧ symbol = "" then refuse "CodeGraph query needs query or symbol"
      else .ok ⟨operation, query, symbol⟩
  | _ => refuse "codegraph query must be an object"

/-- `item.get("end_line")`, or `item.get("line_end")` when there is none. -/
def endField (fields : List (String × Json)) : Json :=
  if isNull (getOrNull fields "end_line") then getOrNull fields "line_end"
  else getOrNull fields "end_line"

def sourceWindow (env : Env) : Json → Except Raised SourceWindow
  | .obj fields => do
      let path ← requiredText env (either (getOrNull fields "path") (getOrNull fields "file_path"))
        "source window path" maxQueryChars
      let start ← positiveInt env
        (either (getOrNull fields "start_line") (getOrNull fields "line_start")) 1
      if isNull (endField fields) then .ok ⟨path, start, none⟩
      else do
        let stop ← positiveInt env (endField fields) start
        if stop < start then refuse "source window ends before it starts"
        else .ok ⟨path, start, some stop⟩
  | _ => refuse "source window must be an object"

def budgetFields : Json → Except Raised (List (String × Json))
  | .null => .ok []
  | .obj fields => .ok fields
  | _ => refuse "budgets must be an object"

/-- `min(max(value, low), high)` -/
def clamp (low high value : Int) : Int := min (max value low) high

def clarificationReasons : List String := ["missing_input", "ambiguous_scope", "ambiguous_target"]

def isText : Json → Bool
  | .str "text" => true
  | _ => false

def clarificationOf (env : Env) (fields : List (String × Json)) :
    Except Raised (Option ClarificationRequest) := do
  let question ← requiredText env (getOrNull fields "question") "clarification question" maxQueryChars
  if 1000 < question.length then refuse "clarification question is too long"
  else if !isText ((Json.get? fields "answer_type").getD (.str "text")) then
    refuse "only text clarification is supported"
  else do
    let reason ← str env (either (getOrNull fields "reason") (.str "missing_input"))
    let reason := stripText reason
    .ok (some {
      question := question
      reason := if clarificationReasons.any (decide <| · = reason) then reason else "missing_input" })

def parseClarification (env : Env) : Json → Except Raised (Option ClarificationRequest)
  | .null => .ok none
  | .obj [] => .ok none
  | .obj fields => clarificationOf env fields
  | _ => refuse "clarification must be an object"

def decoded (env : Env) : Json → Except Raised Json
  | .str text =>
    match env.loads text with
    | .ok value => .ok value
    | .error none => refuse "retrieval plan must be JSON"
    | .error (some escape) => .error (.other escape)
  | raw => .ok raw

def parseBudgets (env : Env) (value : Json) : Except Raised RetrievalBudgets := do
  let fields ← budgetFields value
  let lines ← positiveInt env (getOrNull fields "max_source_window_lines") maxSourceWindowLines
  let tokens ← positiveInt env (getOrNull fields "max_evidence_tokens") maxEvidenceTokens
  .ok ⟨clamp 1 maxSourceWindowLines lines, clamp 1 maxEvidenceTokens tokens⟩

structure Requests where
  codegraphQueries : List CodeGraphQuery
  sourceWindows : List SourceWindow
  budgets : RetrievalBudgets
  clarification : Option ClarificationRequest
  literalQueries : List String
  fileScopes : List String

def parseRequests (env : Env) (fields : List (String × Json)) : Except Raised Requests := do
  let codegraphItems ← listValue (getOrNull fields "codegraph_queries")
  let codegraphQueries ← (codegraphItems.take maxCodegraphQueries).mapM (codegraphQuery env)
  let windowItems ← listValue (getOrNull fields "source_windows")
  let windows ← (windowItems.take maxSourceWindows).mapM (sourceWindow env)
  let budgets ← parseBudgets env (getOrNull fields "budgets")
  let clarification ← parseClarification env (getOrNull fields "clarification")
  let literalQueries ← uniqueQueries env (getOrNull fields "literal_queries")
  let fileScopes ← uniqueQueries env (getOrNull fields "file_scopes")
  if clarification.isNone && codegraphQueries.isEmpty &&
      (literalQueries.take maxLiteralQueries).isEmpty && windows.isEmpty then
    refuse "retrieval request is required"
  else .ok ⟨codegraphQueries, windows, budgets, clarification,
    literalQueries.take maxLiteralQueries, fileScopes.take maxLiteralQueries⟩

def parseFields (env : Env) (fields : List (String × Json)) : Except Raised Plan := do
  let objective ← requiredText env (getOrNull fields "objective") "objective" maxObjectiveChars
  let requests ← parseRequests env fields
  let project ← boundedQuery env (getOrNull fields "project")
  let repository ← boundedQuery env (getOrNull fields "repository")
  let revision ← boundedQuery env (getOrNull fields "revision")
  let questionType ← boundedQuery env (getOrNull fields "question_type")
  let requirements ← uniqueQueries env (getOrNull fields "evidence_requirements")
  let files ← positiveInt env (getOrNull fields "max_files") maxFiles
  let rounds ← positiveInt env (getOrNull fields "max_fallback_rounds") 1
  .ok {
    objective := objective
    project := project
    repository := repository
    revision := revision
    questionType := if questionType = "" then "mixed" else questionType
    evidenceRequirements := requirements.take maxLiteralQueries
    codegraphQueries := requests.codegraphQueries
    literalQueries := requests.literalQueries
    fileScopes := requests.fileScopes
    sourceWindows := requests.sourceWindows
    clarification := requests.clarification
    maxFiles := clamp 1 maxFiles files
    maxFallbackRounds := clamp 0 1 rounds
    budgets := requests.budgets }

/-- `parse_retrieval_plan` -/
def parseRetrievalPlan (env : Env) (raw : Json) : Except Raised Plan := do
  let value ← decoded env raw
  match value with
  | .obj fields => parseFields env fields
  | _ => refuse "retrieval plan must be an object"

end SourceLens.RetrievalPlan
