import Mathlib.Data.List.Dedup
import Mathlib.Data.List.Sort

/-! The outcome of a run: what its tools did, what its sources cover and what the review of
the answer says. -/

namespace SourceLens.RunOutcome

inductive Outcome
  | completed
  | partly
  deriving DecidableEq

/-- `evidence_requirement`. -/
inductive Requirement
  | none
  | toolResult
  | artifact
  | adaptive
  deriving DecidableEq

/-- An entry of `successful_evidence`. -/
structure Evidence where
  capability : String
  tool : String
  requestSha256 : String
  source : Option String
  coverageComplete : Option Bool
  deriving DecidableEq

inductive Scope
  | unresolved
  | warning
  | recovered
  deriving DecidableEq

structure FailureRecord where
  capability : String
  errorType : String
  tool : String
  source : String
  scope : Scope
  deriving DecidableEq

/-- An entry of `exhaustion_details`, whose reason is always `execution_failed`. -/
structure Exhaustion where
  capability : String
  errorType : String
  tool : String
  source : String
  recovery : String
  deriving DecidableEq

/-- What `CapabilityBoundaryMiddleware` has observed; the keys of the failure records are
left out. -/
structure Middleware where
  successfulEvidence : List Evidence
  failureRecords : List FailureRecord
  exhaustionDetails : List Exhaustion
  terminationDetail : Option Exhaustion
  deriving DecidableEq

structure RecordValidation where
  valid : Bool
  countMatches : Bool
  uniqueBy : List String
  deriving DecidableEq

/-- `runtime_evidence`; a key that is absent is `none`. -/
structure RuntimeEvidence where
  completionIssues : List String
  artifactRequired : Bool
  deliverables : Option (List String)
  convergenceExhausted : Bool
  requiredSources : List String
  evidenceCompleteness : Option String
  reviewCompleteness : Option String
  recordValidation : Option RecordValidation
  deriving DecidableEq

def RuntimeEvidence.empty : RuntimeEvidence where
  completionIssues := []
  artifactRequired := false
  deliverables := none
  convergenceExhausted := false
  requiredSources := []
  evidenceCompleteness := none
  reviewCompleteness := none
  recordValidation := none

/-- `decision_gates`; `others` are the keys that nothing here reads. -/
structure Verdicts where
  reviewCompleteness : Option String
  answerSupported : Option String
  reviewAvailable : Option Bool
  evidenceSufficient : Option (Option Bool)
  evidenceStrength : Option String
  evidenceCompleteness : Option String
  others : List (String × String)
  deriving DecidableEq

def noVerdicts : Verdicts where
  reviewCompleteness := none
  answerSupported := none
  reviewAvailable := none
  evidenceSufficient := none
  evidenceStrength := none
  evidenceCompleteness := none
  others := []

inductive Review
  | notRequested
  | supported
  | unsupported
  | inconclusive
  deriving DecidableEq

inductive Coverage
  | complete
  | incomplete
  | unknown
  deriving DecidableEq

structure Assessment where
  execution : Outcome
  coverage : Coverage
  review : Review
  deriving DecidableEq

/-- The termination detail of a run; a key that is absent is `none` or empty. -/
structure Detail where
  reason : Option String := none
  capability : Option String := none
  errorType : Option String := none
  tool : Option String := none
  source : Option String := none
  recovery : Option String := none
  trigger : Option String := none
  sources : List String := []
  completionIssues : List String := []
  assessment : Option Assessment := none
  decisionGates : Option Verdicts := none
  warnings : List String := []
  blockingReasons : List String := []
  deriving DecidableEq

structure Input where
  middleware : Option Middleware
  requirement : Requirement
  requiredCapabilities : List String
  truncated : Bool
  /-- Empty when there is none. -/
  stopReason : String
  executionGateEnabled : Bool
  evidence : RuntimeEvidence
  gates : Verdicts
  answerReviewEnabled : Bool
  deriving DecidableEq

def badStrengths : List String :=
  ["adapted_only", "example_only", "planned", "unsupported", "contradicted"]

def goodStrengths : List String := ["direct", "derived", "qualified_weak"]

def strengthIn (verdicts : Verdicts) (strengths : List String) : Bool :=
  verdicts.evidenceStrength.any fun strength => decide (strength ∈ strengths)

/-- `_review_status`. -/
def reviewStatus (verdicts : Verdicts) : Review :=
  if verdicts.reviewCompleteness = some "incomplete" then .inconclusive
  else match verdicts.answerSupported with
    | some "supported" => .supported
    | some "unsupported" => .unsupported
    | some _ => .inconclusive
    | none =>
      if verdicts.reviewAvailable = some false then .inconclusive
      else if verdicts.evidenceSufficient = some (some false) ∨
          strengthIn verdicts badStrengths then .unsupported
      else if verdicts.evidenceSufficient = some none ∨
          verdicts.evidenceStrength = some "unknown" then .inconclusive
      else if verdicts.evidenceSufficient = some (some true) ∨
          strengthIn verdicts goodStrengths then .supported
      else .notRequested

def evidenceRecovery : String :=
  "Review the execution details and retry; no verified result was returned."

/-- `_evidence_termination_detail`. -/
def evidenceTerminationDetail (requirement : Requirement) (capability : String) : Detail where
  reason := some "evidence_unavailable"
  capability := some (if capability ≠ "" then capability
    else if requirement = .artifact then "artifact_delivery" else "tool")
  errorType := some "verification"
  tool := some ""
  recovery := some evidenceRecovery

def exhaustionDetail (exhaustion : Exhaustion) : Detail where
  reason := some "execution_failed"
  capability := some exhaustion.capability
  errorType := some exhaustion.errorType
  tool := some exhaustion.tool
  source := some exhaustion.source
  recovery := some exhaustion.recovery

/-- `CAPABILITY_FAMILIES` and `tool`. -/
def knownCapabilities : List String :=
  ["skill", "plugin", "mcp", "workspace", "artifact_delivery", "decision", "tool"]

def delivered (evidence : RuntimeEvidence) : Bool := evidence.deliverables.any fun list => !list.isEmpty

def required (input : Input) : List String :=
  input.requiredCapabilities.filter fun capability => decide (capability ∈ knownCapabilities)

def successful (input : Input) (middleware : Middleware) : List String :=
  ((middleware.successfulEvidence.filter fun evidence =>
      decide (evidence.tool ≠ "") && decide (evidence.requestSha256 ≠ "")).map
    fun evidence => evidence.capability) ++
      if delivered input.evidence then ["artifact_delivery"] else []

def relevantSuccesses (input : Input) (middleware : Middleware) : List String :=
  (successful input middleware).filter fun capability => decide (capability ∈ required input)

def latestRequests : List Evidence → List Evidence
  | [] => []
  | item :: rest =>
    if rest.any fun later => later.source == item.source && later.requestSha256 == item.requestSha256
    then latestRequests rest else item :: latestRequests rest

def observed (input : Input) : List Evidence :=
  (input.middleware.map fun middleware => middleware.successfulEvidence).getD []

def sourcesWith (input : Input) (complete : Bool) : List (Option String) :=
  ((latestRequests (observed input)).filter fun item => item.coverageComplete == some complete).map
    fun item => item.source

def missingSources (input : Input) : List String :=
  ((input.evidence.requiredSources.filter fun source =>
      !decide (some source ∈ sourcesWith input true) ||
        decide (some source ∈ sourcesWith input false)).dedup).mergeSort (· ≤ ·)

def unresolvedRecords (input : Input) (middleware : Middleware) : List FailureRecord :=
  middleware.failureRecords.filter fun record =>
    record.scope == .unresolved && decide (record.capability ∈ required input)

def unresolvedSources (input : Input) (middleware : Middleware) : List String :=
  ((unresolvedRecords input middleware).map fun record => record.source).filter (· ≠ "")

def sortedFirst (items : List String) (fallback : String) : String :=
  ((items.dedup.mergeSort (· ≤ ·)).head?).getD fallback

/-- The detail that the middleware gives for a required capability. -/
def middlewareDetail (input : Input) (middleware : Middleware) : Option Detail :=
  match middleware.exhaustionDetails.find? fun exhaustion =>
      decide (exhaustion.capability ∈ required input) &&
        ((unresolvedSources input middleware).isEmpty ||
          decide (exhaustion.source ∈ unresolvedSources input middleware)) with
  | some exhaustion => some (exhaustionDetail exhaustion)
  | none => (middleware.terminationDetail.filter fun exhaustion =>
    decide (exhaustion.capability ∈ required input)).map exhaustionDetail

def triggered (input : Input) (detail : Detail) : Detail :=
  if input.truncated ∧ input.stopReason ≠ "" then { detail with trigger := some input.stopReason }
  else detail

def limitReason (input : Input) : Detail where
  reason := some (if input.stopReason = "" then "execution_limit" else input.stopReason)

def limitTrigger (input : Input) : Option String :=
  if input.truncated ∧ input.stopReason ≠ "" then some input.stopReason
  else if input.evidence.convergenceExhausted then some "evidence_convergence_limit"
  else none

def limited (input : Input) : Outcome × Detail :=
  if input.truncated then (.partly, limitReason input) else (.completed, {})

def orElse (value fallback : String) : String := if value = "" then fallback else value

def adaptiveOutcome (input : Input) (middleware : Middleware) : Outcome × Detail :=
  match middleware.failureRecords.filter fun record => record.scope == .unresolved with
  | failure :: _ => (.partly, triggered input ((middlewareDetail input middleware).getD
      { reason := some "execution_failed"
        capability := some (orElse failure.capability "tool")
        errorType := some (orElse failure.errorType "tool")
        tool := some failure.tool
        source := some failure.source }))
  | [] => limited input

def wrapupReasons : List String := ["token_budget_wrapup", "token_capped"]

/-- `delivered_artifact_wrapup` and `validated_token_wrapup`. -/
def wrappedUp (input : Input) (middleware : Middleware) : Bool :=
  input.truncated && decide (input.stopReason ∈ wrapupReasons) &&
    (decide ("artifact_delivery" ∈ successful input middleware) &&
        (input.requirement == .artifact || !(relevantSuccesses input middleware).isEmpty) ||
      input.evidence.recordValidation.any fun validation =>
        validation.valid && validation.countMatches && !validation.uniqueBy.isEmpty)

def capabilityOutcome (input : Input) (middleware : Middleware) : Outcome × Detail :=
  if input.requirement = .adaptive then adaptiveOutcome input middleware
  else if input.requirement = .toolResult ∧ unresolvedRecords input middleware ≠ [] then
    (.partly, triggered input ((middlewareDetail input middleware).getD
      { reason := some "execution_failed"
        capability := some (sortedFirst ((unresolvedRecords input middleware).map
          fun record => record.capability) "") }))
  else if input.requirement = .toolResult ∧ relevantSuccesses input middleware = [] then
    (.partly, triggered input ((middlewareDetail input middleware).getD
      (evidenceTerminationDetail input.requirement (sortedFirst (required input) "tool"))))
  else if input.requirement = .artifact ∧ "artifact_delivery" ∉ successful input middleware then
    (.partly, triggered input ((middlewareDetail input middleware).getD
      (evidenceTerminationDetail input.requirement "")))
  else if wrappedUp input middleware then (.completed, {})
  else limited input

/-- `_execution_outcome`. -/
def executionOutcome (input : Input) : Outcome × Detail :=
  if input.evidence.completionIssues ≠ [] then
    (.partly, { reason := some "evidence_insufficient", errorType := some "verification",
                completionIssues := input.evidence.completionIssues, trigger := limitTrigger input })
  else if input.evidence.artifactRequired ∧ delivered input.evidence = false then
    (.partly, { evidenceTerminationDetail .artifact "" with trigger := limitTrigger input })
  else if input.evidence.convergenceExhausted then
    (.partly, { reason := some "evidence_convergence_limit", errorType := some "execution_limit" })
  else if missingSources input ≠ [] then
    (.partly, { reason := some "source_coverage_incomplete", capability := some "plugin",
                errorType := some "verification", sources := missingSources input })
  else if input.executionGateEnabled = false then limited input
  else match input.middleware with
    | none => limited input
    | some middleware => capabilityOutcome input middleware

/-- The execution, but for an artifact that is known not to have been delivered. -/
def deliveredOutcome (input : Input) : Outcome × Detail :=
  let result := executionOutcome input
  if result.1 = .completed ∧ input.requirement = .artifact ∧ input.evidence.deliverables = some [] then
    (.partly, evidenceTerminationDetail .artifact "")
  else result

def reviewed (input : Input) : Verdicts :=
  if input.answerReviewEnabled then
    if input.evidence.reviewCompleteness = some "incomplete" then
      { input.gates with reviewCompleteness := some "incomplete" }
    else input.gates
  else noVerdicts

def review (input : Input) : Review :=
  if input.answerReviewEnabled then reviewStatus (reviewed input) else .notRequested

def coverage (input : Input) (detail : Detail) : Coverage :=
  let values := [input.evidence.evidenceCompleteness, (reviewed input).evidenceCompleteness,
    if detail.reason = some "source_coverage_incomplete" then some "incomplete" else none]
  if some "incomplete" ∈ values then .incomplete
  else if some "complete" ∈ values then .complete else .unknown

def warnings (input : Input) (coverage : Coverage) : List String :=
  (if coverage = .incomplete then ["evidence_incomplete"] else []) ++
    if review input = .inconclusive then
      [if (reviewed input).reviewCompleteness = some "incomplete" then "review_material_incomplete"
        else if (reviewed input).reviewAvailable = some false then "review_unavailable"
        else "review_inconclusive"]
    else []

def unassessed (input : Input) : Bool :=
  input.answerReviewEnabled && input.gates == noVerdicts && input.evidence.requiredSources.isEmpty &&
    input.evidence.evidenceCompleteness.isNone && input.evidence.reviewCompleteness.isNone

def assessed (input : Input) (outcome : Outcome) (detail : Detail) : Outcome × Detail :=
  let detail := if outcome ≠ .completed ∧ input.truncated ∧ input.stopReason ≠ "" then
      { detail with trigger := some (detail.trigger.getD input.stopReason) } else detail
  let coverage := coverage input detail
  let detail := { detail with
    assessment := some ⟨outcome, coverage, review input⟩
    decisionGates := if input.answerReviewEnabled && input.gates != noVerdicts then some input.gates
      else none
    warnings := warnings input coverage }
  let blocking := if outcome ≠ .completed then detail.reason.toList else []
  if review input = .unsupported then
    let blocking := if "evidence_insufficient" ∈ blocking then blocking
      else blocking ++ ["evidence_insufficient"]
    if outcome = .completed then
      (.partly, { detail with
        reason := some "evidence_insufficient"
        errorType := some "verification"
        blockingReasons := blocking })
    else (outcome, { detail with blockingReasons := blocking })
  else (outcome, { detail with blockingReasons := blocking })

/-- `_finalize_runtime_outcome`. -/
def finalizeRuntimeOutcome (input : Input) : Outcome × Detail :=
  let result := deliveredOutcome input
  if unassessed input then result else assessed input result.1 result.2

end SourceLens.RunOutcome
