import SourceLens.Library.Json
import SourceLens.Library.OrderedDict
import SourceLens.RunStatus

/-! Scores of one evaluated case and the summary of a batch (`evaluation/scoring.py`). -/

namespace SourceLens.EvaluationScoring

variable {Number : Type}

structure Arithmetic (Number : Type) where
  ofNat : Nat → Number
  add : Number → Number → Number
  mul : Number → Number → Number
  div : Number → Number → Number
  /-- `round(value, 4)`. -/
  round : Number → Number
  positive : Number → Bool
  /-- `left >= right`. -/
  atLeast : Number → Number → Bool

structure Metric (Number : Type) where
  name : String
  category : String
  evaluatorType : String
  weight : Number
  threshold : Option Number
  config : Json

/-- What a metric says of a run; `passed` is missing where the score decides. -/
structure Outcome (Number : Type) where
  score : Option Number
  passed : Option (Option Bool)
  detail : Json

structure Entry (Number : Type) where
  score : Option Number
  passed : Option Bool
  weight : Number
  threshold : Option Number
  category : String
  detail : Json

abbrev Scores (Number : Type) := OrderedDict String (Entry Number)

structure Issue where
  metric : String
  code : String
  detail : Json

/-- The answer of `evaluate_case_result`, but for the execution metrics. -/
structure Assessment (Number : Type) where
  scores : Scores Number
  passed : Option Bool
  issues : List Issue

/-- `_metric_passed`. -/
def metricPassed (arithmetic : Arithmetic Number) (metric : Metric Number)
    (outcome : Outcome Number) : Option Bool :=
  match outcome.passed with
  | some passed => passed
  | none =>
    match outcome.score, metric.threshold with
    | some score, some threshold => some (arithmetic.atLeast score threshold)
    | _, _ => none

def entry (arithmetic : Arithmetic Number) (metric : Metric Number) (outcome : Outcome Number) :
    Entry Number where
  score := outcome.score
  passed := metricPassed arithmetic metric outcome
  weight := metric.weight
  threshold := metric.threshold
  category := metric.category
  detail := outcome.detail

def issue (metric : String) (detail : Json) : Issue where
  metric := metric
  code := metric ++ "_below_threshold"
  detail := detail

def answerEntry (arithmetic : Arithmetic Number) (correctness : Option Bool) : Entry Number where
  score := correctness.map fun correct => arithmetic.ofNat (if correct then 1 else 0)
  passed := correctness
  weight := arithmetic.ofNat 0
  threshold := some (arithmetic.ofNat 1)
  category := "correctness"
  detail := .obj []

/-- `evaluate_case_result`, from the outcome of each metric and the answer's correctness. -/
def evaluateCaseResult (arithmetic : Arithmetic Number) (metrics : List (Metric Number))
    (outcome : Metric Number → Outcome Number) (correctness : Option Bool) : Assessment Number :=
  let scored := metrics.foldl
    (fun scores metric => scores.set metric.name (entry arithmetic metric (outcome metric)))
    (OrderedDict.empty : Scores Number)
  let verdicts := metrics.map fun metric => metricPassed arithmetic metric (outcome metric)
  let issues := metrics.filterMap fun metric =>
    if metricPassed arithmetic metric (outcome metric) = some false then
      some (issue metric.name (outcome metric).detail)
    else none
  let failed := correctness == some false || verdicts.any (· == some false)
  let outcomePassed := ((metrics.find? fun metric => metric.evaluatorType == "outcome").map
    fun metric => metricPassed arithmetic metric (outcome metric)).getD none
  { scores := scored.set "answer_correctness" (answerEntry arithmetic correctness)
    passed :=
      if failed then some false
      else if outcomePassed == some true && correctness == some true then some true
      else none
    issues :=
      if correctness = some false then issues ++ [issue "answer_correctness" (.obj [])] else issues }

structure Bucket (Number : Type) where
  category : String
  weight : Number
  scored : Nat
  passed : Nat
  failed : Nat
  scoreSum : Number

structure Coverage (Number : Type) where
  totalCases : Nat
  scoredMetrics : Nat
  expectedMetrics : Nat
  ratio : Number
  /-- `per_metric`: scored cases and mean score of each metric. -/
  perMetric : List (String × Nat × Option Number)

structure Summary (Number : Type) where
  aggregateScore : Option Number
  coverage : Coverage Number
  passedCases : Nat
  failedCases : Nat
  inconclusiveCases : Nat

def countEntry (arithmetic : Arithmetic Number) (bucket : Bucket Number) (entry : Entry Number) :
    Bucket Number :=
  let counted : Bucket Number :=
    match entry.score with
    | some score =>
      { bucket with
        scored := bucket.scored + 1, scoreSum := arithmetic.add bucket.scoreSum score }
    | none => bucket
  match entry.passed with
  | some true => { counted with passed := counted.passed + 1 }
  | some false => { counted with failed := counted.failed + 1 }
  | none => counted

def addScores (arithmetic : Arithmetic Number) (buckets : OrderedDict String (Bucket Number))
    (scores : Scores Number) : OrderedDict String (Bucket Number) :=
  scores.entries.foldl
    (fun buckets named =>
      match buckets.get? named.1 with
      | some bucket => buckets.set named.1 (countEntry arithmetic bucket named.2)
      | none => buckets)
    buckets

def meanScore (arithmetic : Arithmetic Number) (bucket : Bucket Number) : Option Number :=
  if bucket.scored = 0 then none
  else some (arithmetic.div bucket.scoreSum (arithmetic.ofNat bucket.scored))

/-- The weighted sum of the mean scores and the sum of their weights. -/
def weigh (arithmetic : Arithmetic Number) (buckets : List (Bucket Number)) : Number × Number :=
  buckets.foldl
    (fun sums bucket =>
      match meanScore arithmetic bucket with
      | some mean =>
        if arithmetic.positive bucket.weight then
          (arithmetic.add sums.1 (arithmetic.mul mean bucket.weight),
            arithmetic.add sums.2 bucket.weight)
        else sums
      | none => sums)
    (arithmetic.ofNat 0, arithmetic.ofNat 0)

/-- `aggregate_results`, from the verdict and the scores of every result. -/
def aggregateResults (arithmetic : Arithmetic Number) (metrics : List (Metric Number))
    (results : List (Option Bool × Scores Number)) : Summary Number :=
  let empty := metrics.foldl
    (fun buckets metric => buckets.set metric.name
      { category := metric.category, weight := metric.weight, scored := 0, passed := 0,
        failed := 0, scoreSum := arithmetic.ofNat 0 })
    (OrderedDict.empty : OrderedDict String (Bucket Number))
  let buckets := results.foldl (fun buckets result => addScores arithmetic buckets result.2) empty
  let sums := weigh arithmetic buckets.values
  let scoredMetrics := (buckets.values.filter fun bucket => bucket.scored != 0).length
  { aggregateScore :=
      if arithmetic.positive sums.2 then some (arithmetic.round (arithmetic.div sums.1 sums.2))
      else none
    coverage :=
      { totalCases := results.length
        scoredMetrics := scoredMetrics
        expectedMetrics := buckets.length
        ratio :=
          if buckets.length = 0 then arithmetic.ofNat 0
          else
            arithmetic.round
              (arithmetic.div (arithmetic.ofNat scoredMetrics) (arithmetic.ofNat buckets.length))
        perMetric := buckets.entries.map fun named =>
          (named.1, named.2.scored, (meanScore arithmetic named.2).map arithmetic.round) }
    passedCases := results.countP fun result => result.1 == some true
    failedCases := results.countP fun result => result.1 == some false
    inconclusiveCases := results.countP fun result => result.1 == none }

theorem evaluateCaseResult_scored (arithmetic : Arithmetic Number)
    (metrics : List (Metric Number)) (outcome : Metric Number → Outcome Number)
    (correctness : Option Bool) :
    (evaluateCaseResult arithmetic metrics outcome correctness).scores.entries ≠ [] := by
  intro none'
  have key : "answer_correctness" ∈
      (evaluateCaseResult arithmetic metrics outcome correctness).scores.keys :=
    OrderedDict.mem_keys_set.mpr (Or.inl rfl)
  rw [OrderedDict.keys, none'] at key
  cases key

end SourceLens.EvaluationScoring
