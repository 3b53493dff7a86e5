import SourceLens.Library.PyText
import SourceLens.Library.SharedCounter
import SourceLens.Library.Transition
import Mathlib.Logic.Function.Basic

/-! The Decision calls of one run: the rankings and gates of its attempts, the ids of their calls
and the execution snapshots of the backend. -/

namespace SourceLens.DecisionCalls

open SharedCounter

def rankRunBudget : Nat := 2
def gateRunBudget : Nat := 16
def rankMaxCandidates : Nat := 8

abbrev Arguments := List (String × String)

structure Request where
  /-- The connection, or the model of a builtin Decision. -/
  connection : String
  tool : String
  arguments : Arguments
  deriving DecidableEq

inductive Origin
  | gate (gate : String) (sequence : Nat)
  | plugin (decision : String) (index : Nat)
  | builtin (decision : String) (used index : Nat)
  deriving DecidableEq

/-- The text between two colons of a call id. A key has no colon and starts with a letter
(`DECISION_KEY_PATTERN`), so that an id can be read back. -/
inductive Segment
  | word (text : String)
  | number (value : Nat)
  deriving DecidableEq

abbrev CallId := List Segment

/-- The ids of `_next_call_id` and of the two calls of `_score`. -/
def callId (attempt : Nat) : Origin → CallId
  | .gate gate sequence =>
    if 1 < attempt then [.word "gate", .word gate, .number attempt, .number sequence]
    else [.word "gate", .word gate, .number sequence]
  | .plugin decision index =>
    if attempt ≤ 1 then [.word "rank", .word decision, .number index]
    else [.word "rank", .word decision, .number attempt, .number index]
  | .builtin decision used index =>
    [.word "rank", .word decision, .number attempt, .number used, .number index]

structure Call where
  attempt : Nat
  origin : Origin
  request : Request
  /-- Whether the call goes through a Plugin, which takes a snapshot of it. -/
  plugin : Bool
  deriving DecidableEq

def Call.id (call : Call) : CallId := callId call.attempt call.origin

abbrev Snapshots := List (CallId × Request)

/-- `create_tool_execution_snapshot` once the call is authorized; `none` is `TOOL_CALL_CONFLICT`. -/
def createToolExecutionSnapshot (snapshots : Snapshots) (id : CallId) (request : Request) :
    Option Snapshots :=
  match snapshots.find? fun snapshot => snapshot.1 == id with
  | some existing => if existing.2 = request then some snapshots else none
  | none => some (snapshots ++ [(id, request)])

structure Binding where
  kind : String
  targetOption : String
  toolKey : String
  pluginKey : String
  connection : String
  /-- Whether the version and the contract of the Plugin are there. -/
  loads : Bool
  modelRef : Option String
  rubric : List String
  summary : String

/-- A bound gate; `callable` is false for an unknown, later or undeclared one. -/
structure GateBinding where
  callable : Bool
  toolKey : String
  connection : String
  loads : Bool
  modelRef : Option String

/-- What is frozen for the run, and the JSON text of the criteria. -/
structure Env where
  analyses : String → Option Binding
  gates : String → Option GateBinding
  criteria : String → List String → String

structure Candidate where
  label : String
  content : String
  deriving DecidableEq

def strip (text : String) : String :=
  String.ofList (PyText.strip PyText.isSpace text.toList)

def cut (length : Nat) (text : String) : String := String.ofList (text.toList.take length)

/-- `_bounded_candidates`. -/
def boundedCandidates (candidates : List Candidate) : List Candidate :=
  ((candidates.map fun candidate => ⟨cut 120 (strip candidate.label), strip candidate.content⟩).filter
    fun candidate : Candidate => candidate.label != "" && candidate.content != "").take
      rankMaxCandidates

def defaultQuestion (rubric : List String) : String :=
  "Score the candidate against this ordered rubric: " ++ ", ".intercalate rubric

/-- `_score_arguments`. -/
def scoreArguments (env : Env) (binding : Binding) (content instructions : String) :
    Option Arguments :=
  if 2 ≤ binding.rubric.length ∧ binding.rubric.length ≤ 10 ∧ "" ∉ binding.rubric then
    let question := strip (if instructions = "" then binding.summary else instructions)
    let question := if question = "" then defaultQuestion binding.rubric else question
    some [("state", cut 100000 content), ("instructions", cut 2000 question),
      ("criteria", env.criteria binding.kind binding.rubric)]
  else none

/-- Whether `rank` has a binding that it can score with. -/
def rankable (binding : Binding) : Bool :=
  binding.toolKey != "" &&
    (if binding.kind = "choice" then binding.targetOption != "" else binding.kind == "score")

structure Rank where
  decision : String
  candidates : List Candidate
  instructions : String
  /-- The candidates whose scoring has not begun. -/
  pending : List Nat
  deriving DecidableEq

/-- A call of `evaluate`: `seat` is its worker at the sequence of its gate, and the arguments
are what `_gate_arguments` makes of its inputs. -/
structure Evaluation where
  gate : String
  seat : Nat
  arguments : Option Arguments
  executed : Bool
  deriving DecidableEq

structure CacheKey where
  target : String
  name : String
  content : String
  instructions : String
  deriving DecidableEq

/-- The ranker and the runner of one attempt; rank `i` and evaluation `i` are worker `i` of the
counter of their budget. -/
structure State where
  attempt : Nat
  /-- The last attempt of which the backend has stored a trace event, and 0 at first. -/
  storedAttempt : Nat
  rankUsed : Counter
  ranks : List Rank
  cache : List CacheKey
  gateUsed : Counter
  sequence : String → Counter
  evaluations : List Evaluation
  executed : List Call
  snapshots : Snapshots
  conflicts : List Call

inductive Action
  | rank (decision : String) (candidates : List Candidate) (instructions : String)
  | readRank (index : Nat)
  | writeRank (index : Nat)
  | score (index candidate : Nat)
  /-- A result of the scoring comes back. -/
  | remember (index candidate : Nat)
  | evaluate (gate : String) (arguments : Option Arguments)
  | readSequence (index : Nat)
  | writeSequence (index : Nat)
  | checkGate (index : Nat)
  | readGate (index : Nat)
  | writeGate (index : Nat)
  | execute (index : Nat)
  | storeTrace
  /-- A new attempt, with the attempt of its checkpoint. -/
  | resume (restored : Nat)

def Counter.counted (counter : Counter) (index : Nat) : Option Nat :=
  match counter.workers[index]? with
  | some (.counted value) => some value
  | _ => none

def perform (state : State) (call : Call) : State :=
  let state := { state with executed := state.executed ++ [call] }
  if call.plugin then
    match createToolExecutionSnapshot state.snapshots call.id call.request with
    | some snapshots => { state with snapshots := snapshots }
    | none => { state with conflicts := state.conflicts ++ [call] }
  else state

/-- Without arguments, or without a Plugin that loads, there is no call. -/
def performIf (state : State) (call : Option Call) : State :=
  match call with
  | some call => perform state call
  | none => state

def cacheKey (binding : Binding) (decision content instructions : String) : CacheKey :=
  match binding.modelRef with
  | some ref => ⟨ref, decision, content, instructions⟩
  | none => ⟨binding.pluginKey, binding.toolKey, content, instructions⟩

/-- The call of `_score`, composed with the value of `_used` at this moment. -/
def scoreCall (env : Env) (attempt used : Nat) (rank : Rank) (index : Nat) : Option Call := do
  let binding ← env.analyses rank.decision
  let candidate ← rank.candidates[index]?
  let arguments ← scoreArguments env binding candidate.content rank.instructions
  match binding.modelRef with
  | some ref =>
    some ⟨attempt, .builtin rank.decision used index, ⟨ref, "builtin_decision", arguments⟩, false⟩
  | none =>
    if binding.loads && binding.pluginKey != "" && binding.connection != "" then
      some ⟨attempt, .plugin rank.decision index,
        ⟨binding.connection, binding.toolKey, arguments⟩, true⟩
    else none

def candidateKey (env : Env) (rank : Rank) (index : Nat) : Option CacheKey := do
  let binding ← env.analyses rank.decision
  let candidate ← rank.candidates[index]?
  some (cacheKey binding rank.decision candidate.content rank.instructions)

/-- `_score`: nothing is called for a result in the cache. -/
def score (env : Env) (state : State) (rank : Rank) (index : Nat) : State :=
  if (candidateKey env rank index).any fun key => decide (key ∈ state.cache) then state
  else performIf state (scoreCall env state.attempt state.rankUsed.used rank index)

/-- `_execute`. -/
def gateCall (env : Env) (attempt : Nat) (evaluation : Evaluation) (sequence : Nat) :
    Option Call := do
  let binding ← env.gates evaluation.gate
  let arguments ← evaluation.arguments
  match binding.modelRef with
  | some ref =>
    some ⟨attempt, .gate evaluation.gate sequence, ⟨ref, "builtin_decision", arguments⟩, false⟩
  | none =>
    if binding.loads && binding.connection != "" then
      some ⟨attempt, .gate evaluation.gate sequence,
        ⟨binding.connection, binding.toolKey, arguments⟩, true⟩
    else none

def resumed (state : State) (attempt : Nat) : State :=
  { state with
    attempt := attempt
    rankUsed := fresh
    ranks := []
    cache := []
    gateUsed := fresh
    sequence := fun _ => fresh
    evaluations := [] }

/-- The command's `trace_attempt` and `_decision_attempt`. -/
def nextAttempt (state : State) (restored : Nat) : Nat :=
  max (max (max (state.storedAttempt + 1) 1) restored) 1

def admitted (state : State) (decision : String) (candidates : List Candidate)
    (instructions : String) : State :=
  let bounded := boundedCandidates candidates
  { state with
    rankUsed := state.rankUsed.enter .checked
    ranks := state.ranks ++ [⟨decision, bounded, instructions, List.range bounded.length⟩] }

/-- What `rank` checks before it counts itself. -/
def admits (env : Env) (state : State) (decision : String) (candidates : List Candidate) : Bool :=
  (env.analyses decision).any rankable && decide (state.rankUsed.used < rankRunBudget) &&
    !(boundedCandidates candidates).isEmpty

def opened (state : State) (gate : String) (arguments : Option Arguments) : State :=
  { state with
    gateUsed := state.gateUsed.enter .idle
    sequence := Function.update state.sequence gate ((state.sequence gate).enter .checked)
    evaluations := state.evaluations ++
      [⟨gate, (state.sequence gate).workers.length, arguments, false⟩] }

def callableGate (env : Env) (gate : String) : Bool :=
  (env.gates gate).any fun binding => binding.callable && binding.toolKey != ""

def sequenceOf (state : State) (evaluation : Evaluation) : Option Nat :=
  Counter.counted (state.sequence evaluation.gate) evaluation.seat

def scoring (state : State) (index candidate : Nat) : Option Rank :=
  match state.ranks[index]? with
  | some rank =>
    if (Counter.counted state.rankUsed index).isSome ∧ candidate ∈ rank.pending then some rank
    else none
  | none => none

def begun (state : State) (index candidate : Nat) (rank : Rank) : State :=
  { state with
    ranks := state.ranks.set index { rank with pending := rank.pending.filter (· ≠ candidate) } }

def executing (state : State) (index : Nat) (evaluation : Evaluation) : State :=
  { state with
    evaluations := state.evaluations.set index { evaluation with executed := true } }

def step (env : Env) (state : State) : Action → Option State
  | .rank decision candidates instructions =>
    if admits env state decision candidates then
      some (admitted state decision candidates instructions)
    else some state
  | .readRank index => (state.rankUsed.read index).map fun counter =>
    { state with rankUsed := counter }
  | .writeRank index => (state.rankUsed.write index).map fun counter =>
    { state with rankUsed := counter }
  | .score index candidate => (scoring state index candidate).map fun rank =>
    score env (begun state index candidate rank) rank candidate
  | .remember index candidate =>
    (state.ranks[index]?.bind fun rank => candidateKey env rank candidate).map fun key =>
      { state with cache := state.cache ++ [key] }
  | .evaluate gate arguments => some (opened state gate arguments)
  | .readSequence index => state.evaluations[index]?.bind fun evaluation =>
    ((state.sequence evaluation.gate).read evaluation.seat).map fun counter =>
      { state with sequence := Function.update state.sequence evaluation.gate counter }
  | .writeSequence index => state.evaluations[index]?.bind fun evaluation =>
    ((state.sequence evaluation.gate).write evaluation.seat).map fun counter =>
      { state with sequence := Function.update state.sequence evaluation.gate counter }
  | .checkGate index => state.evaluations[index]?.bind fun evaluation =>
    if callableGate env evaluation.gate ∧ (sequenceOf state evaluation).isSome then
      (state.gateUsed.check gateRunBudget index).map fun counter =>
        { state with gateUsed := counter }
    else none
  | .readGate index => (state.gateUsed.read index).map fun counter =>
    { state with gateUsed := counter }
  | .writeGate index => (state.gateUsed.write index).map fun counter =>
    { state with gateUsed := counter }
  | .execute index => state.evaluations[index]?.bind fun evaluation =>
    if (Counter.counted state.gateUsed index).isSome ∧ evaluation.executed = false then
      (sequenceOf state evaluation).map fun sequence =>
        performIf (executing state index evaluation)
          (gateCall env state.attempt evaluation sequence)
    else none
  | .storeTrace => some { state with storedAttempt := max state.storedAttempt state.attempt }
  | .resume restored =>
    if 1 ≤ restored ∧ restored ≤ state.attempt then
      some (resumed state (nextAttempt state restored))
    else none

def start : State where
  attempt := 1
  storedAttempt := 0
  rankUsed := fresh
  ranks := []
  cache := []
  gateUsed := fresh
  sequence := fun _ => fresh
  evaluations := []
  executed := []
  snapshots := []
  conflicts := []

end SourceLens.DecisionCalls
