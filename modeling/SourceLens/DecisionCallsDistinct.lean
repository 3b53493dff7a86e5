import SourceLens.DecisionCalls

/-! Different Decision calls carry different ids and the budgets are kept, in runs whose rankings
and gates do not overtake each other. -/

namespace SourceLens.DecisionCalls

open SharedCounter Transition List Option

variable {env : Env} {state next : State}

variable {counter : Counter} {gate : String} {call : Call}

def readId : CallId → Option (Nat × Origin)
  | [.word kind, .word key, .number value] =>
    some (1, if kind = "gate" then .gate key value else .plugin key value)
  | [.word kind, .word key, .number attempt, .number value] =>
    some (attempt, if kind = "gate" then .gate key value else .plugin key value)
  | [.word _, .word key, .number attempt, .number used, .number index] =>
    some (attempt, .builtin key used index)
  | _ => none

theorem readId_callId {attempt : Nat} {origin : Origin} (counts : 1 ≤ attempt) :
    readId (callId attempt origin) = some (attempt, origin) := by
  cases origin with
  | gate gate sequence =>
    dsimp only [callId]
    split
    · rfl
    · rw [show attempt = 1 by omega]
      rfl
  | plugin decision index =>
    dsimp only [callId]
    split
    · rw [show attempt = 1 by omega]
      rfl
    · rfl
  | builtin decision used index => rfl

theorem callId_injective {first second : Nat} {one two : Origin} (begun : 1 ≤ first)
    (started : 1 ≤ second) (same : callId first one = callId second two) :
    first = second ∧ one = two := by
  have read := congrArg readId same
  rw [readId_callId begun, readId_callId started] at read
  cases read
  exact ⟨rfl, rfl⟩

/-- Two rankings of one Decision hold the same candidates as far as both go, with the same
instructions. -/
def Agree (first second : Rank) : Prop :=
  first.instructions = second.instructions ∧
    ∀ pair ∈ first.candidates.zip second.candidates, pair.1.content = pair.2.content

instance (first second : Rank) : Decidable (Agree first second) :=
  inferInstanceAs (Decidable (_ ∧ _))

def Plugged (env : Env) (decision : String) : Prop :=
  ∀ binding ∈ env.analyses decision, binding.modelRef = none

instance (env : Env) (decision : String) : Decidable (Plugged env decision) :=
  inferInstanceAs (Decidable (∀ binding ∈ env.analyses decision, binding.modelRef = none))

/-- No ranking or gate overtakes another between the check of a budget and its increment, or
between the read and the write of a counter; a Decision is ranked through a Plugin with other
candidates or instructions once in an attempt, and a builtin one is scored before the next
ranking is counted; and a new attempt begins after a trace event of the last is stored. -/
def Orderly (env : Env) (state : State) : Action → Prop
  | .rank decision candidates instructions => admits env state decision candidates = true →
      state.rankUsed.Room rankRunBudget ∧
        ∀ rank ∈ state.ranks, rank.decision = decision → Plugged env decision →
          Agree rank ⟨decision, boundedCandidates candidates, instructions, []⟩
  | .writeRank index => state.rankUsed.Current index
  | .score index _ => ∀ rank ∈ state.ranks[index]?, ¬Plugged env rank.decision →
      Counter.counted state.rankUsed index = some state.rankUsed.used
  | .writeSequence index => ∀ evaluation ∈ state.evaluations[index]?,
      (state.sequence evaluation.gate).Current evaluation.seat
  | .checkGate _ => state.gateUsed.Room gateRunBudget
  | .writeGate index => state.gateUsed.Current index
  | .resume _ => state.attempt ≤ state.storedAttempt
  | _ => True

instance (env : Env) (state : State) : ∀ action, Decidable (Orderly env state action)
  | .rank .. => inferInstanceAs (Decidable (_ → _ ∧ ∀ rank ∈ state.ranks, _ → _ → _))
  | .writeRank index => inferInstanceAs (Decidable (state.rankUsed.Current index))
  | .score index _ => inferInstanceAs (Decidable (∀ rank ∈ state.ranks[index]?, _ → _ = _))
  | .writeSequence index =>
    inferInstanceAs (Decidable (∀ evaluation ∈ state.evaluations[index]?, Counter.Current _ _))
  | .checkGate _ => inferInstanceAs (Decidable (state.gateUsed.Room gateRunBudget))
  | .writeGate index => inferInstanceAs (Decidable (state.gateUsed.Current index))
  | .resume _ => inferInstanceAs (Decidable (_ ≤ _))
  | .readRank _ | .remember .. | .evaluate .. | .readSequence _ | .readGate _ | .execute _
  | .storeTrace => .isTrue trivial

structure Counters (state : State) : Prop where
  rank : state.rankUsed.Sound
  ranks : state.rankUsed.Within rankRunBudget
  gate : state.gateUsed.Sound
  gates : state.gateUsed.Within gateRunBudget
  sequence : ∀ gate, (state.sequence gate).Sound

theorem Counters.of_rank (counters : Counters state) (sound : counter.Sound)
    (within : counter.Within rankRunBudget) : Counters { state with rankUsed := counter } :=
  ⟨sound, within, counters.gate, counters.gates, counters.sequence⟩

theorem Counters.of_gate (counters : Counters state) (sound : counter.Sound)
    (within : counter.Within gateRunBudget) : Counters { state with gateUsed := counter } :=
  ⟨counters.rank, counters.ranks, sound, within, counters.sequence⟩

theorem Counters.of_sequence (counters : Counters state) (sound : counter.Sound) :
    Counters { state with sequence := Function.update state.sequence gate counter } := by
  refine ⟨counters.rank, counters.ranks, counters.gate, counters.gates, fun other => ?_⟩
  by_cases same : other = gate
  · subst same
    dsimp only
    rw [Function.update_self]
    exact sound
  · dsimp only
    rw [Function.update_of_ne same]
    exact counters.sequence other

theorem performIf_counters {call : Option Call} (counters : Counters state) :
    Counters (performIf state call) := by
  cases call with
  | none => exact counters
  | some call =>
    dsimp only [performIf, perform]
    split
    · split <;> exact ⟨counters.rank, counters.ranks, counters.gate, counters.gates,
        counters.sequence⟩
    · exact ⟨counters.rank, counters.ranks, counters.gate, counters.gates, counters.sequence⟩

theorem Counters.step {action : Action} (counters : Counters state)
    (orderly : Orderly env state action) (taken : step env state action = some next) :
    Counters next := by
  cases action with
  | rank decision candidates instructions =>
    dsimp only [DecisionCalls.step] at taken
    split at taken
    · rename_i admits
      cases taken
      have below : state.rankUsed.used < rankRunBudget := by
        simp only [DecisionCalls.admits, Bool.and_eq_true, decide_eq_true_eq] at admits
        exact admits.1.2
      exact ⟨counters.rank.enter rfl, Counter.Within.enter_checked (orderly admits).1 below,
        counters.gate, counters.gates, counters.sequence⟩
    · cases taken
      exact counters
  | readRank index =>
    obtain ⟨counter, read, rfl⟩ := map_eq_some_iff.mp taken
    exact counters.of_rank (counters.rank.read read) (counters.ranks.read read)
  | writeRank index =>
    obtain ⟨counter, written, rfl⟩ := map_eq_some_iff.mp taken
    exact counters.of_rank (counters.rank.write orderly written)
      (counters.ranks.write orderly written)
  | score index candidate =>
    obtain ⟨rank, -, rfl⟩ := map_eq_some_iff.mp taken
    have begins : Counters (begun state index candidate rank) :=
      ⟨counters.rank, counters.ranks, counters.gate, counters.gates, counters.sequence⟩
    dsimp only [score]
    split
    · exact begins
    · exact performIf_counters begins
  | remember index candidate =>
    obtain ⟨key, -, rfl⟩ := map_eq_some_iff.mp taken
    exact ⟨counters.rank, counters.ranks, counters.gate, counters.gates, counters.sequence⟩
  | evaluate gate arguments =>
    cases taken
    have entered : Counters { state with
        sequence := Function.update state.sequence gate ((state.sequence gate).enter .checked) } :=
      counters.of_sequence ((counters.sequence gate).enter rfl)
    exact ⟨counters.rank, counters.ranks, counters.gate.enter rfl, counters.gates.enter_idle,
      entered.sequence⟩
  | readSequence index =>
    obtain ⟨evaluation, -, moved⟩ := bind_eq_some_iff.mp taken
    obtain ⟨counter, read, rfl⟩ := map_eq_some_iff.mp moved
    exact counters.of_sequence ((counters.sequence _).read read)
  | writeSequence index =>
    obtain ⟨evaluation, known, moved⟩ := bind_eq_some_iff.mp taken
    obtain ⟨counter, written, rfl⟩ := map_eq_some_iff.mp moved
    exact counters.of_sequence ((counters.sequence _).write (orderly evaluation known) written)
  | checkGate index =>
    obtain ⟨evaluation, -, checked⟩ := bind_eq_some_iff.mp taken
    split at checked
    · obtain ⟨counter, check, rfl⟩ := map_eq_some_iff.mp checked
      exact counters.of_gate (counters.gate.check check) (counters.gates.check orderly check)
    · cases checked
  | readGate index =>
    obtain ⟨counter, read, rfl⟩ := map_eq_some_iff.mp taken
    exact counters.of_gate (counters.gate.read read) (counters.gates.read read)
  | writeGate index =>
    obtain ⟨counter, written, rfl⟩ := map_eq_some_iff.mp taken
    exact counters.of_gate (counters.gate.write orderly written)
      (counters.gates.write orderly written)
  | execute index =>
    obtain ⟨evaluation, -, executes⟩ := bind_eq_some_iff.mp taken
    split at executes
    · obtain ⟨number, -, rfl⟩ := map_eq_some_iff.mp executes
      have marked : Counters (executing state index evaluation) :=
        ⟨counters.rank, counters.ranks, counters.gate, counters.gates, counters.sequence⟩
      exact performIf_counters marked
    · cases executes
  | storeTrace =>
    cases taken
    exact ⟨counters.rank, counters.ranks, counters.gate, counters.gates, counters.sequence⟩
  | resume restored =>
    dsimp only [DecisionCalls.step] at taken
    split at taken
    · cases taken
      exact ⟨fresh_sound, fresh_within, fresh_sound, fresh_within, fun _ => fresh_sound⟩
    · cases taken

theorem concat_cases {Item : Type} {items : List Item} {last item : Item} {index : Nat}
    (is : (items ++ [last])[index]? = some item) :
    items[index]? = some item ∨ index = items.length ∧ item = last := by
  rw [List.getElem?_append] at is
  split at is
  · exact .inl is
  · rw [List.getElem?_singleton] at is
    split at is
    · cases is
      exact .inr ⟨by omega, rfl⟩
    · cases is

structure Seats (state : State) : Prop where
  inside : ∀ evaluation ∈ state.evaluations,
    evaluation.seat < (state.sequence evaluation.gate).workers.length
  own : ∀ (first second : Nat) (one two : Evaluation), state.evaluations[first]? = some one →
    state.evaluations[second]? = some two → one.gate = two.gate → one.seat = two.seat →
      first = second

theorem Seats.numbered {first second sequence : Nat} {one two : Evaluation} (seats : Seats state)
    (counters : Counters state) (known : state.evaluations[first]? = some one)
    (other : state.evaluations[second]? = some two) (gate : one.gate = two.gate)
    (counted : sequenceOf state one = some sequence)
    (again : sequenceOf state two = some sequence) : first = second := by
  have worker : ∀ {evaluation : Evaluation}, sequenceOf state evaluation = some sequence →
      (state.sequence evaluation.gate).workers[evaluation.seat]? =
        some (Worker.counted sequence) := by
    intro evaluation is
    dsimp only [sequenceOf, Counter.counted] at is
    split at is
    · rename_i value found
      cases is
      exact found
    · cases is
  have earlier := worker counted
  rw [gate] at earlier
  exact seats.own first second one two known other gate
    ((counters.sequence two.gate).unique _ _ sequence earlier (worker again))

theorem Seats.of_eq (seats : Seats state) (evaluations : next.evaluations = state.evaluations)
    (sequence : next.sequence = state.sequence) : Seats next := by
  constructor
  · rw [evaluations, sequence]
    exact seats.inside
  · rw [evaluations]
    exact seats.own

theorem Seats.of_sequence (seats : Seats state)
    (same : counter.workers.length = (state.sequence gate).workers.length) :
    Seats { state with sequence := Function.update state.sequence gate counter } := by
  refine ⟨fun evaluation member => ?_, seats.own⟩
  have inside := seats.inside evaluation member
  by_cases is : evaluation.gate = gate
  · subst is
    dsimp only
    rw [Function.update_self, same]
    exact inside
  · dsimp only
    rw [Function.update_of_ne is]
    exact inside

theorem Seats.opened {arguments : Option Arguments} (seats : Seats state) :
    Seats (opened state gate arguments) := by
  have wider : ∀ other, (state.sequence other).workers.length ≤
      ((DecisionCalls.opened state gate arguments).sequence other).workers.length := by
    intro other
    by_cases same : other = gate
    · subst same
      dsimp only [DecisionCalls.opened]
      rw [Function.update_self, Counter.enter, length_append]
      exact Nat.le_add_right ..
    · dsimp only [DecisionCalls.opened]
      exact Nat.le_of_eq (by rw [Function.update_of_ne same])
  constructor
  · intro evaluation member
    rcases mem_append.mp member with old | new
    · exact Nat.lt_of_lt_of_le (seats.inside evaluation old) (wider _)
    · cases mem_singleton.mp new
      dsimp only [DecisionCalls.opened]
      rw [Function.update_self, Counter.enter, length_append]
      exact Nat.lt_succ_self _
  · have apart : ∀ (index : Nat) (one two : Evaluation),
        state.evaluations[index]? = some one → two.seat = (state.sequence gate).workers.length →
          one.gate = gate → one.seat ≠ two.seat := by
      intro index one two known last is same
      have inside := seats.inside one (mem_of_getElem? known)
      rw [same, last, is] at inside
      exact Nat.lt_irrefl _ inside
    intro first second one two known other same seat
    rcases concat_cases known with old | ⟨last, rfl⟩
    · rcases concat_cases other with older | ⟨-, rfl⟩
      · exact seats.own first second one two old older same seat
      · exact absurd seat (apart first one _ old rfl same)
    · rcases concat_cases other with older | ⟨end_, -⟩
      · exact absurd seat.symm (apart second two _ older rfl same.symm)
      · exact last.trans end_.symm

theorem Seats.executing {index : Nat} {evaluation : Evaluation} (seats : Seats state)
    (known : state.evaluations[index]? = some evaluation) :
    Seats (executing state index evaluation) := by
  have same : ∀ (other : Nat) (one : Evaluation),
      (state.evaluations.set index { evaluation with executed := true })[other]? = some one →
        ∃ before, state.evaluations[other]? = some before ∧ before.gate = one.gate ∧
          before.seat = one.seat := by
    intro other one is
    rw [List.getElem?_set] at is
    split at is
    · rename_i at_
      split at is
      · cases is
        rw [← at_]
        exact ⟨evaluation, known, rfl, rfl⟩
      · cases is
    · exact ⟨one, is, rfl, rfl⟩
  constructor
  · intro one member
    obtain ⟨other, is⟩ := mem_iff_getElem?.mp member
    obtain ⟨before, earlier, gate, seat⟩ := same other one is
    have inside := seats.inside before (mem_of_getElem? earlier)
    rw [gate, seat] at inside
    exact inside
  · intro first second one two is other gate seat
    obtain ⟨before, earlier, gates, sits⟩ := same first one is
    obtain ⟨after, later, gated, sat⟩ := same second two other
    exact seats.own first second before after earlier later ((gates.trans gate).trans gated.symm)
      ((sits.trans seat).trans sat.symm)

/-- The worker of a call and what it is composed from, as they stand in the current attempt. -/
def Sourced (env : Env) (state : State) (call : Call) : Prop :=
  match call.origin with
  | .gate gate number => ∃ (index : Nat) (evaluation : Evaluation),
      state.evaluations[index]? = some evaluation ∧ evaluation.gate = gate ∧
        evaluation.executed = true ∧ sequenceOf state evaluation = some number
  | .plugin decision candidate => ∃ rank ∈ state.ranks, rank.decision = decision ∧
      ∃ used, scoreCall env state.attempt used rank candidate = some call
  | .builtin decision used candidate => ∃ (index : Nat) (rank : Rank),
      state.ranks[index]? = some rank ∧ rank.decision = decision ∧ candidate ∉ rank.pending ∧
        Counter.counted state.rankUsed index = some used

structure Calls (env : Env) (state : State) : Prop where
  counts : 1 ≤ state.attempt
  attempts : ∀ call ∈ state.executed, 1 ≤ call.attempt ∧ call.attempt ≤ state.attempt
  same : ∀ first ∈ state.executed, ∀ second ∈ state.executed, first.attempt = second.attempt →
    first.origin = second.origin → first.request = second.request
  sourced : ∀ call ∈ state.executed, call.attempt = state.attempt → Sourced env state call
  snapshots : ∀ snapshot ∈ state.snapshots, ∃ call ∈ state.executed,
    call.id = snapshot.1 ∧ call.request = snapshot.2
  conflicts : state.conflicts = []

/-- Two rankings of one Decision that is scored through a Plugin. -/
def Agreed (env : Env) (ranks : List Rank) : Prop :=
  ∀ first ∈ ranks, ∀ second ∈ ranks, first.decision = second.decision →
    Plugged env first.decision → Agree first second

structure Leads (state next : State) : Prop where
  attempt : next.attempt = state.attempt
  executed : next.executed = state.executed
  snapshots : next.snapshots = state.snapshots
  conflicts : next.conflicts = state.conflicts
  evaluations : ∀ (index : Nat) (one : Evaluation), state.evaluations[index]? = some one →
    ∃ two, next.evaluations[index]? = some two ∧ two.gate = one.gate ∧
      (one.executed = true → two.executed = true) ∧
      ∀ sequence, sequenceOf state one = some sequence → sequenceOf next two = some sequence
  ranks : ∀ (index : Nat) (one : Rank), state.ranks[index]? = some one →
    ∃ two, next.ranks[index]? = some two ∧ two.decision = one.decision ∧
      two.candidates = one.candidates ∧ two.instructions = one.instructions ∧
      (∀ candidate, candidate ∉ one.pending → candidate ∉ two.pending) ∧
      ∀ used, Counter.counted state.rankUsed index = some used →
        Counter.counted next.rankUsed index = some used

theorem scoreCall_congr {attempt used : Nat} {one two : Rank} {candidate : Nat}
    (decision : two.decision = one.decision) (candidates : two.candidates = one.candidates)
    (instructions : two.instructions = one.instructions) :
    scoreCall env attempt used two candidate = scoreCall env attempt used one candidate := by
  simp only [scoreCall, decision, candidates, instructions]

theorem Sourced.leads (leads : Leads state next) (sourced : Sourced env state call) :
    Sourced env next call := by
  dsimp only [Sourced] at sourced ⊢
  split at sourced
  · obtain ⟨index, one, known, gate, executed, counted⟩ := sourced
    obtain ⟨two, is, same, still, keeps⟩ := leads.evaluations index one known
    exact ⟨index, two, is, same.trans gate, still executed, keeps _ counted⟩
  · obtain ⟨one, member, decision, used, composed⟩ := sourced
    obtain ⟨index, known⟩ := mem_iff_getElem?.mp member
    obtain ⟨two, is, same, candidates, instructions, -⟩ := leads.ranks index one known
    refine ⟨two, mem_of_getElem? is, same.trans decision, used, ?_⟩
    rw [leads.attempt, scoreCall_congr same candidates instructions]
    exact composed
  · obtain ⟨index, one, known, decision, begun, counted⟩ := sourced
    obtain ⟨two, is, same, -, -, pending, keeps⟩ := leads.ranks index one known
    exact ⟨index, two, is, same.trans decision, pending _ begun, keeps _ counted⟩

theorem Calls.leads (leads : Leads state next) (calls : Calls env state) : Calls env next := by
  constructor
  · rw [leads.attempt]
    exact calls.counts
  · rw [leads.executed, leads.attempt]
    exact calls.attempts
  · rw [leads.executed]
    exact calls.same
  · rw [leads.executed, leads.attempt]
    exact fun call member current => (calls.sourced call member current).leads leads
  · rw [leads.executed, leads.snapshots]
    exact calls.snapshots
  · rw [leads.conflicts]
    exact calls.conflicts

/-- A call that is composed alike comes only with the same request. -/
def Repeats (state : State) (call : Call) : Prop :=
  ∀ other ∈ state.executed, other.attempt = call.attempt → other.origin = call.origin →
    other.request = call.request

theorem Calls.snapshot (calls : Calls env state) (counts : 1 ≤ call.attempt)
    (repeats : Repeats state call) : ∃ more, (more = [] ∨ more = [(call.id, call.request)]) ∧
      createToolExecutionSnapshot state.snapshots call.id call.request =
        some (state.snapshots ++ more) := by
  cases found : state.snapshots.find? fun snapshot => snapshot.1 == call.id with
  | none =>
    refine ⟨_, .inr rfl, ?_⟩
    rw [createToolExecutionSnapshot, found]
  | some existing =>
    obtain ⟨other, member, id, request⟩ := calls.snapshots existing (mem_of_find?_eq_some found)
    have same : existing.1 = call.id := by
      have test := List.find?_some found
      exact beq_iff_eq.mp test
    obtain ⟨attempt, origin⟩ := callId_injective (calls.attempts other member).1 counts
      (id.trans same)
    refine ⟨[], .inl rfl, ?_⟩
    rw [createToolExecutionSnapshot, found]
    dsimp only
    rw [if_pos (request.symm.trans (repeats other member attempt origin)), append_nil]

theorem Calls.perform (calls : Calls env state) (current : call.attempt = state.attempt)
    (repeats : Repeats state call) (sourced : Sourced env state call) :
    Calls env (perform state call) := by
  have counts : 1 ≤ call.attempt := by
    rw [current]
    exact calls.counts
  obtain ⟨more, entry, created⟩ := calls.snapshot counts repeats
  have performed : ∃ entries, (entries = [] ∨ entries = [(call.id, call.request)]) ∧
      DecisionCalls.perform state call = { state with
        executed := state.executed ++ [call]
        snapshots := state.snapshots ++ entries } := by
    dsimp only [DecisionCalls.perform]
    split
    · refine ⟨more, entry, ?_⟩
      rw [created]
    · refine ⟨[], .inl rfl, ?_⟩
      rw [append_nil]
  obtain ⟨entries, is, same⟩ := performed
  rw [same]
  have members : ∀ other ∈ state.executed ++ [call], other ∈ state.executed ∨ other = call :=
    fun other member => (mem_append.mp member).imp_right mem_singleton.mp
  constructor
  case counts => exact calls.counts
  case attempts =>
    intro other member
    rcases members other member with old | rfl
    · exact calls.attempts other old
    · exact ⟨counts, Nat.le_of_eq current⟩
  case same =>
    intro first member second again attempt origin
    rcases members first member with old | rfl
    · rcases members second again with older | rfl
      · exact calls.same first old second older attempt origin
      · exact repeats first old attempt origin
    · rcases members second again with older | rfl
      · exact (repeats second older attempt.symm origin.symm).symm
      · rfl
  case sourced =>
    intro other member attempt
    rcases members other member with old | rfl
    · exact calls.sourced other old attempt
    · exact sourced
  case snapshots =>
    intro snapshot member
    rcases mem_append.mp member with old | new
    · obtain ⟨other, known, id⟩ := calls.snapshots snapshot old
      exact ⟨other, mem_append_left _ known, id⟩
    · rcases is with rfl | rfl
      · cases new
      · cases mem_singleton.mp new
        exact ⟨call, mem_append_right _ (mem_singleton.mpr rfl), rfl, rfl⟩
  case conflicts => exact calls.conflicts

end SourceLens.DecisionCalls
