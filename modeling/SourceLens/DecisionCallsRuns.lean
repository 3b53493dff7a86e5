import SourceLens.DecisionCallsDistinct

/-! Every step of an orderly run keeps the calls apart, and so does the run. -/

namespace SourceLens.DecisionCalls

open SharedCounter Transition List Option

variable {env : Env} {state next : State}

variable {index candidate attempt : Nat} {counter after : Counter} {rank first second : Rank}
  {call : Call} {gate : String} {evaluation : Evaluation}

theorem counted_worker {value : Nat} (counted : Counter.counted counter index = some value) :
    counter.workers[index]? = some (Worker.counted value) := by
  rw [Counter.counted] at counted
  split at counted
  · rename_i other found
    cases counted
    exact found
  · cases counted

theorem counted_keeps {before : Counter} (keeps : before.Keeps after) {value : Nat}
    (counted : Counter.counted before index = some value) :
    Counter.counted after index = some value := by
  rw [Counter.counted, keeps index value (counted_worker counted)]

theorem Leads.of_keeps (attempt : next.attempt = state.attempt)
    (executed : next.executed = state.executed) (snapshots : next.snapshots = state.snapshots)
    (conflicts : next.conflicts = state.conflicts)
    (evaluations : ∀ (index : Nat) (one : Evaluation), state.evaluations[index]? = some one →
      next.evaluations[index]? = some one)
    (ranks : ∀ (index : Nat) (one : Rank), state.ranks[index]? = some one →
      next.ranks[index]? = some one)
    (used : state.rankUsed.Keeps next.rankUsed)
    (sequence : ∀ gate, (state.sequence gate).Keeps (next.sequence gate)) : Leads state next where
  attempt := attempt
  executed := executed
  snapshots := snapshots
  conflicts := conflicts
  evaluations := fun index one known => ⟨one, evaluations index one known, rfl, id,
    fun _ counted => counted_keeps (sequence one.gate) counted⟩
  ranks := fun index one known => ⟨one, ranks index one known, rfl, rfl, rfl, fun _ => id,
    fun _ counted => counted_keeps used counted⟩

theorem keeps_refl (counter : Counter) : counter.Keeps counter := fun _ _ => id

theorem keeps_update (keeps : (state.sequence gate).Keeps counter) (other : String) :
    (state.sequence other).Keeps (Function.update state.sequence gate counter other) := by
  by_cases same : other = gate
  · subst same
    rw [Function.update_self]
    exact keeps
  · rw [Function.update_of_ne same]
    exact keeps_refl _

theorem Leads.of_rank (keeps : state.rankUsed.Keeps counter) :
    Leads state { state with rankUsed := counter } :=
  .of_keeps rfl rfl rfl rfl (fun _ _ => id) (fun _ _ => id) keeps fun _ => keeps_refl _

theorem Leads.aside {cache : List CacheKey} {gateUsed : Counter} {storedAttempt : Nat} :
    Leads state { state with
      cache := cache, gateUsed := gateUsed, storedAttempt := storedAttempt } :=
  .of_keeps rfl rfl rfl rfl (fun _ _ => id) (fun _ _ => id) (keeps_refl _) fun _ => keeps_refl _

theorem Leads.of_sequence (keeps : (state.sequence gate).Keeps counter) :
    Leads state { state with sequence := Function.update state.sequence gate counter } :=
  .of_keeps rfl rfl rfl rfl (fun _ _ => id) (fun _ _ => id) (keeps_refl _) (keeps_update keeps)

theorem concat_keeps {Item : Type} {items : List Item} {last item : Item}
    (known : items[index]? = some item) : (items ++ [last])[index]? = some item := by
  obtain ⟨inside, -⟩ := List.getElem?_eq_some_iff.mp known
  rw [List.getElem?_append_left inside]
  exact known

theorem Leads.admitted {decision instructions : String} {candidates : List Candidate} :
    Leads state (admitted state decision candidates instructions) :=
  .of_keeps rfl rfl rfl rfl (fun _ _ => id) (fun _ _ => concat_keeps) enter_keeps
    fun _ => keeps_refl _

theorem Leads.opened {arguments : Option Arguments} : Leads state (opened state gate arguments) :=
  .of_keeps rfl rfl rfl rfl (fun _ _ => concat_keeps) (fun _ _ => id) (keeps_refl _)
    (keeps_update enter_keeps)

theorem Leads.begun (known : state.ranks[index]? = some rank) :
    Leads state (begun state index candidate rank) where
  attempt := rfl
  executed := rfl
  snapshots := rfl
  conflicts := rfl
  evaluations := fun _ one known => ⟨one, known, rfl, id, fun _ => id⟩
  ranks := by
    intro other one is
    by_cases same : index = other
    · subst same
      rw [known] at is
      cases is
      refine ⟨{ rank with pending := rank.pending.filter (· ≠ candidate) }, ?_, rfl, rfl, rfl, ?_,
        fun _ => id⟩
      · exact List.getElem?_set_self (List.getElem?_eq_some_iff.mp known).1
      · exact fun gone absent member => absent (mem_filter.mp member).1
    · refine ⟨one, ?_, rfl, rfl, rfl, fun _ => id, fun _ => id⟩
      exact (List.getElem?_set_ne same).trans is

theorem Leads.executing (known : state.evaluations[index]? = some evaluation) :
    Leads state (executing state index evaluation) where
  attempt := rfl
  executed := rfl
  snapshots := rfl
  conflicts := rfl
  evaluations := by
    intro other one is
    by_cases same : index = other
    · subst same
      rw [known] at is
      cases is
      refine ⟨{ evaluation with executed := true }, ?_, rfl, fun _ => rfl, fun _ => id⟩
      exact List.getElem?_set_self (List.getElem?_eq_some_iff.mp known).1
    · refine ⟨one, ?_, rfl, id, fun _ => id⟩
      exact (List.getElem?_set_ne same).trans is
  ranks := fun _ one known => ⟨one, known, rfl, rfl, rfl, fun _ => id, fun _ => id⟩

theorem Agree.content {one two : Candidate} (agree : Agree first second)
    (known : first.candidates[index]? = some one) (other : second.candidates[index]? = some two) :
    one.content = two.content :=
  agree.2 (one, two) (mem_of_getElem? (List.getElem?_zip_eq_some.mpr ⟨known, other⟩))

theorem Agree.of_content (instructions : first.instructions = second.instructions)
    (content : ∀ (index : Nat) (one two : Candidate),
      first.candidates[index]? = some one → second.candidates[index]? = some two →
        one.content = two.content) : Agree first second := by
  refine ⟨instructions, fun pair member => ?_⟩
  obtain ⟨index, is⟩ := mem_iff_getElem?.mp member
  obtain ⟨known, other⟩ := List.getElem?_zip_eq_some.mp is
  exact content index pair.1 pair.2 known other

theorem Agree.symm (agree : Agree first second) : Agree second first :=
  .of_content agree.1.symm fun _ _ _ known other => (agree.content other known).symm

theorem Agreed.admitted {decision instructions : String} {candidates : List Candidate}
    (agreed : Agreed env state.ranks)
    (agrees : ∀ rank ∈ state.ranks, rank.decision = decision → Plugged env decision →
      Agree rank ⟨decision, boundedCandidates candidates, instructions, []⟩) :
    Agreed env (admitted state decision candidates instructions).ranks := by
  intro first member second again same plugged
  rcases mem_append.mp member with old | new
  · rcases mem_append.mp again with older | newer
    · exact agreed first old second older same plugged
    · cases mem_singleton.mp newer
      rw [same] at plugged
      exact agrees first old same plugged
  · cases mem_singleton.mp new
    rcases mem_append.mp again with older | newer
    · exact (agrees second older same.symm plugged).symm
    · cases mem_singleton.mp newer
      refine .of_content rfl fun index one two is other => ?_
      rw [is] at other
      cases other
      rfl

theorem Agreed.begun (agreed : Agreed env state.ranks) (known : state.ranks[index]? = some rank) :
    Agreed env (begun state index candidate rank).ranks := by
  have same : ∀ one ∈ (DecisionCalls.begun state index candidate rank).ranks,
      ∃ before ∈ state.ranks, before.decision = one.decision ∧
        before.candidates = one.candidates ∧ before.instructions = one.instructions := by
    intro one member
    rcases mem_or_eq_of_mem_set member with old | rfl
    · exact ⟨one, old, rfl, rfl, rfl⟩
    · exact ⟨rank, mem_of_getElem? known, rfl, rfl, rfl⟩
  intro first member second again decision plugged
  obtain ⟨one, old, is, holds, instructs⟩ := same first member
  obtain ⟨two, older, other, held, instructed⟩ := same second again
  rw [← is] at plugged
  have agree := agreed one old two older ((is.trans decision).trans other.symm) plugged
  refine .of_content ((instructs.symm.trans agree.1).trans instructed) ?_
  rw [← holds, ← held]
  exact fun _ _ _ => agree.content

theorem scoreCall_cases {used : Nat}
    (composed : scoreCall env attempt used rank candidate = some call) : call.attempt = attempt ∧
      ((call.origin = .plugin rank.decision candidate ∧ Plugged env rank.decision) ∨
        call.origin = .builtin rank.decision used candidate ∧ ¬Plugged env rank.decision) := by
  obtain ⟨binding, bound, rest⟩ := bind_eq_some_iff.mp composed
  obtain ⟨one, -, rest⟩ := bind_eq_some_iff.mp rest
  obtain ⟨arguments, -, rest⟩ := bind_eq_some_iff.mp rest
  cases ref : binding.modelRef with
  | some model =>
    rw [ref] at rest
    cases rest
    refine ⟨rfl, .inr ⟨rfl, fun plugged => ?_⟩⟩
    rw [plugged binding bound] at ref
    cases ref
  | none =>
    rw [ref] at rest
    dsimp only at rest
    split at rest
    · cases rest
      refine ⟨rfl, .inl ⟨rfl, fun other is => ?_⟩⟩
      rw [bound] at is
      cases is
      exact ref
    · cases rest

theorem scoreCall_request {used other : Nat} {one two : Rank} {first second : Call}
    (agree : Agree one two) (decision : one.decision = two.decision)
    (plugged : Plugged env one.decision)
    (composed : scoreCall env attempt used one candidate = some first)
    (again : scoreCall env attempt other two candidate = some second) :
    first.request = second.request := by
  obtain ⟨binding, bound, rest⟩ := bind_eq_some_iff.mp composed
  obtain ⟨chosen, holds, rest⟩ := bind_eq_some_iff.mp rest
  obtain ⟨bindings, bounds, rests⟩ := bind_eq_some_iff.mp again
  obtain ⟨chose, held, rests⟩ := bind_eq_some_iff.mp rests
  rw [← decision, bound] at bounds
  cases bounds
  rw [agree.1, agree.content holds held] at rest
  obtain ⟨arguments, encoded, rest⟩ := bind_eq_some_iff.mp rest
  obtain ⟨same, encodes, rests⟩ := bind_eq_some_iff.mp rests
  rw [encoded] at encodes
  cases encodes
  rw [plugged binding bound] at rest rests
  dsimp only at rest rests
  split at rest
  · rename_i loads
    rw [if_pos loads] at rests
    cases rest
    cases rests
    rfl
  · cases rest

theorem scoring_cases (scores : scoring state index candidate = some rank) :
    state.ranks[index]? = some rank ∧ candidate ∈ rank.pending := by
  rw [scoring] at scores
  split at scores
  · rename_i one known
    split at scores
    · rename_i holds
      cases scores
      exact ⟨known, holds.2⟩
    · cases scores
  · cases scores

structure Kept (env : Env) (state : State) : Prop where
  counters : Counters state
  seats : Seats state
  calls : Calls env state
  agreed : Agreed env state.ranks

theorem Kept.scored (kept : Kept env state) (orderly : Orderly env state (.score index candidate))
    (scores : scoring state index candidate = some rank)
    (composed : scoreCall env state.attempt state.rankUsed.used rank candidate = some call) :
    Calls env (perform (begun state index candidate rank) call) := by
  obtain ⟨known, pending⟩ := scoring_cases scores
  obtain ⟨attempt, origin⟩ := scoreCall_cases composed
  have calls : Calls env (begun state index candidate rank) := kept.calls.leads (.begun known)
  have marked : (begun state index candidate rank).ranks[index]? =
      some { rank with pending := rank.pending.filter (· ≠ candidate) } :=
    List.getElem?_set_self (List.getElem?_eq_some_iff.mp known).1
  refine calls.perform attempt ?_ ?_
  · intro other member same came
    have sourced := kept.calls.sourced other member (same.trans attempt)
    rcases origin with ⟨is, plugged⟩ | ⟨is, builtin⟩
    · rw [Sourced, came, is] at sourced
      obtain ⟨before, earlier, decision, used, composes⟩ := sourced
      have agree := kept.agreed rank (mem_of_getElem? known) before earlier decision.symm plugged
      exact (scoreCall_request agree decision.symm plugged composed composes).symm
    · rw [Sourced, came, is] at sourced
      obtain ⟨earlier, before, there, -, gone, counted⟩ := sourced
      have counts := orderly rank known builtin
      have worker := kept.counters.rank.unique earlier index _ (counted_worker counted)
        (counted_worker counts)
      rw [worker, known] at there
      cases there
      exact absurd pending gone
  · rcases origin with ⟨is, -⟩ | ⟨is, builtin⟩
    · rw [Sourced, is]
      refine ⟨_, mem_of_getElem? marked, rfl, state.rankUsed.used, ?_⟩
      exact (scoreCall_congr rfl rfl rfl).trans composed
    · rw [Sourced, is]
      refine ⟨index, _, marked, rfl, ?_, orderly rank known builtin⟩
      exact fun member => absurd rfl (of_decide_eq_true (mem_filter.mp member).2)

theorem gateCall_cases {sequence : Nat}
    (composed : gateCall env attempt evaluation sequence = some call) :
    call.attempt = attempt ∧ call.origin = .gate evaluation.gate sequence := by
  obtain ⟨binding, -, rest⟩ := bind_eq_some_iff.mp composed
  obtain ⟨arguments, -, rest⟩ := bind_eq_some_iff.mp rest
  split at rest
  · cases rest
    exact ⟨rfl, rfl⟩
  · split at rest
    · cases rest
      exact ⟨rfl, rfl⟩
    · cases rest

theorem Kept.gated {sequence : Nat} (kept : Kept env state)
    (known : state.evaluations[index]? = some evaluation) (waits : evaluation.executed = false)
    (counted : sequenceOf state evaluation = some sequence)
    (composed : gateCall env state.attempt evaluation sequence = some call) :
    Calls env (perform (executing state index evaluation) call) := by
  obtain ⟨attempt, is⟩ := gateCall_cases composed
  have calls : Calls env (executing state index evaluation) := kept.calls.leads (.executing known)
  refine calls.perform attempt ?_ ?_
  · intro other member same came
    have sourced := kept.calls.sourced other member (same.trans attempt)
    rw [Sourced, came, is] at sourced
    obtain ⟨earlier, before, there, gate, executed, counts⟩ := sourced
    have once := kept.seats.numbered kept.counters there known gate counts counted
    rw [once, known] at there
    cases there
    rw [waits] at executed
    cases executed
  · rw [Sourced, is]
    exact ⟨index, { evaluation with executed := true },
      List.getElem?_set_self (List.getElem?_eq_some_iff.mp known).1, rfl, rfl, counted⟩

theorem read_length (taken : counter.read index = some after) :
    after.workers.length = counter.workers.length := by
  rw [Counter.read] at taken
  split at taken
  · cases taken
    exact length_set
  · cases taken

theorem write_length (taken : counter.write index = some after) :
    after.workers.length = counter.workers.length := by
  obtain ⟨value, -, rfl⟩ := write_cases taken
  exact length_set

theorem Kept.resumed (kept : Kept env state) (later : state.attempt < attempt) :
    Calls env (resumed state attempt) where
  counts := Nat.le_of_lt (Nat.lt_of_le_of_lt kept.calls.counts later)
  attempts := fun call member => ⟨(kept.calls.attempts call member).1,
    Nat.le_of_lt (Nat.lt_of_le_of_lt (kept.calls.attempts call member).2 later)⟩
  same := kept.calls.same
  sourced := fun call member current => absurd current
    (Nat.ne_of_lt (Nat.lt_of_le_of_lt (kept.calls.attempts call member).2 later))
  snapshots := kept.calls.snapshots
  conflicts := kept.calls.conflicts

theorem Kept.start : Kept env start where
  counters := ⟨fresh_sound, fresh_within, fresh_sound, fresh_within, fun _ => fresh_sound⟩
  seats := ⟨fun _ no => by (cases no), fun _ _ _ _ no => by (cases no)⟩
  calls := ⟨Nat.le_refl 1, fun _ no => by (cases no), fun _ no => by (cases no),
    fun _ no => by (cases no), fun _ no => by (cases no), rfl⟩
  agreed := nofun

theorem performIf_seats {call : Option Call} (seats : Seats state) : Seats (performIf state call) := by
  cases call with
  | none => exact seats
  | some call =>
    dsimp only [performIf, perform]
    split
    · split <;> exact seats.of_eq rfl rfl
    · exact seats.of_eq rfl rfl

theorem performIf_ranks {call : Option Call} : (performIf state call).ranks = state.ranks := by
  cases call with
  | none => rfl
  | some call =>
    dsimp only [performIf, perform]
    split
    · split <;> rfl
    · rfl

theorem Kept.step {action : Action} (kept : Kept env state) (orderly : Orderly env state action)
    (taken : step env state action = some next) : Kept env next := by
  have counters := kept.counters.step orderly taken
  cases action with
  | rank decision candidates instructions =>
    dsimp only [DecisionCalls.step] at taken
    split at taken
    · rename_i admits
      cases taken
      exact ⟨counters, kept.seats.of_eq rfl rfl, kept.calls.leads .admitted,
        kept.agreed.admitted (orderly admits).2⟩
    · cases taken
      exact kept
  | readRank index =>
    obtain ⟨counter, read, rfl⟩ := map_eq_some_iff.mp taken
    exact ⟨counters, kept.seats.of_eq rfl rfl, kept.calls.leads (.of_rank (read_keeps read)),
      kept.agreed⟩
  | writeRank index =>
    obtain ⟨counter, written, rfl⟩ := map_eq_some_iff.mp taken
    exact ⟨counters, kept.seats.of_eq rfl rfl, kept.calls.leads (.of_rank (write_keeps written)),
      kept.agreed⟩
  | score index candidate =>
    obtain ⟨rank, scores, rfl⟩ := map_eq_some_iff.mp taken
    obtain ⟨known, -⟩ := scoring_cases scores
    have begun : Kept env (begun state index candidate rank) :=
      ⟨⟨kept.counters.rank, kept.counters.ranks, kept.counters.gate, kept.counters.gates,
        kept.counters.sequence⟩, kept.seats.of_eq rfl rfl, kept.calls.leads (.begun known),
        kept.agreed.begun known⟩
    dsimp only [score] at counters ⊢
    split
    · exact begun
    · rename_i missing
      rw [if_neg missing] at counters
      refine ⟨counters, performIf_seats begun.seats, ?_, ?_⟩
      · cases composed : scoreCall env state.attempt state.rankUsed.used rank candidate with
        | none =>
          dsimp only [DecisionCalls.begun] at composed ⊢
          rw [composed]
          exact begun.calls
        | some call =>
          have scored := kept.scored orderly scores composed
          dsimp only [DecisionCalls.begun] at composed scored ⊢
          rw [composed]
          exact scored
      · rw [performIf_ranks]
        exact begun.agreed
  | remember index candidate =>
    obtain ⟨key, -, rfl⟩ := map_eq_some_iff.mp taken
    exact ⟨counters, kept.seats.of_eq rfl rfl, kept.calls.leads .aside,
      kept.agreed⟩
  | evaluate gate arguments =>
    cases taken
    exact ⟨counters, kept.seats.opened, kept.calls.leads .opened, kept.agreed⟩
  | readSequence index =>
    obtain ⟨evaluation, -, moved⟩ := bind_eq_some_iff.mp taken
    obtain ⟨counter, read, rfl⟩ := map_eq_some_iff.mp moved
    exact ⟨counters, kept.seats.of_sequence (read_length read),
      kept.calls.leads (.of_sequence (read_keeps read)), kept.agreed⟩
  | writeSequence index =>
    obtain ⟨evaluation, -, moved⟩ := bind_eq_some_iff.mp taken
    obtain ⟨counter, written, rfl⟩ := map_eq_some_iff.mp moved
    exact ⟨counters, kept.seats.of_sequence (write_length written),
      kept.calls.leads (.of_sequence (write_keeps written)), kept.agreed⟩
  | checkGate index =>
    obtain ⟨evaluation, -, checked⟩ := bind_eq_some_iff.mp taken
    split at checked
    · obtain ⟨counter, -, rfl⟩ := map_eq_some_iff.mp checked
      exact ⟨counters, kept.seats.of_eq rfl rfl, kept.calls.leads .aside,
        kept.agreed⟩
    · cases checked
  | readGate index =>
    obtain ⟨counter, -, rfl⟩ := map_eq_some_iff.mp taken
    exact ⟨counters, kept.seats.of_eq rfl rfl, kept.calls.leads .aside,
      kept.agreed⟩
  | writeGate index =>
    obtain ⟨counter, -, rfl⟩ := map_eq_some_iff.mp taken
    exact ⟨counters, kept.seats.of_eq rfl rfl, kept.calls.leads .aside,
      kept.agreed⟩
  | execute index =>
    obtain ⟨evaluation, known, executes⟩ := bind_eq_some_iff.mp taken
    split at executes
    · rename_i holds
      obtain ⟨sequence, counted, rfl⟩ := map_eq_some_iff.mp executes
      refine ⟨counters, performIf_seats (kept.seats.executing known), ?_, ?_⟩
      · cases composed : gateCall env state.attempt evaluation sequence with
        | none => exact kept.calls.leads (.executing known)
        | some call => exact kept.gated known holds.2 counted composed
      · rw [performIf_ranks]
        exact kept.agreed
    · cases executes
  | storeTrace =>
    cases taken
    exact ⟨counters, kept.seats.of_eq rfl rfl, kept.calls.leads .aside,
      kept.agreed⟩
  | resume restored =>
    dsimp only [DecisionCalls.step] at taken
    split at taken
    · cases taken
      have later : state.attempt < nextAttempt state restored := by
        have stored : state.attempt ≤ state.storedAttempt := orderly
        dsimp only [nextAttempt]
        omega
      exact ⟨counters, ⟨fun _ no => by (cases no), fun _ _ _ _ no => by (cases no)⟩,
        kept.resumed later, fun _ no => by (cases no)⟩
    · cases taken

def rankings (state : State) : Nat := state.rankUsed.workers.countP Worker.isCounted

def gateCalls (state : State) : Nat := state.gateUsed.workers.countP Worker.isCounted

/-- In an orderly run calls with different requests have different ids, no snapshot is in
conflict, and the budgets of every attempt are kept. -/
theorem decision_calls_distinct (env : Env) (actions : List Action) (state : State)
    (run : Steps (step env) (Orderly env) start actions state) :
    (∀ first ∈ state.executed, ∀ second ∈ state.executed, first.request ≠ second.request →
      first.id ≠ second.id) ∧
    state.conflicts = [] ∧ rankings state ≤ rankRunBudget ∧ gateCalls state ≤ gateRunBudget := by
  have kept : Kept env state := run.invariant (Kept env)
    (fun _ _ _ kept orderly taken => kept.step orderly taken) Kept.start
  refine ⟨?_, kept.calls.conflicts, ?_, ?_⟩
  · intro first member second again different same
    obtain ⟨attempt, origin⟩ := callId_injective (kept.calls.attempts first member).1
      (kept.calls.attempts second again).1 same
    exact different (kept.calls.same first member second again attempt origin)
  · rw [rankings, kept.counters.rank.total]
    exact Nat.le_trans (Nat.le_add_right ..) kept.counters.ranks
  · rw [gateCalls, kept.counters.gate.total]
    exact Nat.le_trans (Nat.le_add_right ..) kept.counters.gates

def relevance : Binding where
  kind := "score"
  targetOption := ""
  toolKey := "score_text"
  pluginKey := "judge"
  connection := "c1"
  loads := true
  modelRef := none
  rubric := ["off topic", "on topic"]
  summary := "Is it relevant?"

def judge : Env where
  analyses := fun decision => if decision = "relevance" then some relevance else none
  gates := fun gate => if gate = "search_needed" then some ⟨true, "decide", "c1", true, none⟩ else none
  criteria := fun _ rubric => String.intercalate "," rubric

def ranking (content : String) : Action := .rank "relevance" [⟨"a", content⟩] ""

def counting (index : Nat) : List Action := [.readRank index, .writeRank index]

def gateOnce (index : Nat) : List Action :=
  [.evaluate "search_needed" (some [("state", "Where?")]), .readSequence index,
    .writeSequence index, .checkGate index, .readGate index, .writeGate index, .execute index]

/-- One ranking and two gates, and another ranking in a second attempt. -/
def twoAttempts : List Action :=
  ranking "one" :: counting 0 ++ .score 0 0 :: gateOnce 0 ++ gateOnce 1 ++
    .storeTrace :: .resume 1 :: ranking "two" :: counting 0 ++ [.score 0 0]

theorem decision_calls_distinct_attempts : ∃ state,
    execGuarded (step judge) (Orderly judge) start twoAttempts = some state ∧
      (∀ first ∈ state.executed, ∀ second ∈ state.executed, first.request ≠ second.request →
        first.id ≠ second.id) ∧
      state.conflicts = [] ∧ rankings state ≤ rankRunBudget ∧ gateCalls state ≤ gateRunBudget := by
  have ends : (execGuarded (step judge) (Orderly judge) start twoAttempts).isSome := by
    decide +kernel
  obtain ⟨state, run⟩ := isSome_iff_exists.mp ends
  exact ⟨state, run, decision_calls_distinct judge twoAttempts state (execGuarded_steps run)⟩

/-- The second ranking of an attempt has another candidate; and three rankings check the budget
before the first is counted. -/
theorem decision_calls_conflict :
    (exec (step judge) start (ranking "one" :: counting 0 ++ .score 0 0 :: ranking "two" ::
        counting 1 ++ [.score 1 0])).map (fun state =>
          (state.executed.map Call.id, decide (state.executed.map Call.request).Nodup,
            state.conflicts.length)) =
      some ([[.word "rank", .word "relevance", .number 0],
        [.word "rank", .word "relevance", .number 0]], true, 1) ∧
    (exec (step judge) start (ranking "one" :: ranking "two" :: ranking "three" ::
        counting 0 ++ counting 1 ++ counting 2)).map rankings = some 3 := by
  decide +kernel

end SourceLens.DecisionCalls
