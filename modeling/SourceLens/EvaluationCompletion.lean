import SourceLens.EvaluationProvenance

/-! When a batch is completed: what its results and its counters hold then. -/

namespace SourceLens.EvaluationBatch

open EvaluationScoring ReadCommitted Transition List Function

variable {Number : Type}

variable {task : TaskId} {runs next : Rows RunId TaskId (Option Content)} {batch : Batch Number}
  {old new : CaseId → Result Number} {source : RunId}

/-- The result has the scores of its source run, which is terminal. -/
def FromTerminal (env : Env Number) (runs : Rows RunId TaskId (Option Content)) (case : CaseId)
    (result : Result Number) : Prop :=
  ∃ source content, result.sourceRun = some source ∧ (runs source).committed = some content ∧
    content.status.terminal = true ∧ result.scores = (env.assess case content).scores ∧
    result.passed = (env.assess case content).passed

def Totals (env : Env Number) (batch : Batch Number) (results : List (Result Number)) : Prop :=
  let summary := aggregateResults env.arithmetic env.metrics
    (results.map fun result => (result.passed, result.scores))
  batch.completedCases = results.countP scored ∧ batch.passedCases = summary.passedCases ∧
    batch.failedCases = summary.failedCases ∧ batch.aggregateScore = summary.aggregateScore ∧
    batch.coverage = some summary.coverage

def stored (env : Env Number) (state : State Number) : List (Result Number) :=
  env.cases.map fun case => (state.results case).committed

structure Settled (env : Env Number) (state : State Number) : Prop where
  results : ∀ case ∈ env.cases, (state.results case).committed.present = true ∧
    FromTerminal env state.runs case (state.results case).committed
  totals : Totals env state.batch (stored env state)

/-- When the active runs are counted, every result whose run is no longer active is scored; a
terminal run stays as it is; neither a cancellation nor the retention takes part. -/
def Undelayed (env : Env Number) (state : State Number) : Action → Prop
  | .perform task =>
    match state.phases task with
    | .countingActive _ _ => ∀ case ∈ env.cases,
        (result state task case).sourceRun.isSome = true →
          (sourceStatus state task case).any (fun status => status.unfinished) = false →
            scored (result state task case) = true
    | _ => True
  | .progress source _ =>
    ∀ held ∈ (state.runs source).committed, held.status.terminal = false
  | .begin _ (.batch .cancel) | .begin _ (.retain _) => False
  | _ => True

def Orderly (env : Env Number) (state : State Number) (action : Action) : Prop :=
  Unmixed state action ∧ Undelayed env state action

def onBatch : Phase Number → Bool
  | .seeding _ | .sweeping _ | .rescoring _ _ | .refreezing _ _ _ _ _ | .listing _ _
  | .dispatching _ _ _ | .countingPending _ | .countingActive _ _ | .counting _ _ | .aggregating _
  | .resetting _ _ _ | .cancelling _ _ | .committing _ => true
  | _ => false

def Done (runs : Rows RunId TaskId (Option Content)) (source : RunId) : Prop :=
  ∃ content, (runs source).committed = some content ∧ content.status.terminal = true

def Holds (runs : Rows RunId TaskId (Option Content)) (source : RunId) (content : Content) : Prop :=
  (runs source).committed = some content ∧ content.status.terminal = true

/-- What the transaction sees is a settled batch with these counters. -/
def Complete (env : Env Number) (draft : Batch Number) (seen : CaseId → Result Number) : Prop :=
  (∀ case ∈ env.cases, (seen case).present = true ∧ scored (seen case) = true) ∧
    Totals env draft (env.cases.map seen)

/-- What a task has found out, of the runs and of the results it sees. -/
def Facts (env : Env Number) (batch : Batch Number) (runs : Rows RunId TaskId (Option Content))
    (seen : CaseId → Result Number) (clean : Prop) : Phase Number → Prop
  | .finding source status => status.terminal = true → Done runs source
  | .scoring _ source => Done runs source
  | .freezing _ source content => Holds runs source content
  | .locking job => job ≠ .cancel
  | .seeding draft | .sweeping draft | .listing draft _ | .dispatching draft _ _
  | .countingPending draft => draft.status ≠ .completed
  | .rescoring draft todo =>
    draft.status ≠ .completed ∧ ∀ item ∈ todo, Done runs item.2
  | .refreezing draft _ source content todo =>
    draft.status ≠ .completed ∧ Holds runs source content ∧ ∀ item ∈ todo, Done runs item.2
  | .countingActive draft assigned =>
    draft.status ≠ .completed ∧ (assigned = true → ∀ case ∈ env.cases,
      (seen case).present = true → (seen case).sourceRun.isSome = true)
  | .counting draft settled =>
    draft.status ≠ .completed ∧ (settled = true → ∀ case ∈ env.cases,
      (seen case).present = true → scored (seen case) = true)
  | .aggregating draft =>
    draft.status ≠ .completed ∧
      ∀ case ∈ env.cases, (seen case).present = true ∧ scored (seen case) = true
  | .resetting draft _ retried => draft = batch ∧ (retried = false → clean)
  | .committing draft =>
    draft.status = .completed → draft = batch ∧ clean ∨ Complete env draft seen
  | .cancelling _ _ | .retaining _ | .keeping _ _ | .deleting _ | .retained => False
  | .idle | .loading _ | .scored | .ended => True

def Clean (state : State Number) (task : TaskId) : Prop :=
  ∀ case row, (state.results case).pending ≠ some (task, row)

def TaskFacts (env : Env Number) (state : State Number) (task : TaskId) (phase : Phase Number) :
    Prop := Facts env state.batch state.runs (result state task) (Clean state task) phase

structure Timely (env : Env Number) (state : State Number) : Prop where
  fresh : state.results.All fun case result =>
    scored result = true → FromTerminal env state.runs case result
  owner : ∀ case task row, (state.results case).pending = some (task, row) →
    state.phases task = .scored ∧ row.sourceRun = (state.results case).committed.sourceRun ∧
        row.present = (state.results case).committed.present ∧ scored row = true ∨
      state.lock = some task
  creator : ∀ source task content, (state.runs source).pending = some (task, content) →
    state.lock = some task ∧ (state.runs source).committed = none ∧ content = some created
  holder : ∀ task, state.lock = some task ↔ onBatch (state.phases task) = true
  facts : ∀ task, TaskFacts env state task (state.phases task)
  completed : state.batch.status = .completed →
    Complete env state.batch fun case => (state.results case).committed

theorem timely_start (env : Env Number) : Timely env (start : State Number) where
  fresh _ := ⟨nofun, nofun⟩
  owner _ _ _ no := by cases no
  creator _ _ _ no := by cases no
  holder _ := ⟨nofun, nofun⟩
  facts _ := trivial
  completed no := by cases no

def Kept (old new : Result Number) : Prop :=
  new.present = old.present ∧ (old.sourceRun.isSome = true → new.sourceRun.isSome = true) ∧
    (scored old = true → scored new = true ∧ new.scores = old.scores ∧ new.passed = old.passed)

theorem Kept.refl (result : Result Number) : Kept result result :=
  ⟨rfl, id, fun done => ⟨done, rfl, rfl⟩⟩

def Grown (runs next : Rows RunId TaskId (Option Content)) : Prop :=
  ∀ source content, Holds runs source content → Holds next source content

theorem Done.grown (grown : Grown runs next) (done : Done runs source) : Done next source := by
  rcases done with ⟨content, held⟩
  exact ⟨content, grown source content held⟩

theorem FromTerminal.grown {env : Env Number} {case : CaseId} {result : Result Number}
    (grown : Grown runs next) (from' : FromTerminal env runs case result) :
    FromTerminal env next case result := by
  rcases from' with ⟨source, content, mine, held, terminal, rest⟩
  rcases grown source content ⟨held, terminal⟩ with ⟨heldToo, _⟩
  exact ⟨source, content, mine, heldToo, terminal, rest⟩

theorem totals_kept {env : Env Number} (kept : ∀ case ∈ env.cases, Kept (old case) (new case))
    (done : ∀ case ∈ env.cases, scored (old case) = true)
    (totals : Totals env batch (env.cases.map old)) : Totals env batch (env.cases.map new) := by
  have pairs : (env.cases.map new).map (fun result => (result.passed, result.scores)) =
      (env.cases.map old).map fun result => (result.passed, result.scores) := by
    rw [map_map, map_map]
    apply map_congr_left
    intro case member
    rcases (kept case member).2.2 (done case member) with ⟨_, scores, passed⟩
    simp only [comp_apply, scores, passed]
  have counts : (env.cases.map new).countP scored = (env.cases.map old).countP scored := by
    rw [countP_map, countP_map]
    apply countP_congr
    intro case member
    have both := (kept case member).2.2 (done case member)
    simp only [comp_apply, both.1, done case member]
  unfold Totals at totals ⊢
  rw [pairs, counts]
  exact totals

theorem Complete.kept {env : Env Number} (kept : ∀ case ∈ env.cases, Kept (old case) (new case))
    (complete : Complete env batch old) : Complete env batch new := by
  refine ⟨?_, totals_kept kept (fun case member => (complete.1 case member).2) complete.2⟩
  intro case member
  rcases complete.1 case member with ⟨present, done⟩
  rcases kept case member with ⟨same, _, scores⟩
  exact ⟨same.trans present, (scores done).1⟩

theorem Facts.kept {env : Env Number} {clean cleanToo : Prop} {phase : Phase Number}
    (grown : Grown runs next) (kept : ∀ case ∈ env.cases, Kept (old case) (new case))
    (same : clean → cleanToo) (facts : Facts env batch runs old clean phase) :
    Facts env batch next new cleanToo phase := by
  cases phase with
  | finding source status => exact fun terminal => (facts terminal).grown grown
  | scoring case source => exact Done.grown grown facts
  | freezing case source content => exact grown source content facts
  | rescoring draft todo => exact ⟨facts.1, fun item member => (facts.2 item member).grown grown⟩
  | refreezing draft case source content todo =>
    exact ⟨facts.1, grown source content facts.2.1,
      fun item member => (facts.2.2 item member).grown grown⟩
  | countingActive draft assigned =>
    refine ⟨facts.1, ?_⟩
    intro yes case member present
    rcases kept case member with ⟨exists', sources, _⟩
    exact sources (facts.2 yes case member (exists'.symm.trans present))
  | counting draft settled =>
    refine ⟨facts.1, ?_⟩
    intro yes case member present
    rcases kept case member with ⟨exists', _, scores⟩
    exact (scores (facts.2 yes case member (exists'.symm.trans present))).1
  | aggregating draft =>
    refine ⟨facts.1, ?_⟩
    intro case member
    rcases facts.2 case member with ⟨present, done⟩
    rcases kept case member with ⟨exists', _, scores⟩
    exact ⟨exists'.trans present, (scores done).1⟩
  | resetting draft todo retried => exact ⟨facts.1, fun none' => same (facts.2 none')⟩
  | committing draft =>
    intro completed
    cases facts completed with
    | inl before => exact .inl ⟨before.1, same before.2⟩
    | inr complete => exact .inr (complete.kept kept)
  | _ => exact facts

theorem Facts.off {env : Env Number} {batchToo : Batch Number} {clean cleanToo : Prop}
    {phase : Phase Number} (off : onBatch phase = false) (grown : Grown runs next)
    (facts : Facts env batch runs old clean phase) :
    Facts env batchToo next new cleanToo phase := by
  cases phase with
  | idle | loading _ | scored | ended => trivial
  | finding source status => exact fun terminal => (facts terminal).grown grown
  | scoring case source => exact Done.grown grown facts
  | freezing case source content => exact grown source content facts
  | locking _ | retaining _ | keeping _ _ | deleting _ | retained => exact facts
  | _ => cases off

section Steps

variable {env : Env Number} {state : State Number} (timely : Timely env state)
include timely

theorem Timely.factsAt {phase : Phase Number} (at' : state.phases task = phase) :
    TaskFacts env state task phase :=
  at' ▸ timely.facts task

theorem Timely.alone {other : TaskId} (mine : state.lock = some task)
    (busy : onBatch (state.phases other) = true) : other = task := by
  have theirs := (timely.holder other).mpr busy
  rw [mine] at theirs
  exact (Option.some.inj theirs).symm

theorem Timely.act (task : TaskId) (phase : Phase Number) (lock : Option TaskId)
    (results : Rows CaseId TaskId (Result Number)) (runs : Rows RunId TaskId (Option Content))
    (past : List (RunId × Content))
    (locks : lock = state.lock ∨ state.lock = none ∧ lock = some task)
    (holds : lock = some task ↔ onBatch phase = true) (unscored : state.phases task ≠ .scored)
    (writes : ∀ case, results case = state.results case ∨ (state.results case).Free task ∧
      ∃ row, results case = (state.results case).write task row ∧
        (scored row = true → FromTerminal env runs case row) ∧
        (lock = some task ∨ phase = .scored ∧
          row.sourceRun = (state.results case).committed.sourceRun ∧
          row.present = (state.results case).committed.present ∧ scored row = true))
    (grown : Grown state.runs runs)
    (creator : ∀ source other content, (runs source).pending = some (other, content) →
      (state.runs source).pending = some (other, content) ∧
          (runs source).committed = (state.runs source).committed ∨
        other = task ∧ lock = some task ∧ (runs source).committed = none ∧ content = some created)
    (facts : Facts env state.batch runs (fun case => (results case).seen task)
      (∀ case row, (results case).pending ≠ some (task, row)) phase) :
    Timely env
      { batch := state.batch, lock := lock, results := results, runs := runs,
        phases := Function.update state.phases task phase, past := past } := by
  have keptLock : ∀ other, state.lock = some other → lock = some other := by
    intro other held
    rcases locks with same | ⟨free, _⟩
    · rw [same, held]
    · rw [free] at held
      cases held
  have committed : ∀ case, (results case).committed = (state.results case).committed := by
    intro case
    rcases writes case with same | ⟨_, row, same, _⟩
    · rw [same]
    · rw [same]
      rfl
  have seen : ∀ other ≠ task, ∀ case, (results case).seen other = (state.results case).seen other := by
    intro other different case
    rcases writes case with same | ⟨free, row, same, _⟩
    · rw [same]
    · rw [same, Version.seen_write_other free different]
  refine ⟨?_, ?_, ?_, ?_, ?_, ?_⟩
  · intro case
    rcases writes case with same | ⟨_, row, same, good, _⟩
    · dsimp only
      rw [same]
      exact (timely.fresh case).mono fun _ from' done => (from' done).grown grown
    · dsimp only
      rw [same]
      exact ((timely.fresh case).mono fun _ from' done => (from' done).grown grown).write good
  · intro case other row held
    dsimp only at held ⊢
    rw [committed case]
    have before : ∀ row, (state.results case).pending = some (other, row) →
        Function.update state.phases task phase other = .scored ∧
            row.sourceRun = (state.results case).committed.sourceRun ∧
            row.present = (state.results case).committed.present ∧ scored row = true ∨
          lock = some other := by
      intro row held
      rcases timely.owner case other row held with ⟨at', rest⟩ | mine
      · have different : other ≠ task := by
          rintro rfl
          exact unscored at'
        rw [update_of_ne different]
        exact .inl ⟨at', rest⟩
      · exact .inr (keptLock other mine)
    rcases writes case with same | ⟨_, value, same, _, mine⟩
    · rw [same] at held
      exact before row held
    · rw [same] at held
      cases held
      rcases mine with mine | ⟨at', rest⟩
      · exact .inr mine
      · rw [at', update_self]
        exact .inl ⟨rfl, rest⟩
  · intro source other content held
    rcases creator source other content held with ⟨before, same⟩ | ⟨rfl, mine, rest⟩
    · rcases timely.creator source other content before with ⟨mine, none', new⟩
      exact ⟨keptLock other mine, same.trans none', new⟩
    · exact ⟨mine, rest⟩
  · intro other
    dsimp only
    by_cases same : other = task
    · rw [same, update_self]
      exact holds
    · rw [update_of_ne same, ← timely.holder other]
      rcases locks with same' | ⟨free, mine⟩
      · rw [same']
      · rw [free, mine]
        constructor
        · intro theirs
          exact absurd (Option.some.inj theirs).symm same
        · nofun
  · intro other
    by_cases same : other = task
    · rw [same]
      simp only [TaskFacts, update_self]
      exact facts
    · simp only [TaskFacts, update_of_ne same]
      apply (timely.facts other).kept grown
      · intro case _
        change Kept _ ((results case).seen other)
        rw [seen other same case]
        exact Kept.refl _
      · intro clean case row held
        dsimp only at held
        rcases writes case with equal | ⟨_, value, equal, _⟩
        · rw [equal] at held
          exact clean case row held
        · rw [equal] at held
          cases held
          exact same rfl
  · intro completed
    have before := timely.completed completed
    simpa only [committed] using before

theorem Timely.goOn (task : TaskId) (phase : Phase Number) {now : Phase Number}
    (at' : state.phases task = now) (same : onBatch now = onBatch phase) (unscored : now ≠ .scored)
    (facts : TaskFacts env state task phase) : Timely env (setPhase state task phase) := by
  apply timely.act task phase state.lock state.results state.runs state.past (.inl rfl)
  · rw [← same, ← at']
    exact timely.holder task
  · rwa [at']
  · exact fun _ => .inl rfl
  · exact fun _ _ held => held
  · exact fun _ _ _ held => .inl ⟨held, rfl⟩
  · exact facts

theorem Timely.writeResult (task : TaskId) (phase : Phase Number) (case : CaseId)
    (change : Result Number → Result Number) (next : State Number)
    (same : onBatch (state.phases task) = onBatch phase) (unscored : state.phases task ≠ .scored)
    (good : scored (change (result state task case)) = true →
      FromTerminal env state.runs case (change (result state task case)))
    (mine : state.lock = some task ∨ phase = .scored ∧
      (change (result state task case)).sourceRun = (state.results case).committed.sourceRun ∧
      (change (result state task case)).present = (state.results case).committed.present ∧
      scored (change (result state task case)) = true)
    (facts : ∀ seen clean, Facts env state.batch state.runs seen clean phase)
    (taken : (writeResult state task case change).map (fun next => setPhase next task phase) =
      some next) : Timely env next := by
  unfold EvaluationBatch.writeResult at taken
  split at taken
  · rename_i free
    cases taken
    apply timely.act task phase state.lock
      (state.results.write case task (change (result state task case))) state.runs state.past
      (.inl rfl)
    · rw [← same]
      exact timely.holder task
    · exact unscored
    · intro other
      by_cases equal : other = case
      · subst equal
        exact .inr ⟨free, _, update_self .., good, mine⟩
      · exact .inl (update_of_ne equal _ _)
    · exact fun _ _ held => held
    · exact fun _ _ _ held => .inl ⟨held, rfl⟩
    · exact facts _ _
  · cases taken

theorem Timely.owned (idle : state.phases task ≠ .scored) (free : state.lock ≠ some task)
    (case : CaseId) (row : Result Number) : (state.results case).pending ≠ some (task, row) := by
  intro held
  rcases timely.owner case task row held with ⟨at', _⟩ | mine
  · exact idle at'
  · exact free mine

omit timely in
theorem unlock_cases (state : State Number) (task other : TaskId) :
    unlock state task = some other ↔ state.lock = some other ∧ other ≠ task := by
  unfold unlock
  split
  · rename_i mine
    constructor
    · nofun
    · rintro ⟨theirs, different⟩
      rw [mine] at theirs
      exact absurd (Option.some.inj theirs).symm different
  · rename_i notMine
    constructor
    · intro theirs
      refine ⟨theirs, ?_⟩
      rintro rfl
      exact notMine theirs
    · exact And.left

theorem Timely.finish (task : TaskId) (phase : Phase Number) (batch : Batch Number)
    (results : Rows CaseId TaskId (Result Number)) (runs : Rows RunId TaskId (Option Content))
    (off : onBatch phase = false)
    (fresh : results.All fun case result =>
      scored result = true → FromTerminal env runs case result)
    (rows : ∀ case, (∀ row, (results case).pending ≠ some (task, row)) ∧
      ∀ other ≠ task, ∀ row, (results case).pending = some (other, row) →
        (state.results case).pending = some (other, row) ∧
          (results case).committed = (state.results case).committed)
    (sources : ∀ source other content, (runs source).pending = some (other, content) →
      other ≠ task ∧ (state.runs source).pending = some (other, content) ∧
        (runs source).committed = (state.runs source).committed)
    (grown : Grown state.runs runs)
    (kept : ∀ other ≠ task, onBatch (state.phases other) = true → batch = state.batch ∧
      ∀ case, Kept (result state other case) ((results case).seen other))
    (facts : Facts env batch runs (fun case => (results case).seen task)
      (∀ case row, (results case).pending ≠ some (task, row)) phase)
    (completed : batch.status = .completed →
      Complete env batch fun case => (results case).committed) :
    Timely env
      { batch := batch, lock := unlock state task, results := results, runs := runs,
        phases := Function.update state.phases task phase, past := state.past } := by
  refine ⟨fresh, ?_, ?_, ?_, ?_, completed⟩
  · intro case other row held
    dsimp only at held ⊢
    by_cases equal : other = task
    · rw [equal] at held
      exact absurd held ((rows case).1 row)
    · rcases (rows case).2 other equal row held with ⟨before, committed⟩
      rw [update_of_ne equal, committed, unlock_cases]
      rcases timely.owner case other row before with here | mine
      · exact .inl here
      · exact .inr ⟨mine, equal⟩
  · intro source other content held
    rcases sources source other content held with ⟨different, before, committed⟩
    rcases timely.creator source other content before with ⟨mine, rest⟩
    exact ⟨(unlock_cases state task other).mpr ⟨mine, different⟩, committed.trans rest.1, rest.2⟩
  · intro other
    dsimp only
    rw [unlock_cases]
    by_cases equal : other = task
    · rw [equal, update_self, off]
      simp
    · rw [update_of_ne equal, timely.holder other]
      exact ⟨And.left, fun busy => ⟨busy, equal⟩⟩
  · intro other
    by_cases equal : other = task
    · rw [equal]
      simp only [TaskFacts, update_self]
      exact facts
    · simp only [TaskFacts, update_of_ne equal]
      cases busy : onBatch (state.phases other) with
      | false => exact (timely.facts other).off busy grown
      | true =>
        rcases kept other equal busy with ⟨batch', results'⟩
        rw [batch']
        exact (timely.facts other).kept grown (fun case _ => results' case)
          fun clean case row held => clean case row ((rows case).2 other equal row held).1

theorem Timely.rollback (task : TaskId) : Timely env (rollback state task) := by
  have grown : Grown state.runs (state.runs.rollback task) := by
    intro source content held
    exact ⟨(Version.committed_rollback ..).trans held.1, held.2⟩
  apply timely.finish task .ended state.batch (state.results.rollback task)
    (state.runs.rollback task) rfl
  · intro case
    exact ((timely.fresh case).rollback task).mono fun _ from' done => (from' done).grown grown
  · intro case
    refine ⟨fun row held => (Version.pending_rollback held).1 rfl, ?_⟩
    intro other _ row held
    exact ⟨(Version.pending_rollback held).2, Version.committed_rollback ..⟩
  · intro source other content held
    rcases Version.pending_rollback held with ⟨different, before⟩
    exact ⟨different, before, Version.committed_rollback ..⟩
  · exact grown
  · intro other different _
    refine ⟨rfl, ?_⟩
    intro case
    have seen : (state.results.rollback task case).seen other = (state.results case).seen other :=
      Version.seen_rollback_other different
    rw [seen]
    exact Kept.refl _
  · trivial
  · intro completed
    have before := timely.completed completed
    have same : ∀ case, (state.results.rollback task case).committed =
        (state.results case).committed := fun case => Version.committed_rollback ..
    simpa only [same] using before

theorem Timely.kept_scored (at' : state.phases task = .scored) (case : CaseId) (row : Result Number)
    (held : (state.results case).pending = some (task, row)) :
    Kept (state.results case).committed row := by
  rcases timely.owner case task row held with ⟨_, source, present, done⟩ | mine
  · refine ⟨present, fun some' => source ▸ some', ?_⟩
    intro before
    rcases (timely.fresh case).1 before with ⟨one, first, named, known, _, scores, passed⟩
    rcases (timely.fresh case).2 task row held done with
      ⟨two, second, namedToo, knownToo, _, scoresToo, passedToo⟩
    rw [source, named] at namedToo
    cases namedToo
    rw [known] at knownToo
    cases knownToo
    exact ⟨done, scoresToo.trans scores.symm, passedToo.trans passed.symm⟩
  · have busy := (timely.holder task).mp mine
    rw [at'] at busy
    cases busy

theorem Timely.grown_commit (task : TaskId) : Grown state.runs (state.runs.commit task) := by
  intro source content held
  refine ⟨?_, held.2⟩
  rcases Version.commit_cases (state.runs source) task with ⟨row, mine, _⟩ | ⟨same, _⟩
  · -- What is pending of a run is its creation.
    have none' := (timely.creator source task row mine).2.1
    rw [held.1] at none'
    cases none'
  · change (Version.commit (state.runs source) task).committed = some content
    rw [same]
    exact held.1

theorem Timely.commit (task : TaskId) (phase : Phase Number) (batch : Batch Number)
    (off : onBatch phase = false)
    (same : state.phases task = .scored ∧ batch = state.batch ∨ state.lock = some task)
    (facts : ∀ seen clean, Facts env batch (state.runs.commit task) seen clean phase)
    (completed : batch.status = .completed →
      Complete env batch fun case => (state.results case).seen task) :
    Timely env (commit env state task batch phase) := by
  unfold EvaluationBatch.commit
  dsimp only
  split
  · have grown := timely.grown_commit task
    apply timely.finish task phase batch (state.results.commit task) (state.runs.commit task) off
    · intro case
      exact ((timely.fresh case).commit task).mono fun _ from' done => (from' done).grown grown
    · intro case
      refine ⟨fun row held => (Version.pending_commit held).1 rfl, ?_⟩
      intro other _ row held
      exact (Version.pending_commit held).2
    · exact fun source other content held => Version.pending_commit held
    · exact grown
    · intro other different busy
      rcases same with ⟨at', batch'⟩ | mine
      · refine ⟨batch', ?_⟩
        intro case
        have cases' := @Version.seen_commit_other _ _ _ (state.results case) task other different
        rcases cases' with ⟨row, held, before, after⟩ | equal
        · change Kept ((state.results case).seen other)
            ((Version.commit (state.results case) task).seen other)
          rw [before, after]
          exact timely.kept_scored at' case row held
        · change Kept ((state.results case).seen other)
            ((Version.commit (state.results case) task).seen other)
          rw [equal]
          exact Kept.refl _
      · exact absurd (timely.alone mine busy) different
    · exact facts _ _
    · intro done
      have seen : ∀ case, (state.results.commit task case).committed =
          (state.results case).seen task := fun case => Version.committed_commit ..
      simpa only [seen] using completed done
  · exact timely.rollback task

theorem Timely.holds_read {content : Content} (known : run state task source = some content)
    (terminal : content.status.terminal = true) : Holds state.runs source content := by
  rcases Version.seen_cases (state.runs source) task with ⟨same, _⟩ | held
  · refine ⟨?_, terminal⟩
    rw [← same]
    exact known
  · have new := (timely.creator source task _ held).2.2
    rw [run, new] at known
    cases known
    cases terminal

theorem Timely.done_read {content : Content} (done : Done state.runs source)
    (known : run state task source = some content) : Holds state.runs source content := by
  rcases done with ⟨value, held, terminal⟩
  rcases Version.seen_cases (state.runs source) task with ⟨same, _⟩ | mine
  · rw [run, same, held] at known
    cases known
    exact ⟨held, terminal⟩
  · have none' := (timely.creator source task _ mine).2.1
    rw [held] at none'
    cases none'

omit timely in
theorem fromTerminal_freeze {case : CaseId} {source : RunId} {content : Content}
    (held : Holds state.runs source content) (row : Result Number) :
    FromTerminal env state.runs case (freeze env case source content row) :=
  ⟨source, content, rfl, held.1, held.2, rfl, rfl⟩

theorem Timely.freezing (task : TaskId) (case : CaseId) (source : RunId) (content : Content)
    (next : State Number) (at' : state.phases task = .freezing case source content)
    (unmixed : (result state task case).sourceRun = some source)
    (taken : perform env state task (.freezing case source content) = some next) :
    Timely env next := by
  have held : Holds state.runs source content := by
    have facts := timely.factsAt at'
    exact facts
  have off : state.lock ≠ some task := by
    intro mine
    have busy := (timely.holder task).mp mine
    rw [at'] at busy
    cases busy
  have seen : result state task case = (state.results case).committed := by
    rcases Version.seen_cases (state.results case) task with ⟨same, _⟩ | mine
    · exact same
    · exact absurd mine (timely.owned (by simp [at']) off case _)
  apply timely.writeResult task .scored case _ next (by rw [at']; rfl) (by simp [at'])
    (fun _ => fromTerminal_freeze held _) _ (fun _ _ => trivial) taken
  refine .inr ⟨rfl, ?_, ?_, scored_assess env case content _ rfl⟩
  · rw [← seen, unmixed]
    rfl
  · rw [← seen]
    rfl

theorem Timely.commitScore (task : TaskId) (at' : state.phases task = .scored) :
    Timely env (EvaluationBatch.commit env state task state.batch (.locking .advance)) := by
  apply timely.commit task _ state.batch rfl (.inl ⟨at', rfl⟩)
  · nofun
  · intro completed
    apply (timely.completed completed).kept
    intro case _
    rcases Version.seen_cases (state.results case) task with ⟨same, _⟩ | mine
    · rw [same]
      exact Kept.refl _
    · exact timely.kept_scored at' case _ mine

omit timely in
theorem onBatch_locked (task : TaskId) (job : Job) :
    onBatch (locked env state task job) = true := by
  unfold locked
  cases job <;> dsimp only <;> split <;> (try split) <;> rfl

theorem Timely.locking (task : TaskId) (job : Job) (at' : state.phases task = .locking job)
    (free : state.lock = none) :
    Timely env { setPhase state task (locked env state task job) with lock := some task } := by
  have busy := @onBatch_locked _ env state task job
  have other : job ≠ .cancel := by
    have facts := timely.factsAt at'
    exact facts
  have clean : Clean state task := by
    intro case row
    exact timely.owned (by simp [at']) (by simp [free]) case row
  apply timely.act task (locked env state task job) (some task) state.results state.runs state.past
    (.inr ⟨free, rfl⟩) (by simp [busy]) (by simp [at']) (fun _ => .inl rfl)
    (fun _ _ held => held) (fun _ _ _ held => .inl ⟨held, rfl⟩)
  cases job with
  | start =>
    simp only [locked]
    split
    · split
      · nofun
      · nofun
    · exact fun _ => .inl ⟨rfl, clean⟩
  | advance =>
    simp only [locked]
    split
    · rename_i open'
      split
      · nofun
      · intro completed
        rw [completed] at open'
        rcases open' with no | no
        · cases no
        · cases no
    · exact fun _ => .inl ⟨rfl, clean⟩
  | cancel => exact absurd rfl other
  | retry =>
    simp only [locked]
    split
    · exact fun _ => .inl ⟨rfl, clean⟩
    · exact ⟨rfl, fun _ => clean⟩

theorem Timely.change (task : TaskId) (phase : Phase Number) (case : CaseId)
    (change : Result Number → Result Number) (next : State Number) {now : Phase Number}
    (at' : state.phases task = now) (busy : onBatch now = true) (stays : onBatch phase = true)
    (good : scored (change (result state task case)) = true →
      FromTerminal env state.runs case (change (result state task case)))
    (facts : ∀ seen clean, Facts env state.batch state.runs seen clean phase)
    (taken : (EvaluationBatch.writeResult state task case change).map
      (fun next => setPhase next task phase) = some next) : Timely env next := by
  subst at'
  apply timely.writeResult task phase case change next (busy.trans stays.symm) _ good
    (.inl ((timely.holder task).mpr busy)) facts taken
  intro scored'
  rw [scored'] at busy
  cases busy

theorem Timely.proceed (task : TaskId) (phase : Phase Number) {now : Phase Number}
    (at' : state.phases task = now) (busy : onBatch now = true) (stays : onBatch phase = true)
    (facts : TaskFacts env state task phase) : Timely env (setPhase state task phase) := by
  apply timely.goOn task phase at' (busy.trans stays.symm) _ facts
  rintro rfl
  cases busy

theorem Timely.sweeping (task : TaskId) (draft : Batch Number)
    (at' : state.phases task = .sweeping draft) :
    Timely env (setPhase state task
      (.rescoring draft (env.cases.filterMap (stale state task)))) := by
  have facts := timely.factsAt at'
  refine timely.proceed task _ at' rfl rfl ?_
  refine ⟨facts, ?_⟩
  intro item member
  rcases mem_filterMap.mp member with ⟨case, _, made⟩
  unfold stale at made
  dsimp only at made
  split at made
  · rename_i chosen
    rw [Bool.and_eq_true] at chosen
    rcases Option.map_eq_some_iff.mp made with ⟨source, mine, rfl⟩
    cases known : sourceStatus state task case with
    | none =>
      rw [known] at chosen
      cases chosen.2
    | some status =>
      rw [known, Option.any_some] at chosen
      rw [sourceStatus, mine, Option.bind_some] at known
      rcases Option.map_eq_some_iff.mp known with ⟨content, read, rfl⟩
      exact ⟨content, timely.holds_read read chosen.2⟩
  · cases made

theorem Timely.counting (task : TaskId) (draft : Batch Number) (assigned : Bool)
    (at' : state.phases task = .countingActive draft assigned)
    (undelayed : Undelayed env state (.perform task)) :
    Timely env (setPhase state task (.counting draft (assigned && env.cases.all fun case =>
      !((sourceStatus state task case).any fun status => status.unfinished)))) := by
  have facts := timely.factsAt at'
  simp only [Undelayed, at'] at undelayed
  refine timely.proceed task _ at' rfl rfl ?_
  refine ⟨facts.1, ?_⟩
  intro settled case member present
  rw [Bool.and_eq_true, all_eq_true] at settled
  have source := facts.2 settled.1 case member present
  have ended := settled.2 case member
  rw [Bool.not_eq_true'] at ended
  exact undelayed case member source ended

omit timely in
theorem rows_all (env : Env Number) (state : State Number) (task : TaskId)
    (all : (rows env state task).length = env.cases.length) :
    (∀ case ∈ env.cases, (result state task case).present = true) ∧
      rows env state task = env.cases.map (result state task) := by
  have whole : rows env state task = env.cases.map (result state task) := by
    apply filter_sublist.eq_of_length
    rw [length_map]
    exact all
  refine ⟨?_, whole⟩
  intro case member
  have inside : result state task case ∈ rows env state task := by
    rw [whole]
    exact mem_map_of_mem member
  exact (mem_filter.mp inside).2

theorem Timely.aggregating (task : TaskId) (draft : Batch Number)
    (at' : state.phases task = .aggregating draft) :
    Timely env (setPhase state task
      (.committing { aggregate env draft (rows env state task) with status := .completed })) := by
  have facts := timely.factsAt at'
  refine timely.proceed task _ at' rfl rfl ?_
  intro _
  right
  refine ⟨facts.2, ?_⟩
  have whole : rows env state task = env.cases.map (result state task) := by
    apply filter_eq_self.mpr
    intro row member
    rcases mem_map.mp member with ⟨case, inside, rfl⟩
    exact (facts.2 case inside).1
  rw [whole]
  exact ⟨rfl, rfl, rfl, rfl, rfl⟩

theorem Timely.committing (task : TaskId) (draft : Batch Number)
    (at' : state.phases task = .committing draft) :
    Timely env (EvaluationBatch.commit env state task draft .ended) := by
  have facts := timely.factsAt at'
  apply timely.commit task .ended draft rfl
  · right
    apply (timely.holder task).mpr
    rw [at']
    rfl
  · exact fun _ _ => trivial
  · intro completed
    rcases facts completed with ⟨same, clean⟩ | complete
    · rw [same] at completed ⊢
      have seen : ∀ case, (state.results case).seen task = (state.results case).committed := by
        intro case
        rcases Version.seen_cases (state.results case) task with ⟨same, _⟩ | mine
        · exact same
        · exact absurd mine (clean case _)
      simpa only [seen] using timely.completed completed
    · exact complete

theorem Timely.perform (task : TaskId) (next : State Number)
    (unmixed : Unmixed state (.perform task)) (undelayed : Undelayed env state (.perform task))
    (taken : EvaluationBatch.perform env state task (state.phases task) = some next) :
    Timely env next := by
  have facts := timely.facts task
  simp only [Unmixed] at unmixed
  cases at' : state.phases task with
  | idle | seeding _ | dispatching _ _ _ | ended => simp [at', EvaluationBatch.perform] at taken
  | retaining _ | keeping _ _ | deleting _ | retained | cancelling _ _ =>
    rw [at'] at facts
    cases facts
  | loading source =>
    rw [at'] at taken
    simp only [EvaluationBatch.perform] at taken
    split at taken
    · cases taken
      exact timely.goOn task _ at' rfl (by simp) trivial
    · rename_i content known
      cases taken
      refine timely.goOn task _ at' rfl (by simp) ?_
      exact fun terminal => ⟨content, timely.holds_read known terminal⟩
  | finding source status =>
    rw [at'] at taken facts
    simp only [EvaluationBatch.perform] at taken
    split at taken
    · cases taken
      exact timely.goOn task _ at' rfl (by simp) trivial
    · split at taken
      · rename_i terminal
        cases taken
        exact timely.goOn task _ at' rfl (by simp) (facts terminal)
      · cases taken
        exact timely.goOn task _ at' rfl (by simp) trivial
  | scoring case source =>
    rw [at'] at taken facts
    simp only [EvaluationBatch.perform] at taken
    split at taken
    · cases taken
      exact timely.rollback task
    · rename_i content known
      cases taken
      exact timely.goOn task _ at' rfl (by simp)
        (timely.done_read facts known)
  | freezing case source content =>
    rw [at'] at taken unmixed
    exact timely.freezing task case source content next at' unmixed taken
  | scored =>
    rw [at'] at taken
    cases taken
    exact timely.commitScore task at'
  | locking job =>
    rw [at'] at taken
    simp only [EvaluationBatch.perform] at taken
    split at taken
    · rename_i free
      cases taken
      exact timely.locking task job at' free
    · cases taken
  | sweeping draft =>
    rw [at'] at taken
    cases taken
    exact timely.sweeping task draft at'
  | rescoring draft todo =>
    rw [at'] at taken facts
    cases todo with
    | nil =>
      cases taken
      exact timely.proceed task _ at' rfl rfl facts.1
    | cons head rest =>
      simp only [EvaluationBatch.perform] at taken
      split at taken
      · cases taken
        exact timely.rollback task
      · rename_i content known
        cases taken
        exact timely.proceed task _ at' rfl rfl
          ⟨facts.1, timely.done_read (facts.2 head mem_cons_self) known,
            fun item member => facts.2 item (mem_cons_of_mem _ member)⟩
  | refreezing draft case source content todo =>
    rw [at'] at taken facts
    exact timely.change task (.rescoring draft todo) case _ next at' rfl rfl
      (fun _ => fromTerminal_freeze facts.2.1 _) (fun _ _ => ⟨facts.1, facts.2.2⟩) taken
  | listing draft job =>
    rw [at'] at taken facts
    cases taken
    exact timely.proceed task _ at' rfl rfl facts
  | countingPending draft =>
    rw [at'] at taken facts
    cases taken
    refine timely.proceed task _ at' rfl rfl ?_
    refine ⟨facts, ?_⟩
    intro assigned case member present
    have waiting := all_eq_true.mp assigned case member
    simpa [pending, present] using waiting
  | countingActive draft assigned =>
    rw [at'] at taken
    cases taken
    exact timely.counting task draft assigned at' undelayed
  | counting draft settled =>
    rw [at'] at taken facts
    simp only [EvaluationBatch.perform] at taken
    split at taken
    · rename_i whole
      rw [Bool.and_eq_true, beq_iff_eq] at whole
      cases taken
      refine timely.proceed task _ at' rfl rfl ?_
      refine ⟨facts.1, ?_⟩
      intro case member
      have present := (rows_all env state task whole.2).1 case member
      exact ⟨present, facts.2 whole.1 case member present⟩
    · cases taken
      exact timely.proceed task _ at' rfl rfl fun completed => absurd completed facts.1
  | aggregating draft =>
    rw [at'] at taken
    cases taken
    exact timely.aggregating task draft at'
  | resetting draft todo retried =>
    rw [at'] at taken facts
    cases todo with
    | nil =>
      cases taken
      refine timely.proceed task _ at' rfl rfl ?_
      cases retried with
      | true => exact fun no => by cases no
      | false => exact fun _ => .inl ⟨facts.1, facts.2 rfl⟩
    | cons case rest =>
      exact timely.change task (.resetting draft rest true) case _ next at' rfl rfl
        (fun no => by cases no) (fun _ _ => ⟨facts.1, fun no => by cases no⟩) taken
  | committing draft =>
    rw [at'] at taken
    cases taken
    exact timely.committing task draft at'

theorem Timely.progress (source : RunId) (content : Content) (next : State Number)
    (undelayed : Undelayed env state (.progress source content))
    (taken : step env state (.progress source content) = some next) : Timely env next := by
  simp only [step] at taken
  split at taken
  · rename_i still
    cases taken
    have grown : Grown state.runs (Function.update state.runs source ⟨some content, none⟩) := by
      intro other value held
      by_cases same : other = source
      · subst same
        have open' := undelayed value held.1
        rw [held.2] at open'
        cases open'
      · exact ⟨(congrArg Version.committed (update_of_ne same _ _)).trans held.1, held.2⟩
    refine ⟨?_, timely.owner, ?_, timely.holder, ?_, timely.completed⟩
    · exact fun case => (timely.fresh case).mono fun _ from' done => (from' done).grown grown
    · intro other task value held
      dsimp only at held ⊢
      by_cases same : other = source
      · rw [same, update_self] at held
        cases held
      · rw [update_of_ne same] at held ⊢
        exact timely.creator other task value held
    · intro task
      exact (timely.facts task).kept grown (fun case _ => Kept.refl _) id
  · cases taken

theorem Timely.seed (task : TaskId) (cases' : List CaseId) (next : State Number)
    (taken : step env state (.seed task cases') = some next) : Timely env next := by
  simp only [step] at taken
  split at taken
  · rename_i draft at'
    split at taken
    · rename_i free
      cases taken
      have facts := timely.factsAt at'
      have mine : state.lock = some task := (timely.holder task).mpr (by rw [at']; rfl)
      apply timely.act task (.listing draft .start) state.lock
        (createResults state task cases').results state.runs state.past (.inl rfl)
      · rw [mine]
        simp [onBatch]
      · simp [at']
      · intro case
        simp only [createResults]
        split
        · rename_i member
          exact .inr ⟨(free case member).2, _, rfl, (timely.fresh case).seen task, .inl mine⟩
        · exact .inl rfl
      · exact fun _ _ held => held
      · exact fun _ _ _ held => .inl ⟨held, rfl⟩
      · exact facts
    · cases taken
  · cases taken

theorem Timely.dispatch (task : TaskId) (source : RunId) (next : State Number)
    (unmixed : Unmixed state (.dispatch task source))
    (taken : step env state (.dispatch task source) = some next) : Timely env next := by
  simp only [step] at taken
  simp only [Unmixed] at unmixed
  split at taken
  · rename_i draft job case todo at'
    rw [at'] at unmixed
    split at taken
    · rename_i new
      unfold writeRun at taken
      split at taken
      · rw [Option.bind_some] at taken
        unfold EvaluationBatch.writeResult at taken
        split at taken
        · rename_i free
          cases taken
          have facts := timely.factsAt at'
          have mine : state.lock = some task := (timely.holder task).mpr (by rw [at']; rfl)
          have grown : Grown state.runs (state.runs.write source task (some created)) := by
            intro other value held
            by_cases same : other = source
            · rw [same] at held
              have none' := new.1
              rw [held.1] at none'
              cases none'
            · exact ⟨(congrArg Version.committed (update_of_ne same _ _)).trans held.1,
                held.2⟩
          apply timely.act task (.dispatching draft job todo) state.lock
            (state.results.write case task (assign source (result state task case)))
            (state.runs.write source task (some created)) _ (.inl rfl)
          · rw [mine]
            simp [onBatch]
          · simp [at']
          · intro other
            by_cases same : other = case
            · subst same
              refine .inr ⟨free, _, update_self .., ?_, .inl mine⟩
              intro done
              have unscored : scored (assign source (result state task other)) = false := unmixed.1
              rw [unscored] at done
              cases done
            · exact .inl (update_of_ne same _ _)
          · exact grown
          · intro other owner value held
            unfold Rows.write at held ⊢
            by_cases same : other = source
            · rw [same, update_self] at held ⊢
              cases held
              exact .inr ⟨rfl, mine, Option.isNone_iff_eq_none.mp new.1, rfl⟩
            · rw [update_of_ne same] at held ⊢
              exact .inl ⟨held, rfl⟩
          · exact facts
        · cases taken
      · cases taken
    · cases taken
  · cases taken

end Steps

theorem timely_step (env : Env Number) (state : State Number) (action : Action)
    (next : State Number) (timely : Timely env state) (orderly : Orderly env state action)
    (taken : step env state action = some next) : Timely env next := by
  cases action with
  | begin task work =>
    have allowed := orderly.2
    simp only [step] at taken
    split at taken
    · rename_i idle
      cases taken
      apply timely.goOn task (opening work) idle
      · cases work <;> rfl
      · simp
      · cases work with
        | finalize source => trivial
        | retain runs => cases allowed
        | batch job =>
          rintro rfl
          cases allowed
    · cases taken
  | progress source content => exact timely.progress source content next orderly.2 taken
  | perform task => exact timely.perform task next orderly.1 orderly.2 taken
  | seed task cases' => exact timely.seed task cases' next taken
  | dispatch task source => exact timely.dispatch task source next orderly.1 taken
  | fail task error =>
    simp only [step] at taken
    split at taken
    · rename_i draft job case todo at'
      have facts := timely.factsAt at'
      exact timely.change task (.dispatching draft job todo) case _ next at' rfl rfl
        ((timely.fresh case).seen task) (fun _ _ => facts) taken
    · cases taken
  | full task =>
    simp only [step] at taken
    split at taken
    · rename_i draft job _ at'
      cases taken
      have facts := timely.factsAt at'
      apply timely.proceed task (dispatched draft job) at' rfl
      · cases job <;> rfl
      · cases job with
        | start => exact fun completed => absurd completed facts
        | _ => exact facts
    · cases taken
  | abort task =>
    simp only [step] at taken
    split at taken
    · cases taken
      exact timely.rollback task
    · cases taken

/-- In every run whose completions do not overlook a run that has just ended, a completed
batch has the scores of its terminal runs, and the counters of its results. -/
theorem completed_settled (env : Env Number) (actions : List Action) (state : State Number)
    (run : Steps (step env) (Orderly env) start actions state)
    (completed : state.batch.status = .completed) : Settled env state := by
  have timely := run.invariant (Timely env) (timely_step env) (timely_start env)
  rcases timely.completed completed with ⟨done, totals⟩
  refine ⟨?_, totals⟩
  intro case member
  exact ⟨(done case member).1, (timely.fresh case).1 (done case member).2⟩

instance (env : Env Number) (state : State Number) (action : Action) :
    Decidable (Undelayed env state action) :=
  match action with
  | .perform task =>
    match phase : state.phases task with
    | .countingActive _ _ =>
      if done : ∀ case ∈ env.cases, (result state task case).sourceRun.isSome = true →
          (sourceStatus state task case).any (fun status => status.unfinished) = false →
            scored (result state task case) = true then
        .isTrue (by simpa only [Undelayed, phase] using done)
      else .isFalse (by simpa only [Undelayed, phase] using done)
    | .idle | .loading _ | .finding _ _ | .scoring _ _ | .freezing _ _ _ | .scored | .locking _
    | .seeding _ | .sweeping _ | .rescoring _ _ | .refreezing _ _ _ _ _ | .listing _ _
    | .dispatching _ _ _ | .countingPending _ | .counting _ _ | .aggregating _
    | .resetting _ _ _ | .cancelling _ _ | .committing _ | .retaining _ | .keeping _ _
    | .deleting _ | .retained | .ended => .isTrue (by simp only [Undelayed, phase])
  | .progress source _ =>
    inferInstanceAs (Decidable (∀ held ∈ (state.runs source).committed,
      held.status.terminal = false))
  | .begin _ (.batch .cancel) | .begin _ (.retain _) => .isFalse id
  | .begin _ (.finalize _) | .begin _ (.batch .start) | .begin _ (.batch .advance)
  | .begin _ (.batch .retry) | .seed _ _ | .dispatch _ _ | .fail _ _ | .full _ | .abort _ =>
    .isTrue trivial

instance (env : Env Number) (state : State Number) (action : Action) :
    Decidable (Orderly env state action) :=
  inferInstanceAs (Decidable (Unmixed state action ∧ Undelayed env state action))

/-- The run is scored by its own task, which then completes the batch. -/
def completedInTurn : List Action :=
  answered ++ [.begin 1 (.finalize 10)] ++ performs 1 9 ++ [.full 1] ++ performs 1 5

theorem completed_settled_in_turn : ∃ state,
    Steps (step oneCase) (Orderly oneCase) start completedInTurn state ∧
      state.batch.status = .completed ∧ Settled oneCase state := by
  have run : (execGuarded (step oneCase) (Orderly oneCase) start completedInTurn).map
      (fun state => state.batch.status) = some .completed := by
    decide +kernel
  rcases Option.map_eq_some_iff.mp run with ⟨state, executed, completed⟩
  have steps := execGuarded_steps executed
  exact ⟨state, steps, completed, completed_settled oneCase completedInTurn state steps completed⟩

/-- The run ends after the stale results were read and before the active ones are counted. -/
def endedBetween : List Action :=
  [.begin 0 (.batch .start), .perform 0, .seed 0 [1], .perform 0, .dispatch 0 10, .full 0,
    .perform 0, .begin 2 (.batch .advance)] ++ performs 2 4 ++
    [.progress 10 (answer "right"), .full 2] ++ performs 2 5

theorem ended_between_unscored : ∃ state, Steps (step oneCase) Any start endedBetween state ∧
    state.batch.status = .completed ∧ ¬Settled oneCase state := by
  have run : (exec (step oneCase) start endedBetween).map (fun state =>
      (state.batch.status, scored (state.results 1).committed)) = some (.completed, false) := by
    decide +kernel
  rcases Option.map_eq_some_iff.mp run with ⟨state, executed, seen⟩
  refine ⟨state, exec_steps executed, congrArg Prod.fst seen, ?_⟩
  intro settled
  rcases (settled.results 1 (by decide)).2 with ⟨source, content, _, _, _, scores, _⟩
  have done := scored_assess oneCase 1 content _ scores
  have unscored : scored (state.results 1).committed = false := congrArg Prod.snd seen
  rw [unscored] at done
  cases done

end SourceLens.EvaluationBatch
