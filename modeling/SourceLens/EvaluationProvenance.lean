import SourceLens.EvaluationBatch

/-! Where the scores of a result come from, over whole runs of the tasks of a batch. -/

namespace SourceLens.EvaluationBatch

open EvaluationScoring ReadCommitted Transition List

variable {Number : Type}

/-- The run a result was dispatched with since its last reset, and whether it was scored
since then; no value where a dispatch or a scoring was out of place. -/
def replay : Option (Option RunId × Bool) → Event → Option (Option RunId × Bool)
  | none, _ => none
  | some (_, done), .dispatched run => if done then none else some (some run, false)
  | some (current, _), .scored run => if current = some run then some (current, true) else none
  | some _, .reset => some (none, false)

def replayed (history : List Event) : Option (Option RunId × Bool) :=
  history.foldl replay (some (none, false))

/-- A scored result is dispatched again after a reset only, and scored from its last run only. -/
def Lawful (history : List Event) : Prop := (replayed history).isSome = true

structure Faithful (env : Env Number) (past : List (RunId × Content)) (case : CaseId)
    (result : Result Number) : Prop where
  scores : scored result = false ∧ result.passed = none ∧ result.issues = [] ∨
    ∃ source content, result.sourceRunUuid = some source ∧ (source, content) ∈ past ∧
      result.scores = (env.assess case content).scores ∧
      result.passed = (env.assess case content).passed ∧
      result.issues = (env.assess case content).issues
  output : result.output = "" ∨
    ∃ source content, result.sourceRunUuid = some source ∧ (source, content) ∈ past ∧
      result.output = content.output
  lawful : Lawful result.history

/-- A score, and a snapshot kept for retention, is written to the result of the run it was
computed from, and a run is given to a blank result only. -/
def Unmixed (state : State Number) : Action → Prop
  | .perform task =>
    match state.phases task with
    | .freezing case source _ | .refreezing _ case source _ _
    | .keeping _ ((case, source, _, _) :: _) => (result state task case).sourceRun = some source
    | _ => True
  | .dispatch task _ =>
    match state.phases task with
    | .dispatching _ _ (case :: _) =>
      scored (result state task case) = false ∧ (result state task case).output = ""
    | _ => True
  | _ => True

structure Good (env : Env Number) (past : List (RunId × Content)) (case : CaseId)
    (result : Result Number) : Prop where
  faithful : Faithful env past case result
  history : ∃ current, replayed result.history = some (current, scored result) ∧
    ∀ source, result.sourceRun = some source → current = some source
  named : ∀ source, result.sourceRun = some source → result.sourceRunUuid = some source

theorem replayed_append (history : List Event) (event : Event) :
    replayed (history ++ [event]) = replay (replayed history) event := by
  simp [replayed]

theorem lawful_of_replayed {history : List Event} {reached : Option RunId × Bool}
    (known : replayed history = some reached) : Lawful history := by
  rw [Lawful, known]
  rfl

theorem good_absent (env : Env Number) (past : List (RunId × Content)) (case : CaseId) :
    Good env past case absent where
  faithful := ⟨Or.inl ⟨rfl, rfl, rfl⟩, Or.inl rfl, rfl⟩
  history := ⟨none, rfl, nofun⟩
  named := nofun

theorem scored_assess (env : Env Number) (case : CaseId) (content : Content)
    (result : Result Number) (same : result.scores = (env.assess case content).scores) :
    scored result = true := by
  have some' := evaluateCaseResult_scored env.arithmetic env.metrics (env.outcome case content)
    (env.correctness case content)
  rw [scored, same]
  simpa [Env.assess] using some'

section Writes

variable {env : Env Number} {past : List (RunId × Content)} {case : CaseId}
  {result : Result Number}

theorem Good.mono {more : List (RunId × Content)} (good : Good env past case result)
    (grows : ∀ pair ∈ past, pair ∈ more) : Good env more case result := by
  refine ⟨⟨?_, ?_, good.faithful.lawful⟩, good.history, good.named⟩
  · rcases good.faithful.scores with blank | ⟨source, content, uuid, held, rest⟩
    · exact Or.inl blank
    · exact Or.inr ⟨source, content, uuid, grows _ held, rest⟩
  · rcases good.faithful.output with blank | ⟨source, content, uuid, held, rest⟩
    · exact Or.inl blank
    · exact Or.inr ⟨source, content, uuid, grows _ held, rest⟩

theorem good_freeze (source : RunId) (content : Content) (good : Good env past case result)
    (mine : result.sourceRun = some source) (held : (source, content) ∈ past) :
    Good env past case (freeze env case source content result) := by
  rcases good.history with ⟨current, known, owner⟩
  have last : replayed (freeze env case source content result).history =
      some (current, scored (freeze env case source content result)) := by
    rw [scored_assess env case content (freeze env case source content result) rfl]
    simp only [freeze, replayed_append, known, replay, owner source mine, if_true]
  refine ⟨⟨?_, ?_, lawful_of_replayed last⟩, ⟨current, last, ?_⟩, ?_⟩
  · exact Or.inr ⟨source, content, rfl, held, rfl, rfl, rfl⟩
  · exact Or.inr ⟨source, content, rfl, held, rfl⟩
  · intro other same
    cases same
    exact owner source mine
  · exact fun _ same => same

theorem good_assign (source : RunId) (good : Good env past case result)
    (unscored : scored result = false) (blank : result.output = "") :
    Good env past case (assign source result) := by
  rcases good.history with ⟨current, known, _⟩
  rw [unscored] at known
  have last : replayed (assign source result).history =
      some (some source, scored (assign source result)) := by
    have same : scored (assign source result) = false := unscored
    rw [same]
    simp only [assign, replayed_append, known, replay, Bool.false_eq_true, if_false]
  refine ⟨⟨?_, Or.inl blank, lawful_of_replayed last⟩, ⟨some source, last, fun _ same => same⟩,
    fun _ same => same⟩
  rcases good.faithful.scores with ⟨none', verdict, issues⟩ | ⟨other, content, _, _, same, _⟩
  · exact Or.inl ⟨none', verdict, issues⟩
  · rw [scored_assess env case content result same] at unscored
    cases unscored

theorem good_reset (good : Good env past case result) : Good env past case (reset result) := by
  rcases good.history with ⟨current, known, _⟩
  have last : replayed (reset result).history = some (none, scored (reset result)) := by
    have blank : scored (reset result) = false := rfl
    rw [blank]
    simp only [reset, replayed_append, known, replay]
  exact ⟨⟨Or.inl ⟨rfl, rfl, rfl⟩, Or.inl rfl, lawful_of_replayed last⟩,
    ⟨none, last, nofun⟩, nofun⟩

theorem good_keep (source : RunId) (content : Content) (read : Result Number)
    (good : Good env past case result) (mine : result.sourceRun = some source)
    (held : (source, content) ∈ past) (before : Good env past case read)
    (readMine : read.sourceRun = some source) :
    Good env past case (keep source content read result) := by
  have uuid : (keep source content read result).sourceRunUuid = some source := by
    simp only [keep, before.named source readMine, Option.getD_some]
  have same := good.named source mine
  refine ⟨⟨?_, ?_, good.faithful.lawful⟩, good.history, ?_⟩
  · rcases good.faithful.scores with blank | ⟨other, value, known, rest⟩
    · exact Or.inl blank
    · rw [same] at known
      cases known
      exact Or.inr ⟨source, value, uuid, rest⟩
  · rcases before.faithful.output with blank | ⟨other, value, known, seen, output⟩
    · refine Or.inr ⟨source, content, uuid, held, ?_⟩
      simp only [keep, blank, if_true]
    · rw [before.named source readMine] at known
      cases known
      by_cases blank : read.output = ""
      · refine Or.inr ⟨source, content, uuid, held, ?_⟩
        simp only [keep, blank, if_true]
      · refine Or.inr ⟨source, value, uuid, seen, ?_⟩
        dsimp only [keep]
        rw [if_neg blank, output]
  · intro other held'
    rw [uuid]
    exact (mine.symm.trans held')

theorem good_detach (good : Good env past case result) :
    Good env past case { result with sourceRun := none } := by
  rcases good.history with ⟨current, known, _⟩
  exact ⟨⟨good.faithful.scores, good.faithful.output, good.faithful.lawful⟩,
    ⟨current, known, nofun⟩, nofun⟩

theorem good_error (error : String) (good : Good env past case result) :
    Good env past case { result with error := error } :=
  ⟨⟨good.faithful.scores, good.faithful.output, good.faithful.lawful⟩, good.history, good.named⟩

theorem good_present (good : Good env past case result) :
    Good env past case { result with present := true } :=
  ⟨⟨good.faithful.scores, good.faithful.output, good.faithful.lawful⟩, good.history, good.named⟩

end Writes

def Read (env : Env Number) (past : List (RunId × Content)) : Phase Number → Prop
  | .freezing _ source content | .refreezing _ _ source content _ => (source, content) ∈ past
  | .keeping _ todo => ∀ item ∈ todo, (item.2.1, item.2.2.1) ∈ past ∧
      item.2.2.2.sourceRun = some item.2.1 ∧ Good env past item.1 item.2.2.2
  | _ => True

structure Inv (env : Env Number) (state : State Number) : Prop where
  results : state.results.All (Good env state.past)
  runs : state.runs.All fun source content => ∀ held, content = some held → (source, held) ∈ state.past
  read : ∀ task, Read env state.past (state.phases task)

theorem inv_start (env : Env Number) : Inv env (start : State Number) where
  results case := ⟨good_absent env [] case, nofun⟩
  runs _ := ⟨nofun, nofun⟩
  read _ := trivial

theorem Read.mono {env : Env Number} {past more : List (RunId × Content)} {phase : Phase Number}
    (read : Read env past phase) (grows : ∀ pair ∈ past, pair ∈ more) : Read env more phase := by
  cases phase with
  | freezing case source content => exact grows _ read
  | refreezing draft case source content todo => exact grows _ read
  | keeping runs todo =>
    intro item member
    rcases read item member with ⟨held, mine, good⟩
    exact ⟨grows _ held, mine, good.mono grows⟩
  | _ => trivial

variable (task : TaskId)

section Steps

variable {env : Env Number} {state : State Number} (inv : Inv env state)
include inv

theorem Inv.next (phase : Phase Number) (next : State Number)
    (grows : ∀ pair ∈ state.past, pair ∈ next.past)
    (results : next.results.All (Good env next.past))
    (runs : next.runs.All fun source content =>
      ∀ held, content = some held → (source, held) ∈ next.past)
    (read : Read env next.past phase)
    (phases : next.phases = Function.update state.phases task phase) : Inv env next := by
  refine ⟨results, runs, ?_⟩
  intro other
  rw [phases]
  by_cases same : other = task
  · rw [same, Function.update_self]
    exact read
  · rw [Function.update_of_ne same]
    exact (inv.read other).mono grows

theorem Inv.goOn (phase : Phase Number) (lock : Option TaskId)
    (read : Read env state.past phase) :
    Inv env { setPhase state task phase with lock := lock } :=
  inv.next task phase _ (fun _ member => member) inv.results inv.runs read rfl

theorem Inv.rollback : Inv env (rollback state task) :=
  inv.next task .ended _ (fun _ member => member) (inv.results.rollback task)
    (inv.runs.rollback task) trivial rfl

theorem Inv.commit (batch : Batch Number) (phase : Phase Number)
    (read : Read env state.past phase) : Inv env (commit env state task batch phase) := by
  unfold EvaluationBatch.commit
  dsimp only
  split
  · exact inv.next task phase _ (fun _ member => member) (inv.results.commit task)
      (inv.runs.commit task) read rfl
  · exact inv.rollback task

theorem Inv.good (case : CaseId) :
    Good env state.past case (result state task case) := (inv.results case).seen task

theorem Inv.held {task : TaskId} {source : RunId} {content : Content}
    (known : run state task source = some content) : (source, content) ∈ state.past :=
  (inv.runs source).seen task content known

theorem Inv.writeResult (case : CaseId) (change : Result Number → Result Number)
    (phase : Phase Number) (next : State Number)
    (good : Good env state.past case (change (result state task case)))
    (read : Read env state.past phase)
    (taken : (writeResult state task case change).map (fun next => setPhase next task phase) =
      some next) : Inv env next := by
  unfold EvaluationBatch.writeResult at taken
  split at taken
  · cases taken
    exact inv.next task phase _ (fun _ member => member) (inv.results.write task good) inv.runs read
      rfl
  · cases taken

end Steps

theorem inv_perform (env : Env Number) (state : State Number) (task : TaskId)
    (next : State Number) (inv : Inv env state)
    (unmixed : Unmixed state (.perform task))
    (taken : step env state (.perform task) = some next) : Inv env next := by
  simp only [step] at taken
  simp only [Unmixed] at unmixed
  have read := inv.read task
  cases phase : state.phases task with
  | idle => simp [phase, perform] at taken
  | seeding draft => simp [phase, perform] at taken
  | dispatching draft job todo => simp [phase, perform] at taken
  | ended => simp [phase, perform] at taken
  | loading source =>
    rw [phase] at taken
    simp only [perform] at taken
    split at taken
    · cases taken
      exact inv.goOn task _ state.lock trivial
    · cases taken
      exact inv.goOn task _ state.lock trivial
  | finding source status =>
    rw [phase] at taken
    simp only [perform] at taken
    split at taken
    · cases taken
      exact inv.goOn task _ state.lock trivial
    · split at taken
      · cases taken
        exact inv.goOn task _ state.lock trivial
      · cases taken
        exact inv.goOn task _ state.lock trivial
  | scoring case source =>
    rw [phase] at taken
    simp only [perform] at taken
    split at taken
    · cases taken
      exact inv.rollback task
    · rename_i content known
      cases taken
      exact inv.goOn task _ state.lock (inv.held known)
  | freezing case source content =>
    rw [phase] at taken read unmixed
    exact inv.writeResult task case _ .scored next
      (good_freeze source content (inv.good task case) unmixed read) trivial taken
  | scored =>
    rw [phase] at taken
    cases taken
    exact inv.commit task state.batch _ trivial
  | locking job =>
    rw [phase] at taken
    simp only [perform] at taken
    split at taken
    · cases taken
      apply inv.goOn task _ (some task)
      unfold locked
      cases job <;> dsimp only <;> split <;> (try split) <;> trivial
    · cases taken
  | sweeping draft =>
    rw [phase] at taken
    cases taken
    exact inv.goOn task _ state.lock trivial
  | rescoring draft todo =>
    rw [phase] at taken
    cases todo with
    | nil =>
      cases taken
      exact inv.goOn task _ state.lock trivial
    | cons head rest =>
      simp only [perform] at taken
      split at taken
      · cases taken
        exact inv.rollback task
      · rename_i content known
        cases taken
        exact inv.goOn task _ state.lock (inv.held known)
  | refreezing draft case source content todo =>
    rw [phase] at taken read unmixed
    exact inv.writeResult task case _ (.rescoring draft todo) next
      (good_freeze source content (inv.good task case) unmixed read) trivial taken
  | listing draft job =>
    rw [phase] at taken
    cases taken
    exact inv.goOn task _ state.lock trivial
  | countingPending draft =>
    rw [phase] at taken
    cases taken
    exact inv.goOn task _ state.lock trivial
  | countingActive draft assigned =>
    rw [phase] at taken
    cases taken
    exact inv.goOn task _ state.lock trivial
  | counting draft settled =>
    rw [phase] at taken
    simp only [perform] at taken
    split at taken
    · cases taken
      exact inv.goOn task _ state.lock trivial
    · cases taken
      exact inv.goOn task _ state.lock trivial
  | aggregating draft =>
    rw [phase] at taken
    cases taken
    exact inv.goOn task _ state.lock trivial
  | resetting draft todo retried =>
    rw [phase] at taken
    cases todo with
    | nil =>
      cases taken
      exact inv.goOn task _ state.lock trivial
    | cons case rest =>
      exact inv.writeResult task case _ (.resetting draft rest true) next
        (good_reset (inv.good task case)) trivial taken
  | cancelling draft todo =>
    rw [phase] at taken
    cases todo with
    | nil =>
      cases taken
      exact inv.goOn task _ state.lock trivial
    | cons source rest =>
      simp only [perform] at taken
      split at taken
      · cases taken
        exact inv.rollback task
      · rename_i content _
        unfold writeRun at taken
        split at taken
        · cases taken
          have grows : ∀ pair ∈ state.past, pair ∈ state.past ++ [(source, cancelled content)] :=
            fun _ member => mem_append_left _ member
          apply inv.next task (.cancelling draft rest) (setPhase
            { state with
              runs := state.runs.write source task (some (cancelled content))
              past := state.past ++ [(source, cancelled content)] }
            task (.cancelling draft rest)) grows
          · exact fun case => (inv.results case).mono fun _ good => good.mono grows
          · apply ReadCommitted.Rows.All.write
            · exact fun other => (inv.runs other).mono fun _ known held same =>
                grows _ (known held same)
            · intro held same
              cases same
              exact mem_append_right _ mem_cons_self
          · trivial
          · rfl
        · cases taken
  | committing draft =>
    rw [phase] at taken
    cases taken
    exact inv.commit task draft _ trivial
  | retaining runs =>
    rw [phase] at taken
    cases taken
    apply inv.goOn task _ state.lock
    intro item member
    rcases mem_filterMap.mp member with ⟨case, _, made⟩
    rcases Option.bind_eq_some_iff.mp made with ⟨source, mine, made⟩
    split at made
    · rcases Option.map_eq_some_iff.mp made with ⟨content, known, rfl⟩
      exact ⟨inv.held known, mine, inv.good task case⟩
    · cases made
  | keeping runs todo =>
    rw [phase] at taken read unmixed
    cases todo with
    | nil =>
      cases taken
      exact inv.goOn task _ state.lock trivial
    | cons head rest =>
      rcases head with ⟨case, source, content, before⟩
      rcases read _ mem_cons_self with ⟨held, mine, good⟩
      exact inv.writeResult task case _ (.keeping runs rest) next
        (good_keep source content before (inv.good task case) unmixed held good mine)
        (fun item member => read item (mem_cons_of_mem _ member)) taken
  | deleting runs =>
    rw [phase] at taken
    simp only [perform] at taken
    split at taken
    · cases taken
      apply inv.next task .retained (deleteRuns env state task runs) (fun _ member => member) _ _
        trivial rfl
      · intro case
        dsimp only [deleteRuns]
        split
        · exact (inv.results case).write (good_detach (inv.good task case))
        · exact inv.results case
      · intro source
        dsimp only [deleteRuns]
        split
        · exact (inv.runs source).write nofun
        · exact inv.runs source
    · cases taken
  | retained =>
    rw [phase] at taken
    cases taken
    exact inv.commit task state.batch _ trivial

theorem inv_progress (env : Env Number) (state : State Number) (source : RunId)
    (content : Content) (next : State Number) (inv : Inv env state)
    (taken : step env state (.progress source content) = some next) : Inv env next := by
  simp only [step] at taken
  split at taken
  · cases taken
    have grows : ∀ pair ∈ state.past, pair ∈ state.past ++ [(source, content)] :=
      fun _ member => mem_append_left _ member
    refine ⟨fun case => (inv.results case).mono fun _ good => good.mono grows, ?_,
      fun task => (inv.read task).mono grows⟩
    intro other
    dsimp only
    by_cases same : other = source
    · subst same
      rw [Function.update_self]
      refine ⟨?_, nofun⟩
      intro held known
      cases known
      exact mem_append_right _ mem_cons_self
    · rw [Function.update_of_ne same]
      exact (inv.runs other).mono fun _ known held same => grows _ (known held same)
  · cases taken

theorem inv_seed (env : Env Number) (state : State Number) (task : TaskId) (cases' : List CaseId)
    (next : State Number) (inv : Inv env state)
    (taken : step env state (.seed task cases') = some next) : Inv env next := by
  simp only [step] at taken
  split at taken
  · rename_i draft _
    split at taken
    · cases taken
      apply inv.next task (.listing draft .start)
        (setPhase (createResults state task cases') task (.listing draft .start))
        (fun _ member => member) _ inv.runs trivial rfl
      intro case
      dsimp only [setPhase, createResults]
      split
      · exact (inv.results case).write (good_present (inv.good task case))
      · exact inv.results case
    · cases taken
  · cases taken

theorem inv_dispatch (env : Env Number) (state : State Number) (task : TaskId) (source : RunId)
    (next : State Number) (inv : Inv env state) (unmixed : Unmixed state (.dispatch task source))
    (taken : step env state (.dispatch task source) = some next) : Inv env next := by
  simp only [step] at taken
  simp only [Unmixed] at unmixed
  split at taken
  · rename_i draft job case todo phase
    rw [phase] at unmixed
    split at taken
    · unfold writeRun at taken
      split at taken
      · rw [Option.bind_some] at taken
        unfold writeResult at taken
        split at taken
        · cases taken
          have grows : ∀ pair ∈ state.past, pair ∈ state.past ++ [(source, created)] :=
            fun _ member => mem_append_left _ member
          apply inv.next task (.dispatching draft job todo) _ grows
          · intro other
            apply Rows.All.write
            · exact fun case => (inv.results case).mono fun _ good => good.mono grows
            · exact good_assign source ((inv.good task case).mono grows) unmixed.1 unmixed.2
          · apply Rows.All.write
            · exact fun other => (inv.runs other).mono fun _ known held same =>
                grows _ (known held same)
            · intro held same
              cases same
              exact mem_append_right _ mem_cons_self
          · trivial
          · rfl
        · cases taken
      · cases taken
    · cases taken
  · cases taken

theorem inv_step (env : Env Number) (state : State Number) (action : Action)
    (next : State Number) (inv : Inv env state) (unmixed : Unmixed state action)
    (taken : step env state action = some next) : Inv env next := by
  cases action with
  | begin task work =>
    simp only [step] at taken
    split at taken
    · cases taken
      apply inv.goOn task (opening work) state.lock
      cases work <;> trivial
    · cases taken
  | progress source content => exact inv_progress env state source content next inv taken
  | perform task => exact inv_perform env state task next inv unmixed taken
  | seed task cases' => exact inv_seed env state task cases' next inv taken
  | dispatch task source => exact inv_dispatch env state task source next inv unmixed taken
  | fail task error =>
    simp only [step] at taken
    split at taken
    · rename_i draft job case todo _
      exact inv.writeResult task case _ (.dispatching draft job todo) next
        (good_error error (inv.good task case)) trivial taken
    · cases taken
  | full task =>
    simp only [step] at taken
    split at taken
    · rename_i draft job _ _
      cases taken
      apply inv.goOn task (dispatched draft job) state.lock
      cases job <;> trivial
    · cases taken
  | abort task =>
    simp only [step] at taken
    split at taken
    · cases taken
      exact inv.rollback task
    · cases taken

/-- In every run in which a score, a kept snapshot and a new run each meet the result they
were meant for, every result is faithful to the run it names. -/
theorem results_faithful (env : Env Number) (actions : List Action) (state : State Number)
    (run : Steps (step env) Unmixed start actions state) (case : CaseId) :
    Faithful env state.past case (state.results case).committed := by
  have inv := run.invariant (Inv env) (inv_step env) (inv_start env)
  exact (inv.results case).1.faithful

instance (state : State Number) (action : Action) : Decidable (Unmixed state action) :=
  match action with
  | .perform task =>
    match phase : state.phases task with
    | .freezing case source _ | .refreezing _ case source _ _
    | .keeping _ ((case, source, _, _) :: _) =>
      if mine : (result state task case).sourceRun = some source then
        .isTrue (by simpa only [Unmixed, phase] using mine)
      else .isFalse (by simpa only [Unmixed, phase] using mine)
    | .idle | .loading _ | .finding _ _ | .scoring _ _ | .scored | .locking _ | .seeding _
    | .sweeping _ | .rescoring _ _ | .listing _ _ | .dispatching _ _ _ | .countingPending _
    | .countingActive _ _ | .counting _ _ | .aggregating _ | .resetting _ _ _ | .cancelling _ _
    | .committing _ | .retaining _ | .keeping _ [] | .deleting _ | .retained | .ended =>
      .isTrue (by simp only [Unmixed, phase])
  | .dispatch task _ =>
    match phase : state.phases task with
    | .dispatching _ _ (case :: _) =>
      if blank : scored (result state task case) = false ∧
          (result state task case).output = "" then
        .isTrue (by simpa only [Unmixed, phase] using blank)
      else .isFalse (by simpa only [Unmixed, phase] using blank)
    | .idle | .loading _ | .finding _ _ | .scoring _ _ | .freezing _ _ _ | .scored | .locking _
    | .seeding _ | .sweeping _ | .rescoring _ _ | .refreezing _ _ _ _ _ | .listing _ _
    | .dispatching _ _ [] | .countingPending _ | .countingActive _ _ | .counting _ _
    | .aggregating _ | .resetting _ _ _ | .cancelling _ _ | .committing _ | .retaining _
    | .keeping _ _ | .deleting _ | .retained | .ended =>
      .isTrue (by simp only [Unmixed, phase])
  | .begin _ _ | .progress _ _ | .seed _ _ | .fail _ _ | .full _ | .abort _ => .isTrue trivial

def oneCase : Env Nat where
  cases := [1]
  arithmetic :=
    { ofNat := id, add := (· + ·), mul := (· * ·), div := (· / ·), round := id,
      positive := fun number => decide (0 < number), atLeast := fun left right => decide (right ≤ left) }
  metrics := []
  outcome _ _ _ := ⟨none, none, .null⟩
  correctness _ content := some (content.output == "right")

def answer (output : String) : Content where
  status := .done
  error := ""
  output := output
  record := .null

def performs (task : TaskId) (statements : Nat) : List Action :=
  List.replicate statements (.perform task)

def answered : List Action :=
  [.begin 0 (.batch .start), .perform 0, .seed 0 [1], .perform 0, .dispatch 0 10, .full 0, .perform 0,
    .progress 10 (answer "wrong")]

/-- The run is scored, the batch completes, and the case is reset and gets another run. -/
def retriedInTurn : List Action :=
  answered ++ [.begin 1 (.finalize 10)] ++ performs 1 9 ++ [.full 1] ++ performs 1 5 ++
    [.begin 2 (.batch .retry)] ++ performs 2 4 ++ [.begin 3 (.batch .advance)] ++ performs 3 4 ++
    [.dispatch 3 12, .full 3] ++ performs 3 4

theorem results_faithful_retried : ∃ state,
    Steps (step oneCase) Unmixed start retriedInTurn state ∧
      Faithful oneCase state.past 1 (state.results 1).committed ∧
      (state.results 1).committed.history =
        [.dispatched 10, .scored 10, .reset, .dispatched 12] := by
  have run : (execGuarded (step oneCase) Unmixed start retriedInTurn).map (fun state =>
      (state.results 1).committed.history) =
        some [.dispatched 10, .scored 10, .reset, .dispatched 12] := by
    decide +kernel
  rcases Option.map_eq_some_iff.mp run with ⟨state, executed, seen⟩
  have steps := execGuarded_steps executed
  exact ⟨state, steps, results_faithful oneCase retriedInTurn state steps 1, seen⟩

/-- The task of run 10 has found the result; before it scores it, the batch completes and the
case is reset. -/
def scoredLate : List Action :=
  answered ++ [.begin 1 (.finalize 10)] ++ performs 1 2 ++ [.begin 2 (.batch .advance)] ++
    performs 2 6 ++ [.full 2] ++ performs 2 5 ++ [.begin 3 (.batch .retry)] ++ performs 3 4 ++
    performs 1 3

theorem reset_result_scored_late : ∃ state, Steps (step oneCase) Any start scoredLate state ∧
    ¬Faithful oneCase state.past 1 (state.results 1).committed := by
  have run : (exec (step oneCase) start scoredLate).map (fun state =>
      (state.results 1).committed.history) =
        some [.dispatched 10, .scored 10, .reset, .scored 10] := by
    decide +kernel
  rcases Option.map_eq_some_iff.mp run with ⟨state, executed, seen⟩
  refine ⟨state, exec_steps executed, ?_⟩
  intro faithful
  have lawful := faithful.lawful
  rw [seen] at lawful
  cases lawful

end SourceLens.EvaluationBatch
