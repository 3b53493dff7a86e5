import SourceLens.EvaluationDispatch

/-! A node is never given more runs than its limit: its row is locked from the count to the
commit. In an orderly run a result names one run between two resets. -/

namespace SourceLens.EvaluationDispatch

open List
open EvaluationBatch (BatchStatus CaseId RunId TaskId)
open ReadCommitted Transition

variable {env : Env} {state next : State} {task other : TaskId} {phase : Phase} {node : NodeId}
  {batch : BatchId} {case : CaseId}

variable {later : Phase} {visit : Visit}

namespace Phase

def batch? : Phase → Option BatchId
  | .sweeping batch | .rescoring batch _ | .resetting batch _ _ | .committing batch _ => some batch
  | .resolving visit | .lockingNode visit _ | .counting visit _ | .listing visit _ _
  | .dispatching visit _ _ _ | .settling visit => some visit.batch
  | _ => none

def node? : Phase → Option NodeId
  | .counting _ node | .listing _ node _ | .dispatching _ node _ _ => some node
  | _ => none

def remaining : Phase → Nat
  | .listing _ _ remaining | .dispatching _ _ remaining _ => remaining
  | _ => 0

def todo : Phase → List CaseId
  | .dispatching _ _ _ todo => todo
  | _ => []

end Phase

/-- The unfinished runs of a node, also those that are not committed. -/
def occupied (runs : List Run) (node : NodeId) : Nat :=
  runs.countP fun run => run.node = node && run.status.unfinished

def Result.Good (result : Result) : Prop := result.named = result.sourceRun.toList

structure Fits (state : State) (task : TaskId) (phase : Phase) : Prop where
  batch : ∀ batch ∈ phase.batch?, (state.batches batch).lock = some task
  node : ∀ node ∈ phase.node?, state.nodeLocks node = some task
  reserved : ∀ node ∈ phase.node?,
    occupied state.runs node + phase.remaining ≤ (state.nodes node).limit
  distinct : phase.todo.Nodup
  pending : ∀ batch ∈ phase.batch?, ∀ case ∈ phase.todo,
    (result state task batch case).sourceRun = none

structure Sound (state : State) : Prop where
  tasks : ∀ task, Fits state task (state.phases task)
  writers : ∀ run ∈ state.runs, ∀ task, run.writer = some task →
    state.nodeLocks run.node = some task
  capacity : ∀ node, occupied state.runs node ≤ (state.nodes node).limit
  rows : state.results.All fun _ => Result.Good
  pending : ∀ batch case task row, (state.results (batch, case)).pending = some (task, row) →
    (state.batches batch).lock = some task ∨
      row.sourceRun = (state.results (batch, case)).committed.sourceRun

structure Keeps (before after : State) (task : TaskId) : Prop where
  batch : ∀ batch, (before.batches batch).lock = some task → (after.batches batch).lock = some task
  node : ∀ node, before.nodeLocks node = some task → after.nodeLocks node = some task
  occupied : ∀ node, before.nodeLocks node = some task →
    occupied after.runs node ≤ occupied before.runs node
  limit : ∀ node, before.nodeLocks node = some task →
    (before.nodes node).limit ≤ (after.nodes node).limit
  result : ∀ batch case, (before.batches batch).lock = some task →
    (result after task batch case).sourceRun = (result before task batch case).sourceRun

theorem Fits.keep (fits : Fits state task phase) (keeps : Keeps state next task) :
    Fits next task phase where
  batch := fun batch is => keeps.batch batch (fits.batch batch is)
  node := fun node is => keeps.node node (fits.node node is)
  reserved := by
    intro node is
    have held := fits.node node is
    have bound := fits.reserved node is
    have fewer := keeps.occupied node held
    have more := keeps.limit node held
    omega
  distinct := fits.distinct
  pending := fun batch is case member =>
    (keeps.result batch case (fits.batch batch is)).trans (fits.pending batch is case member)

theorem keeps_of_same (batches : next.batches = state.batches)
    (nodeLocks : next.nodeLocks = state.nodeLocks) (results : next.results = state.results)
    (runs : ∀ node, occupied next.runs node ≤ occupied state.runs node)
    (limit : ∀ node, state.nodeLocks node = some task →
      (state.nodes node).limit ≤ (next.nodes node).limit) : Keeps state next task where
  batch := by rw [batches]; exact fun _ held => held
  node := by rw [nodeLocks]; exact fun _ held => held
  occupied := fun node _ => runs node
  limit := limit
  result := by
    intro batch case _
    unfold result
    rw [results]

theorem keeps_phase (state : State) (task other : TaskId) (phase : Phase) :
    Keeps state (setPhase state task phase) other :=
  keeps_of_same rfl rfl rfl (fun _ => Nat.le_refl _) fun _ _ => Nat.le_refl _

theorem fits_free (state : State) (task : TaskId) (noBatch : phase.batch? = none)
    (noNode : phase.node? = none) (noTodo : phase.todo = []) : Fits state task phase where
  batch := by rw [noBatch]; rintro _ ⟨⟩
  node := by rw [noNode]; rintro _ ⟨⟩
  reserved := by rw [noNode]; rintro _ ⟨⟩
  distinct := by rw [noTodo]; exact .nil
  pending := by rw [noBatch]; rintro _ ⟨⟩

theorem Fits.away (fits : Fits state task phase)
    (same : later.batch? = phase.batch? ∨ later.batch? = none) (noNode : later.node? = none)
    (noTodo : later.todo = []) : Fits state task later where
  batch := by
    rcases same with is | is <;> rw [is]
    · exact fits.batch
    · rintro _ ⟨⟩
  node := by rw [noNode]; rintro _ ⟨⟩
  reserved := by rw [noNode]; rintro _ ⟨⟩
  distinct := by rw [noTodo]; exact .nil
  pending := by rw [noTodo]; rintro _ _ _ ⟨⟩

theorem tasks_update (sound : Sound state) {after : State}
    (phases : after.phases = Function.update state.phases task phase)
    (own : Fits after task phase) (others : ∀ other, other ≠ task → Keeps state after other) :
    ∀ other, Fits after other (after.phases other) := by
  intro other
  rw [phases]
  by_cases same : other = task
  · subst same
    rw [Function.update_self]
    exact own
  · rw [Function.update_of_ne same]
    exact (sound.tasks other).keep (others other same)

theorem setPhase_sound (sound : Sound state) (fits : Fits state task phase) :
    Sound (setPhase state task phase) where
  tasks := tasks_update sound rfl (fits.keep (keeps_phase state task task phase))
    fun other _ => keeps_phase state task other phase
  writers := sound.writers
  capacity := sound.capacity
  rows := sound.rows
  pending := sound.pending

theorem lockBatch_sound (sound : Sound state) (free : (state.batches batch).lock = none)
    (own : phase.batch? = some batch) (noNode : phase.node? = none) (noTodo : phase.todo = []) :
    Sound (lockBatch state task batch phase) where
  tasks := by
    refine tasks_update sound rfl ?_ ?_
    · constructor
      · rw [own]
        rintro _ ⟨⟩
        simp [lockBatch]
      · rw [noNode]
        rintro _ ⟨⟩
      · rw [noNode]
        rintro _ ⟨⟩
      · rw [noTodo]
        exact .nil
      · rw [noTodo]
        rintro _ _ _ ⟨⟩
    · intro other _
      have kept : ∀ held, (state.batches held).lock = some other →
          ((lockBatch state task batch phase).batches held).lock = some other := by
        intro held is
        have different : held ≠ batch := by
          rintro rfl
          rw [free] at is
          cases is
        simpa [lockBatch, different] using is
      exact ⟨kept, fun _ held => held, fun _ _ => Nat.le_refl _, fun _ _ => Nat.le_refl _,
        fun _ _ _ => rfl⟩
  writers := sound.writers
  capacity := sound.capacity
  rows := sound.rows
  pending := by
    intro held case owner row is
    refine (sound.pending held case owner row is).imp_left fun locked => ?_
    have different : held ≠ batch := by
      rintro rfl
      rw [free] at locked
      cases locked
    simpa [lockBatch, different] using locked

theorem lockNode_sound (sound : Sound state) (free : state.nodeLocks node = none)
    (own : (state.batches visit.batch).lock = some task) :
    Sound (lockNode state task node (.counting visit node)) where
  tasks := by
    refine tasks_update sound rfl ?_ ?_
    · constructor
      · rintro _ ⟨⟩
        exact own
      · rintro _ ⟨⟩
        simp [lockNode]
      · rintro _ ⟨⟩
        exact sound.capacity node
      · exact .nil
      · rintro _ _ _ ⟨⟩
    · intro other _
      have kept : ∀ held, state.nodeLocks held = some other →
          (lockNode state task node (.counting visit node)).nodeLocks held = some other := by
        intro held is
        have different : held ≠ node := by
          rintro rfl
          rw [free] at is
          cases is
        simpa [lockNode, different] using is
      exact ⟨fun _ held => held, kept, fun _ _ => Nat.le_refl _, fun _ _ => Nat.le_refl _,
        fun _ _ _ => rfl⟩
  writers := by
    intro run member owner is
    have locked := sound.writers run member owner is
    have different : run.node ≠ node := by
      intro same
      rw [same, free] at locked
      cases locked
    simpa [lockNode, different] using locked
  capacity := sound.capacity
  rows := sound.rows
  pending := sound.pending

theorem write_sound (sound : Sound state) {change : Result → Result}
    (written : writeResult state task batch case change phase = some next)
    (good : (change (result state task batch case)).Good)
    (own : (state.batches batch).lock = some task ∨
      (change (result state task batch case)).sourceRun =
        (result state task batch case).sourceRun)
    (fits : Fits next task phase) : Sound next := by
  unfold writeResult at written
  split at written
  · rename_i free
    cases written
    have seen : ∀ other, other ≠ task → ∀ later laterCase,
        (result { setPhase state task phase with
          results := state.results.write (batch, case) task
            (change (result state task batch case)) } other later laterCase) =
          result state other later laterCase := by
      intro other different later laterCase
      unfold result
      dsimp only
      rw [Rows.write_apply]
      split
      · rename_i same
        rw [same]
        exact Version.seen_write_other free different _
      · rfl
    constructor
    · refine tasks_update sound rfl fits fun other different => ?_
      exact ⟨fun _ held => held, fun _ held => held, fun _ _ => Nat.le_refl _,
        fun _ _ => Nat.le_refl _, fun later laterCase _ =>
          congrArg Result.sourceRun (seen other different later laterCase)⟩
    · exact sound.writers
    · exact sound.capacity
    · exact sound.rows.write task good
    · intro later laterCase owner row is
      dsimp only at is ⊢
      rw [Rows.write_apply] at is ⊢
      split at is
      · rename_i same
        cases same
        cases is
        rw [if_pos rfl]
        rcases own with locked | same
        · exact .inl locked
        · -- What the task has seen is committed, or its own.
          rcases Version.seen_cases (state.results (batch, case)) task with ⟨committed, _⟩ | mine
          · exact .inr (same.trans (congrArg Result.sourceRun committed))
          · exact (sound.pending batch case task _ mine).imp_right fun before => same.trans before
      · rename_i different
        rw [if_neg different]
        exact sound.pending later laterCase owner row is
  · cases written

theorem fits_written {change : Result → Result}
    (written : writeResult state task batch case change later = some next)
    (fits : Fits state task phase) (same : later.batch? = phase.batch? ∨ later.batch? = none)
    (noNode : later.node? = none) (noTodo : later.todo = []) : Fits next task later := by
  unfold writeResult at written
  split at written
  · cases written
    have kept := fits.away same noNode noTodo
    exact ⟨kept.batch, kept.node, kept.reserved, kept.distinct, by rw [noTodo]; rintro _ _ _ ⟨⟩⟩
  · cases written

theorem release_batch (state : State) (task : TaskId) (phase : Phase) (batch : BatchId) :
    ((release state task phase).batches batch).lock =
      if (state.batches batch).lock = some task then none else (state.batches batch).lock := by
  unfold release
  dsimp only
  split
  · rfl
  · rfl

theorem release_kept {lock : Option TaskId} (different : other ≠ task) (held : lock = some other) :
    (if lock = some task then none else lock) = some other := by
  rw [held, if_neg fun same => different (Option.some.inj same)]

theorem occupied_map {change : Run → Run} (same : ∀ run, (change run).node = run.node ∧
    (change run).status = run.status) (runs : List Run) (node : NodeId) :
    occupied (runs.map change) node = occupied runs node := by
  unfold occupied
  rw [countP_map]
  congr 1
  funext run
  simp [same run]

theorem commit_sound (sound : Sound state) (noBatch : phase.batch? = none)
    (noNode : phase.node? = none) (noTodo : phase.todo = []) : Sound (commit state task phase) := by
  have flipped : ∀ node, occupied (commit state task phase).runs node = occupied state.runs node := by
    intro node
    refine occupied_map (fun run => ?_) state.runs node
    split <;> exact ⟨rfl, rfl⟩
  constructor
  · refine tasks_update sound rfl (fits_free _ task noBatch noNode noTodo) fun other different => ?_
    constructor
    · intro batch held
      exact (release_batch state task phase batch).trans (release_kept different held)
    · exact fun node held => release_kept different held
    · exact fun node _ => Nat.le_of_eq (flipped node)
    · exact fun _ _ => Nat.le_refl _
    · intro batch case held
      have seen : (∃ row, (state.results (batch, case)).pending = some (task, row) ∧
          (state.results (batch, case)).seen other = (state.results (batch, case)).committed ∧
            ((state.results (batch, case)).commit task).seen other = row) ∨
          ((state.results (batch, case)).commit task).seen other =
            (state.results (batch, case)).seen other := Version.seen_commit_other different
      rcases seen with ⟨row, mine, committed, later⟩ | same
      · -- A row that the task has written without the lock names the run it named.
        have locked := (sound.pending batch case task row mine).resolve_left fun locked =>
          different (Option.some.inj (held.symm.trans locked))
        exact (congrArg Result.sourceRun later).trans
          (locked.trans (congrArg Result.sourceRun committed).symm)
      · exact congrArg Result.sourceRun same
  · intro run member owner is
    obtain ⟨old, inside, rfl⟩ := mem_map.mp member
    by_cases mine : old.writer = some task
    · rw [if_pos mine] at is
      cases is
    · rw [if_neg mine] at is ⊢
      have different : owner ≠ task := by
        rintro rfl
        exact mine is
      exact release_kept different (sound.writers old inside owner is)
  · exact fun node => (flipped node).symm ▸ sound.capacity node
  · exact sound.rows.commit task
  · intro batch case owner row is
    obtain ⟨different, before, same⟩ := Version.pending_commit is
    refine (sound.pending batch case owner row before).imp (fun locked => ?_) fun named => ?_
    · exact (release_batch state task phase batch).trans (release_kept different locked)
    · exact named.trans (congrArg Result.sourceRun same.symm)

theorem rollback_sound (sound : Sound state) : Sound (rollback state task) := by
  have fewer : ∀ node, occupied (rollback state task).runs node ≤ occupied state.runs node :=
    fun node => filter_sublist.countP_le
  constructor
  · refine tasks_update sound rfl (fits_free _ task rfl rfl rfl) fun other different => ?_
    constructor
    · intro batch held
      exact (release_batch state task .ended batch).trans (release_kept different held)
    · exact fun node held => release_kept different held
    · exact fun node _ => fewer node
    · exact fun _ _ => Nat.le_refl _
    · exact fun batch case _ => congrArg Result.sourceRun (Version.seen_rollback_other different)
  · intro run member owner is
    obtain ⟨inside, others⟩ := mem_filter.mp member
    have different : owner ≠ task := by
      rintro rfl
      exact of_decide_eq_true others is
    exact release_kept different (sound.writers run inside owner is)
  · exact fun node => Nat.le_trans (fewer node) (sound.capacity node)
  · exact sound.rows.rollback task
  · intro batch case owner row is
    obtain ⟨different, before⟩ := Version.pending_rollback is
    refine (sound.pending batch case owner row before).imp (fun locked => ?_) fun named => ?_
    · exact (release_batch state task .ended batch).trans (release_kept different locked)
    · exact named.trans (congrArg Result.sourceRun (Version.committed_rollback _ task).symm)

theorem setStatus_sound (sound : Sound state) (batch : BatchId) (status : BatchStatus) :
    Sound { state with
      batches := Function.update state.batches batch
        { state.batches batch with status := status } } := by
  have locks : ∀ other, (Function.update state.batches batch
      { state.batches batch with status := status } other).lock = (state.batches other).lock := by
    intro other
    by_cases same : other = batch
    · rw [same, Function.update_self]
    · rw [Function.update_of_ne same]
  constructor
  · exact fun task => (sound.tasks task).keep ⟨fun other held => (locks other).trans held,
      fun _ held => held, fun _ _ => Nat.le_refl _, fun _ _ => Nat.le_refl _, fun _ _ _ => rfl⟩
  · exact sound.writers
  · exact sound.capacity
  · exact sound.rows
  · intro other case owner row is
    rw [locks]
    exact sound.pending other case owner row is

theorem occupied_append (runs : List Run) (run : Run) (node : NodeId) :
    occupied (runs ++ [run]) node =
      occupied runs node + if run.node = node ∧ run.status.unfinished = true then 1 else 0 := by
  simp [occupied, countP_append, countP_singleton]

theorem addRun_sound (sound : Sound state) {remaining : Nat} {rest : List CaseId}
    (stands : state.phases task = .dispatching visit node remaining rest)
    (room : occupied state.runs node + remaining + 1 ≤ (state.nodes node).limit)
    (status : RunStatus.Status) : Sound { state with
      runs := state.runs ++ [⟨state.drawn, node, status, some task⟩]
      drawn := state.drawn + 1 } := by
  have fits := sound.tasks task
  rw [stands] at fits
  have locked := fits.node node rfl
  have more : ∀ other, occupied (state.runs ++ [⟨state.drawn, node, status, some task⟩]) other ≤
      occupied state.runs other + if node = other then 1 else 0 := by
    intro other
    rw [occupied_append]
    split <;> split <;> simp_all
  constructor
  · intro other
    by_cases same : other = task
    · subst same
      dsimp only
      rw [stands]
      refine ⟨fits.batch, fits.node, ?_, fits.distinct, fits.pending⟩
      rintro _ ⟨⟩
      have grown := more node
      rw [if_pos rfl] at grown
      dsimp only [Phase.remaining]
      omega
    · refine (sound.tasks other).keep ⟨fun _ held => held, fun _ held => held, ?_,
        fun _ _ => Nat.le_refl _, fun _ _ _ => rfl⟩
      intro held is
      have different : node ≠ held := by
        rintro rfl
        exact same (Option.some.inj (is.symm.trans locked))
      have grown := more held
      rw [if_neg different] at grown
      exact grown
  · intro run member owner is
    rcases mem_append.mp member with old | new
    · exact sound.writers run old owner is
    · cases mem_singleton.mp new
      cases is
      exact locked
  · intro other
    have bound := sound.capacity other
    have grown := more other
    by_cases same : node = other
    · subst same
      rw [if_pos rfl] at grown
      dsimp only
      omega
    · rw [if_neg same] at grown
      exact Nat.le_trans grown bound
  · exact sound.rows
  · exact sound.pending

theorem dispatchCase_sound (sound : Sound state) {remaining : Nat} {rest : List CaseId}
    (stands : state.phases task = .dispatching visit node (remaining + 1) (case :: rest))
    (given : dispatchCase state task visit.batch node case (.dispatching visit node remaining rest) =
      some next) : Sound next := by
  obtain ⟨middle, written, rfl⟩ := Option.map_eq_some_iff.mp given
  have fits := sound.tasks task
  rw [stands] at fits
  have locked := fits.batch visit.batch rfl
  have room := fits.reserved node rfl
  have none := fits.pending visit.batch rfl case (mem_cons_self ..)
  obtain ⟨unlisted, distinct⟩ := nodup_cons.mp fits.distinct
  have good : ((result state task visit.batch case).name state.drawn).Good := by
    have before := sound.rows (visit.batch, case) |>.seen task
    unfold Result.Good at before ⊢
    rw [show (state.results (visit.batch, case)).seen task = result state task visit.batch case
      from rfl, none] at before
    simp [Result.name, before]
  have onward : Fits middle task (.dispatching visit node remaining rest) := by
    unfold writeResult at written
    split at written
    · cases written
      refine ⟨fits.batch, fits.node, ?_, distinct, ?_⟩
      · rintro _ ⟨⟩
        exact Nat.le_trans (Nat.add_le_add_left (Nat.le_succ _) _) room
      · rintro _ ⟨⟩ later member
        have different : (visit.batch, later) ≠ (visit.batch, case) := by
          rintro same
          cases same
          exact unlisted member
        unfold result
        dsimp only
        rw [Rows.write_apply, if_neg different]
        exact fits.pending visit.batch rfl later (mem_cons_of_mem _ member)
    · cases written
  have sound' := write_sound sound written good (.inl locked) onward
  have stays : middle.phases task = .dispatching visit node remaining rest ∧
      middle.runs = state.runs ∧ middle.nodes = state.nodes ∧ middle.drawn = state.drawn := by
    unfold writeResult at written
    split at written
    · cases written
      exact ⟨Function.update_self .., rfl, rfl, rfl⟩
    · cases written
  obtain ⟨phase, runs, nodes, drawn⟩ := stays
  rw [← runs, ← drawn]
  refine addRun_sound sound' phase ?_ .queued
  rw [runs, nodes]
  exact room

theorem progress_sound (sound : Sound state) (id : RunId) (status : RunStatus.Status) :
    Sound (progress state id status) := by
  have change : ∀ run ∈ (progress state id status).runs, ∃ old ∈ state.runs,
      run.node = old.node ∧ run.writer = old.writer := by
    intro run member
    obtain ⟨old, inside, rfl⟩ := mem_map.mp member
    refine ⟨old, inside, ?_⟩
    split <;> exact ⟨rfl, rfl⟩
  have fewer : ∀ node, occupied (progress state id status).runs node ≤
      occupied state.runs node := by
    intro node
    unfold occupied progress
    rw [countP_map]
    refine countP_mono_left fun run _ on => ?_
    simp only [Function.comp_apply] at on
    split at on
    · rename_i going
      rw [Bool.and_eq_true] at on going
      exact Bool.and_eq_true_iff.mpr ⟨on.1, going.2⟩
    · exact on
  constructor
  · exact fun task => (sound.tasks task).keep
      (keeps_of_same rfl rfl rfl fewer fun _ _ => Nat.le_refl _)
  · intro run member owner is
    obtain ⟨old, inside, node, writer⟩ := change run member
    rw [node]
    exact sound.writers old inside owner (writer ▸ is)
  · exact fun node => Nat.le_trans (fewer node) (sound.capacity node)
  · exact sound.rows
  · exact sound.pending

theorem setNode_sound (sound : Sound state) {usable : Bool} {limit : Nat}
    (set : setNode state node usable limit = some next) : Sound next := by
  unfold setNode at set
  split at set
  · rename_i allowed
    obtain ⟨free, more⟩ := allowed
    cases set
    have grows : ∀ other, (state.nodes other).limit ≤
        (Function.update state.nodes node ⟨usable, limit⟩ other).limit := by
      intro other
      by_cases same : other = node
      · rw [same, Function.update_self]
        exact more
      · rw [Function.update_of_ne same]
    constructor
    · exact fun task => (sound.tasks task).keep
        (keeps_of_same rfl rfl rfl (fun _ => Nat.le_refl _) fun other _ => grows other)
    · exact sound.writers
    · exact fun other => Nat.le_trans (sound.capacity other) (grows other)
    · exact sound.rows
    · exact sound.pending
  · cases set

theorem onward_sound (sound : Sound state)
    (same : later.batch? = (state.phases task).batch? ∨ later.batch? = none)
    (noNode : later.node? = none) (noTodo : later.todo = []) : Sound (setPhase state task later) :=
  setPhase_sound sound ((sound.tasks task).away same noNode noTodo)

theorem visibleCapacity_le (sound : Sound state) (locked : state.nodeLocks node = some task) :
    occupied state.runs node + evaluationNodeCapacity state task node ≤
      (state.nodes node).limit := by
  -- The runs of the node that are not committed are those of the task.
  have all : (seenRuns state task).countP (fun run => run.node = node && run.status.unfinished) =
      occupied state.runs node := by
    unfold occupied seenRuns
    rw [countP_filter]
    refine countP_congr fun run member => ?_
    simp only [Bool.and_eq_true, Bool.or_eq_true, decide_eq_true_eq]
    refine ⟨And.left, fun on => ⟨on, ?_⟩⟩
    cases is : run.writer with
    | none => exact .inl rfl
    | some owner =>
      have held := sound.writers run member owner is
      rw [on.1, locked] at held
      exact .inr held.symm
  have bound := sound.capacity node
  unfold evaluationNodeCapacity
  rw [all]
  omega

theorem lockedPhase_locks (env : Env) (state : State) (task : TaskId) (job : Job)
    (batch : BatchId) : lockedPhase env state task job batch = .ended ∨
      (lockedPhase env state task job batch).batch? = some batch ∧
        (lockedPhase env state task job batch).node? = none ∧
          (lockedPhase env state task job batch).todo = [] := by
  cases job with
  | start =>
    simp only [lockedPhase]
    split
    · exact .inr ⟨rfl, rfl, rfl⟩
    · exact .inl rfl
  | advance =>
    simp only [lockedPhase]
    split
    · exact .inr ⟨rfl, rfl, rfl⟩
    · exact .inl rfl
  | retry =>
    simp only [lockedPhase]
    split
    · exact .inl rfl
    · exact .inr ⟨rfl, rfl, rfl⟩

theorem perform_sound (sound : Sound state) (performed : perform env state task = some next) :
    Sound next := by
  have fits := sound.tasks task
  unfold perform at performed
  split at performed
  · -- `finalize_case_result` has read the run.
    cases performed
    refine onward_sound sound (.inr ?_) ?_ ?_ <;> split <;> rfl
  · cases performed
    exact commit_sound sound rfl rfl rfl
  · rename_i job batch stands
    split at performed
    · rename_i free
      rcases lockedPhase_locks env state task job batch with ends | ⟨own, noNode, noTodo⟩
      · rw [ends] at performed
        cases performed
        exact onward_sound sound (.inr rfl) rfl rfl
      · split at performed
        · cases performed
          exact onward_sound sound (.inr rfl) rfl rfl
        · cases performed
          exact lockBatch_sound sound free own noNode noTodo
    · cases performed
  · rename_i batch stands
    cases performed
    exact onward_sound sound (.inl (by rw [stands]; rfl)) rfl rfl
  · rename_i batch stands
    cases performed
    exact onward_sound sound (.inl (by rw [stands]; rfl)) rfl rfl
  · rename_i visit node stands
    rw [stands] at fits
    split at performed
    · rename_i free
      split at performed
      · cases performed
        exact lockNode_sound sound free (fits.batch visit.batch rfl)
      · cases performed
        exact onward_sound sound (.inl (by rw [stands]; rfl)) rfl rfl
    · cases performed
  · rename_i visit node stands
    rw [stands] at fits
    cases performed
    have counted := visibleCapacity_le sound (fits.node node rfl)
    split
    · exact onward_sound sound (.inl (by rw [stands]; rfl)) rfl rfl
    · refine setPhase_sound sound ⟨fits.batch, fits.node, ?_, .nil, by rintro _ _ _ ⟨⟩⟩
      rintro _ ⟨⟩
      exact counted
  · rename_i visit node remaining stands
    rw [stands] at fits
    cases performed
    refine setPhase_sound sound ⟨fits.batch, fits.node, fits.reserved, ?_, ?_⟩
    · exact (env.distinct visit.batch).sublist filter_sublist
    · rintro _ ⟨⟩ case member
      exact Option.isNone_iff_eq_none.mp (mem_filter.mp member).2
  · rename_i visit node remaining todo stands
    split at performed
    · cases performed
      exact onward_sound sound (.inl (by rw [stands]; rfl)) rfl rfl
    · cases performed
  · rename_i visit stands
    cases performed
    exact onward_sound sound (.inl (by rw [stands]; rfl)) rfl rfl
  · rename_i batch retried stands
    cases performed
    exact onward_sound sound (.inl (by rw [stands]; rfl)) rfl rfl
  · rename_i batch case rest retried stands
    rw [stands] at fits
    exact write_sound sound performed rfl (.inl (fits.batch batch rfl))
      (fits_written performed fits (.inl rfl) rfl rfl)
  · cases performed
    exact commit_sound (setStatus_sound sound _ _) rfl rfl rfl
  · cases performed

theorem score_good {row : Result} {run : RunId} (good : row.Good) (names : row.sourceRun = some run)
    (passed : Option Bool) : (row.score run passed).Good ∧
      (row.score run passed).sourceRun = row.sourceRun := by
  unfold Result.Good at good ⊢
  rw [names] at good ⊢
  simp [Result.score, Result.name, good]

theorem scoreCase_sound (sound : Sound state) {passed : Option Bool}
    (orderly : Orderly state (.score task passed))
    (scored : scoreCase state task passed = some next) : Sound next := by
  have fits := sound.tasks task
  unfold Orderly at orderly
  unfold scoreCase at scored
  split at scored
  · rename_i batch case run stands
    simp only [stands] at orderly fits
    obtain ⟨good, same⟩ := score_good ((sound.rows (batch, case)).seen task) orderly passed
    exact write_sound sound scored good (.inr same) (fits_written scored fits (.inr rfl) rfl rfl)
  · rename_i batch case run rest stands
    simp only [stands] at orderly fits
    obtain ⟨good, same⟩ := score_good ((sound.rows (batch, case)).seen task) orderly passed
    exact write_sound sound scored good (.inr same) (fits_written scored fits (.inl rfl) rfl rfl)
  · cases scored

theorem dispatchNext_sound (sound : Sound state) {fails : Bool}
    (dispatched : dispatchNext state task fails = some next) : Sound next := by
  have fits := sound.tasks task
  unfold dispatchNext at dispatched
  split at dispatched
  · rename_i visit node remaining case rest stands
    rw [stands] at fits
    split at dispatched
    · cases dispatched
      refine setPhase_sound sound ⟨fits.batch, fits.node, fits.reserved,
        (nodup_cons.mp fits.distinct).2, ?_⟩
      exact fun batch is later member =>
        fits.pending batch is later (mem_cons_of_mem _ member)
    · exact dispatchCase_sound sound stands dispatched
  · cases dispatched

theorem step_sound (sound : Sound state) (action : Action) (orderly : Orderly state action)
    (taken : step env state action = some next) : Sound next := by
  cases action with
  | perform task => exact perform_sound sound taken
  | score task passed => exact scoreCase_sound sound orderly taken
  | dispatch task fails => exact dispatchNext_sound sound taken
  | setNode node usable limit => exact setNode_sound sound taken
  | progress run status =>
    cases taken
    exact progress_sound sound run status
  | abort task =>
    cases taken
    exact rollback_sound sound
  | begin task work =>
    simp only [step, begin] at taken
    split at taken
    · cases taken
      exact onward_sound sound (.inr rfl) rfl rfl
    · cases taken
      exact onward_sound sound (.inr rfl) rfl rfl
    · cases taken
  | find task batch case =>
    simp only [step, findResult] at taken
    split at taken
    · split at taken
      · cases taken
        exact onward_sound sound (.inr rfl) rfl rfl
      · cases taken
    · cases taken
  | resolve task node =>
    simp only [step, resolveNode] at taken
    split at taken
    · rename_i visit stands
      cases taken
      exact onward_sound sound (.inl (by rw [stands]; rfl)) rfl rfl
    · rename_i visit node stands
      split at taken
      · cases taken
        exact onward_sound sound (.inl (by rw [stands]; rfl)) rfl rfl
      · cases taken
    · cases taken

theorem start_sound (nodes : NodeId → Node) : Sound (start nodes) where
  tasks := fun task => fits_free _ task rfl rfl rfl
  writers := by rintro _ ⟨⟩
  capacity := fun _ => Nat.zero_le _
  rows := fun _ => ⟨rfl, by rintro _ _ ⟨⟩⟩
  pending := by rintro _ _ _ _ ⟨⟩

theorem Sound.bounded (sound : Sound state) : Bounded state where
  capacity := by
    intro node
    refine Nat.le_trans (countP_mono_left fun run _ on => ?_) (sound.capacity node)
    exact (Bool.and_eq_true_iff.mp on).2
  single := by
    intro batch case
    have good := (sound.rows (batch, case)).1
    rw [show (state.results (batch, case)).committed.named = _ from good]
    exact Option.length_toList_le

/-- In every run whose steps all meet the condition, no node has more unfinished runs than its
limit, and no result has been given two source runs since its last reset. -/
theorem dispatch_bounded {nodes : NodeId → Node} {actions : List Action} {finish : State}
    (run : Steps (step env) Orderly (start nodes) actions finish) : Bounded finish := by
  have sound := run.invariant Sound
    (fun _ action _ sound orderly taken => step_sound sound action orderly taken)
    (start_sound nodes)
  exact sound.bounded

instance (state : State) : (action : Action) → Decidable (Orderly state action)
  | .score task _ =>
    match stands : state.phases task with
    | .scoring batch case run => decidable_of_iff
        ((result state task batch case).sourceRun = some run) (by simp [Orderly, stands])
    | .rescoring batch ((case, run) :: _) => decidable_of_iff
        ((result state task batch case).sourceRun = some run) (by simp [Orderly, stands])
    | .rescoring _ [] | .idle | .loading _ | .finding _ | .scored _ | .locking _ _ | .sweeping _
    | .resolving _ | .lockingNode _ _ | .counting _ _ | .listing _ _ _ | .dispatching _ _ _ _
    | .settling _ | .resetting _ _ _ | .committing _ _ | .ended =>
      isTrue (by simp [Orderly, stands])
  | .begin _ _ | .progress _ _ | .setNode _ _ _ | .perform _ | .find _ _ _ | .resolve _ _
  | .dispatch _ _ | .abort _ => isTrue trivial

def oneCase : Env := ⟨fun _ => [0], fun _ => nodup_singleton 0⟩

def oneSlot : NodeId → Node := fun _ => ⟨true, 1⟩

def advanceTo (task : TaskId) (batch : BatchId) : List Action :=
  [.begin task (.batch .advance batch), .perform task, .perform task, .perform task,
    .resolve task (some 0)]

def dispatchOn (task : TaskId) : List Action :=
  [.perform task, .perform task, .perform task, .dispatch task false, .perform task, .perform task,
    .perform task]

/-- Two batches see the last slot; the second one waits, and counts again. -/
def lastSlot : List Action :=
  advanceTo 1 0 ++ advanceTo 2 1 ++ dispatchOn 1 ++
    [.perform 2, .perform 2, .perform 2, .perform 2]

theorem dispatch_bounded_slot : ∃ finish,
    Steps (step oneCase) Orderly (start oneSlot) lastSlot finish ∧
      finish.runs = [⟨0, 0, .queued, none⟩] ∧ finish.phases 2 = .ended ∧ Bounded finish := by
  have reaches : (execGuarded (step oneCase) Orderly (start oneSlot) lastSlot).any (fun finish =>
      decide (finish.runs = [⟨0, 0, .queued, none⟩] ∧ finish.phases 2 = .ended)) = true := by
    decide +kernel
  obtain ⟨finish, executed, shown⟩ := (Option.any_eq_true _ _).mp reaches
  have run := execGuarded_steps executed
  obtain ⟨runs, ended⟩ := of_decide_eq_true shown
  exact ⟨finish, run, runs, ended, dispatch_bounded run⟩

/-- Between its reading of the result and its score, the batch is completed, retried and
dispatched again. -/
def lateScore : List Action :=
  advanceTo 1 0 ++ dispatchOn 1 ++ [.progress 0 .failed] ++
    [.begin 2 (.finalize 0), .perform 2, .find 2 0 0] ++
    [.begin 3 (.batch .advance 0), .perform 3, .perform 3, .score 3 (some false), .perform 3,
      .resolve 3 none, .perform 3, .perform 3] ++
    [.begin 4 (.batch .retry 0), .perform 4, .perform 4, .perform 4, .perform 4] ++
    advanceTo 5 0 ++ dispatchOn 5 ++ [.score 2 (some false), .perform 2]

/-- The second attempt has had both runs. -/
theorem late_score_names_two : ∃ finish, Reachable (step oneCase) (start oneSlot) finish ∧
    ¬ Bounded finish := by
  have reaches : (exec (step oneCase) (start oneSlot) lateScore).any (fun finish =>
      decide ((finish.results (0, 0)).committed.named = [1, 0])) = true := by
    decide +kernel
  obtain ⟨finish, executed, named⟩ := (Option.any_eq_true _ _).mp reaches
  refine ⟨finish, ⟨lateScore, exec_steps executed⟩, fun bounded => ?_⟩
  have single := bounded.single 0 0
  rw [of_decide_eq_true named] at single
  exact absurd single (by decide)

end SourceLens.EvaluationDispatch
