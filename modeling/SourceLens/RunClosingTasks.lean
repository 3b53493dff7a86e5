import SourceLens.RunClosingFinish

/-! When a statement that ends runs leaves nothing of them at work, and what each statement
of the paths keeps. -/

namespace SourceLens.RunClosing

open List
open RunStatus (Status Outcome Run LensNode Settings RunTable change)
open Transition

variable {Json : Type} {world next : World Json} {task : Task} {runs after : RunTable}
  {steps : List (RunStep Json)} {index id : Nat} {ids : List Nat} {settings : Settings}
  {clock now : Int} {run : Run}

variable {nextTask : Option Task} {lensnode : Option LensNode}

/-- `other` is below `ancestor` in the tree of delegations. -/
inductive Descends (runs : RunTable) (ancestor : Nat) : Nat → Prop
  | child {id : Nat} {run : Run} (found : runs.get? id = some run)
      (parent : run.parentRun = some ancestor) : Descends runs ancestor id
  | deeper {id parent : Nat} {run : Run} (found : runs.get? id = some run)
      (child : run.parentRun = some parent) (below : Descends runs ancestor parent) :
      Descends runs ancestor id

structure Closed (world : World Json) (id : Nat) : Prop where
  ended : ∀ run, world.runs.get? id = some run → run.status.terminal = true
  alone : ∀ other run, Descends world.runs id other → world.runs.get? other = some run →
    run.status.unfinished = false
  still : ∀ step ∈ world.steps, step.run = id → step.status ≠ .running
  deaf : ∀ event now, recordLensnodeRunEvent world id event now = world

/-- A statement that ends runs ends every unfinished child of theirs with them; and the
cleanup meets no run whose running steps another path has still to close. -/
def Task.Closing (world : World Json) (settings : Settings) : Task → Prop
  | .failActive ids _ => Alone world.runs ids
  | .markAwaiting ((run, lensnode) :: _) now _ _ =>
    RunStatus.getRunResumeDeadline settings lensnode run now ≤ now →
      (world.runs.get? run.id).any (·.status.active) = true → Alone world.runs [run.id]
  | .cleanupStale ids _ => Alone world.runs ids
  | .cleanupExpired now => Alone world.runs (expiredIds world.runs now) ∧
      ∀ step ∈ world.steps, step.status = .running →
        step.run ∈ expiredIds world.runs now → step.run ∉ pendings world.tasks
  | _ => True

/-- The tasks step so; and where a child that `finish_lensnode_run` cancels has a running
step, its session goes. -/
def Closing (world : World Json) : Action Json → Prop
  | .advance index settings _ => ∀ task ∈ world.tasks[index]?, task.Closing world settings
  | .finish id status error _ manifestValid now =>
    terminates world.runs id status error manifestValid now = true →
      ∀ step ∈ world.steps, step.status = .running →
        step.run ∈ RunStatus.children world.runs id → SessionEnds world.runs id step.run
  | _ => True

/-- What a step must show of running steps: they are not its own to close any more. -/
def Accounted (world : World Json) (task : Task) (runs : RunTable) (steps : List (RunStep Json))
    (nextTask : Option Task) : Prop :=
  ∀ step ∈ steps, step.status = .running → ∀ run, runs.get? step.run = some run →
    run.status.terminal = true ∨ run.resumeBy.isSome = true →
      step.run ∈ pendings world.tasks ∧ step.run ∉ task.pending ∨
        ∃ after ∈ nextTask, step.run ∈ after.pending

theorem Accounted.covered (accounted : Accounted world task runs steps nextTask)
    (current : world.tasks[index]? = some task) :
    Covered runs steps (pendings (TaskPool.settle world.tasks index nextTask)) := by
  intro step member running run found needs
  rcases accounted step member running run found needs with ⟨waits, other⟩ | ⟨after, is, waits⟩
  · exact (mem_pendings_settle current nextTask waits).resolve_left other
  · cases is
    exact mem_pendings_next current waits

def settled (world : World Json) (index : Nat) (effect : Effect Json) : World Json :=
  { effect.1 with tasks := TaskPool.settle world.tasks index effect.2 }

theorem settle_sound (sound : world.Sound) (effect : Effect Json)
    (ages : Ages world.runs effect.1.runs) (fresh : Fresh world.runs effect.1.runs)
    (current : world.tasks[index]? = some task)
    (accounted : Accounted world task effect.1.runs effect.1.steps effect.2)
    (nextTask : ∀ after ∈ effect.2, after.Sound effect.1.runs)
    (closes : ∀ step ∈ effect.1.steps, step.status = .running → step ∈ world.steps)
    (ended : ∀ id ∈ effect.1.settled, id ∈ world.settled ∨
      Still effect.1.runs effect.1.steps id) : (settled world index effect).Sound := by
  refine World.Sound.advance sound ages fresh (accounted.covered current) ?_
    (fun step member running _ => closes step member running) ended
  intro other member
  rcases TaskPool.mem_settle member with old | new
  · exact .inl old
  · exact .inr (nextTask other new)

theorem accounted_of_covered (sound : world.Sound)
    (keeps : ∀ id ∈ task.pending, ∃ after ∈ nextTask, id ∈ after.pending)
    (stays : ∀ step ∈ steps, step.status = .running → step ∈ world.steps)
    (rows : ∀ step ∈ steps, step.status = .running → ∀ run, runs.get? step.run = some run →
      run.status.terminal = true ∨ run.resumeBy.isSome = true →
        (∃ row, world.runs.get? step.run = some row ∧
          (row.status.terminal = true ∨ row.resumeBy.isSome = true)) ∨
        ∃ after ∈ nextTask, step.run ∈ after.pending) :
    Accounted world task runs steps nextTask := by
  intro step member running run found needs
  rcases rows step member running run found needs with ⟨row, stored, needed⟩ | waits
  · have waits := sound.covered step (stays step member running) running row stored needed
    by_cases own : step.run ∈ task.pending
    · exact .inr (keeps step.run own)
    · exact .inl ⟨waits, own⟩
  · exact .inr waits

theorem accounted_of_closed (sound : world.Sound) (own : task.pending ⊆ ids)
    (rows : ∀ id row, id ∉ ids → runs.get? id = some row →
      row.status.terminal = true ∨ row.resumeBy.isSome = true →
        ∃ old, world.runs.get? id = some old ∧
          (old.status.terminal = true ∨ old.resumeBy.isSome = true)) :
    Accounted world task runs (failRunningSteps world.steps ids .failed) nextTask := by
  intro step member running run found needs
  obtain ⟨present, other⟩ := failRunningSteps_running (by decide) member running
  obtain ⟨old, stored, needed⟩ := rows step.run run other found needs
  exact .inl ⟨sound.covered step present running old stored needed, fun waits => other (own waits)⟩

theorem failActive_sound (sound : world.Sound)
    (current : world.tasks[index]? = some (.failActive ids now)) (alone : Alone world.runs ids) :
    (settled world index ((Task.failActive ids now).advance world settings clock)).Sound := by
  have closes := failActive_ended world.runs ids now
  have own := sound.tasks _ (mem_of_getElem? current)
  apply settle_sound sound _ closes.ages (closes.fresh alone) current
  · apply accounted_of_covered sound
    · rintro _ ⟨⟩
    · exact fun _ member _ => member
    · intro step member running run found needs
      rcases closes.rows step.run run found with ⟨listed, _⟩ | ⟨_, stored⟩
      · exact .inr ⟨_, rfl, listed⟩
      · exact .inl ⟨run, stored, needs⟩
  · rintro _ ⟨⟩
    exact ⟨own.drawn, fun _ listed run found => closes.terminal listed run found,
      List.Subset.refl _⟩
  · exact fun _ member _ => member
  · exact fun _ member => .inl member

theorem quiet_sound (sound : world.Sound) (current : world.tasks[index]? = some task)
    {after : RunTable} (steady : Steady world.runs after) (nextTask : Option Task)
    (keeps : ∀ id ∈ task.pending, ∃ other ∈ nextTask, id ∈ other.pending)
    (nextSound : ∀ other ∈ nextTask, other.Sound after) :
    (settled world index ({ world with runs := after }, nextTask)).Sound := by
  apply settle_sound sound _ steady.ages steady.fresh current
  · apply accounted_of_covered sound keeps
    · exact fun _ member _ => member
    · exact fun step member running run found needs => .inl (steady.needs found needs)
  · exact nextSound
  · exact fun _ member _ => member
  · exact fun _ member => .inl member

theorem closing_sound (sound : world.Sound) (current : world.tasks[index]? = some task)
    (own : task.pending ⊆ ids) {after : RunTable} (ages : Ages world.runs after)
    (fresh : Fresh world.runs after)
    (rows : ∀ id row, id ∉ ids → after.get? id = some row → world.runs.get? id = some row)
    (nextSound : ∀ other ∈ nextTask, other.Sound after) {reported : List Nat}
    (ended : ∀ id ∈ reported, id ∈ world.settled ∨ id ∈ ids ∧
      id < after.sequence ∧ ∀ run, after.get? id = some run → run.status.terminal = true) :
    (settled world index ({ world with
      runs := after
      steps := failRunningSteps world.steps ids .failed
      settled := reported }, nextTask)).Sound := by
  apply settle_sound sound _ ages fresh current
  · apply accounted_of_closed sound own
    exact fun id row unlisted found needs => ⟨row, rows id row unlisted found, needs⟩
  · exact nextSound
  · exact fun _ member running => (failRunningSteps_running (by decide) member running).1
  · intro id member
    rcases ended id member with old | ⟨listed, drawn, stopped⟩
    · exact .inl old
    · exact .inr (failRunningSteps_still (by decide) drawn stopped listed)

theorem sound_of_unlisted (unlisted : task.listed = []) (unended : task.ended = []) :
    task.Sound runs := by
  refine ⟨?_, ?_, ?_⟩
  · simp [unlisted]
  · simp [unended]
  · simp [unended]

theorem path_sound (world : World Json) (settings : Settings) (now : Int) (path : Path) :
    ∀ after ∈ path.advance world settings now, after.Sound world.runs := by
  have drawn : ∀ condition, ∀ id ∈ (world.runs.select condition).map Run.id,
      id < world.runs.sequence := by
    intro condition id member
    obtain ⟨row, selected, rfl⟩ := mem_map.mp member
    exact world.runs.drawn row (Table.mem_select.mp selected).1
  intro after is
  cases path with
  | failActiveRunsForLensnode lensnode =>
    simp only [Path.advance] at is
    split at is
    · cases is
    · cases is
      exact ⟨drawn _, by rintro _ ⟨⟩, nil_subset _⟩
  | markActiveRunsAwaitingResume lensnode =>
    simp only [Path.advance] at is
    split at is <;> cases is <;> exact sound_of_unlisted rfl rfl
  | lensnodeCleanupTask =>
    cases is
    refine ⟨?_, by rintro _ ⟨⟩, nil_subset _⟩
    intro id member
    obtain ⟨row, among, rfl⟩ := mem_map.mp member
    exact drawn _ row.id (mem_map_of_mem (mem_of_mem_filter among))

theorem round_sound {rest : List (Run × Option LensNode)} {updated expired : List Nat}
    (more : List Nat) (sound : world.Sound) (current : world.tasks[index]? =
      some (.markAwaiting ((run, lensnode) :: rest) now updated expired)) {after : RunTable}
    (ages : Ages world.runs after) (fresh : Fresh world.runs after)
    (rows : ∀ id row, id ∉ [run.id] → after.get? id = some row → world.runs.get? id = some row)
    (own : more ⊆ [run.id]) (drawn : ∀ id ∈ more, id < after.sequence)
    (ended : ∀ id ∈ more, ∀ row, after.get? id = some row → row.status.terminal = true) :
    (settled world index ({ world with runs := after },
      some (.markAwaiting rest now (updated ++ [run.id]) (expired ++ more)))).Sound := by
  have before := (sound.tasks _ (mem_of_getElem? current)).ages ages
  apply settle_sound sound _ ages fresh current
  · apply accounted_of_covered sound
    · exact fun id waits => ⟨_, rfl, mem_append_left _ waits⟩
    · exact fun _ member _ => member
    · intro step member running row found needs
      by_cases same : step.run ∈ [run.id]
      · exact .inr ⟨_, rfl, mem_append_right _ same⟩
      · exact .inl ⟨row, rows step.run row same found, needs⟩
  · rintro _ ⟨⟩
    refine ⟨?_, ?_, ?_⟩
    · intro id member
      exact (mem_append.mp member).elim (before.drawn id) (drawn id)
    · intro id member
      exact (mem_append.mp member).elim (before.ended id) (ended id)
    · exact append_subset.mpr ⟨subset_append_of_subset_left _ before.closes,
        subset_append_of_subset_right _ own⟩
  · exact fun _ member _ => member
  · exact fun _ member => .inl member

theorem markAwaiting_rows (matched : (runs.get? run.id).any (·.status.active) = true)
    (due : RunStatus.getRunResumeDeadline settings lensnode run now ≤ now) :
    Ended runs (RunStatus.markAwaiting runs settings run lensnode now) [run.id] := by
  simp only [RunStatus.markAwaiting, RunStatus.parkOrExpire, due, if_true]
  refine ended_updateWhere ?_ (fun _ => rfl) fun _ => rfl
  intro row present
  rw [Bool.and_eq_true, decide_eq_true_eq, mem_singleton]
  constructor
  · exact fun meets => meets.1
  · intro same
    rw [← same, Table.get?_of_mem present] at matched
    exact ⟨same, matched⟩

theorem markAwaiting_parks (runs : RunTable)
    (undue : ¬ RunStatus.getRunResumeDeadline settings lensnode run now ≤ now) :
    Ages runs (RunStatus.markAwaiting runs settings run lensnode now) ∧
      Fresh runs (RunStatus.markAwaiting runs settings run lensnode now) ∧
      ∀ id row, id ∉ [run.id] →
        (RunStatus.markAwaiting runs settings run lensnode now).get? id = some row →
          runs.get? id = some row := by
  simp only [RunStatus.markAwaiting, RunStatus.parkOrExpire, undue, if_false]
  refine ⟨?_, ?_, ?_⟩
  · refine Table.derives_updateWhere RowAges.refl fun row _ meets => ⟨.inl rfl, fun ended => ?_⟩
    rw [Bool.and_eq_true] at meets
    exact absurd ended (RunStatus.Status.active_not_terminal meets.2)
  · apply fresh_of_status (stays_updateWhere _ _ _)
    intro id later found ended
    rw [Table.get?_updateWhere, Option.map_eq_some_iff] at found
    obtain ⟨row, stored, rfl⟩ := found
    split at ended
    · cases ended
    · exact ⟨row, stored, ended⟩
  · intro id later other found
    rw [Table.get?_updateWhere, Option.map_eq_some_iff] at found
    obtain ⟨row, stored, is⟩ := found
    obtain ⟨_, rfl⟩ := Table.get?_eq_some.mp stored
    rw [mem_singleton] at other
    simp only [other, decide_false, Bool.false_and, Bool.false_eq_true, if_false] at is
    exact is ▸ stored

theorem markAwaiting_sound {rest : List (Run × Option LensNode)} {updated expired : List Nat}
    (sound : world.Sound) (current : world.tasks[index]? =
      some (.markAwaiting ((run, lensnode) :: rest) now updated expired))
    (alone : RunStatus.getRunResumeDeadline settings lensnode run now ≤ now →
      (world.runs.get? run.id).any (·.status.active) = true → Alone world.runs [run.id]) :
    (settled world index
      (RunClosing.markAwaiting world settings run lensnode rest now updated expired)).Sound := by
  have own := sound.tasks _ (mem_of_getElem? current)
  have active : ∀ row ∈ world.runs.rows, (decide (row.id = run.id) && row.status.active) = true →
      (world.runs.get? run.id).any (·.status.active) = true := by
    intro row present meets
    rw [Bool.and_eq_true, decide_eq_true_eq] at meets
    rw [← meets.1, Table.get?_of_mem present]
    exact meets.2
  by_cases matched : (world.runs.get? run.id).any (·.status.active) = true
  · obtain ⟨row, stored, live⟩ := (Option.any_eq_true _ _).mp matched
    have drawn : run.id < world.runs.sequence := by
      obtain ⟨present, same⟩ := Table.get?_eq_some.mp stored
      exact same ▸ world.runs.drawn row present
    by_cases due : RunStatus.getRunResumeDeadline settings lensnode run now ≤ now
    · have closes := markAwaiting_rows matched due
      have round := round_sound [run.id] sound current closes.ages
        (closes.fresh (alone due matched)) (fun _ _ unlisted found => closes.other unlisted found)
        (List.Subset.refl _) (by simpa [closes.ages.sequence_eq] using drawn)
        fun _ listed row found => closes.terminal listed row found
      simpa [RunClosing.markAwaiting, matched, due] using round
    · obtain ⟨ages, fresh, rows⟩ := markAwaiting_parks world.runs due
      have round := round_sound [] sound current ages fresh rows (nil_subset _)
        (by rintro _ ⟨⟩) (by rintro _ ⟨⟩)
      simpa [RunClosing.markAwaiting, matched, due] using round
  · have steady : Steady world.runs
        (RunStatus.markAwaiting world.runs settings run lensnode now) :=
      steady_updateWhere fun row present meets => absurd (active row present meets) matched
    have quiet := quiet_sound sound current steady (some (.markAwaiting rest now updated expired))
      (fun id waits => ⟨_, rfl, waits⟩) (by
        rintro _ ⟨⟩
        have aged := own.ages steady.ages
        exact ⟨aged.drawn, aged.ended, aged.closes⟩)
    simpa [RunClosing.markAwaiting, matched] using quiet

theorem cleanupExpired_sound (sound : world.Sound)
    (current : world.tasks[index]? = some (.cleanupExpired now))
    (alone : Alone world.runs (expiredIds world.runs now))
    (closed : ∀ step ∈ world.steps, step.status = .running →
      step.run ∈ expiredIds world.runs now → step.run ∉ pendings world.tasks) :
    (settled world index ((Task.cleanupExpired now).advance world settings clock)).Sound := by
  have closes := cleanupExpired_ended world.runs now
  -- A run that waits has its running steps in the hands of a path.
  have none : ∀ step ∈ world.steps, step.status = .running →
      step.run ∉ expiredIds world.runs now := by
    intro step member running listed
    obtain ⟨row, present, same, _, overdue⟩ := mem_expiredIds.mp listed
    have waits : row.resumeBy.isSome = true := by
      obtain ⟨resumeBy, is, _⟩ := (Option.any_eq_true _ _).mp overdue
      rw [is]
      rfl
    exact closed step member running listed
      (sound.covered step member running row (same ▸ Table.get?_of_mem present) (.inr waits))
  apply settle_sound sound _ closes.ages (closes.fresh alone) current
  · apply accounted_of_covered sound
    · rintro _ ⟨⟩
    · exact fun _ member _ => member
    · intro step member running run found needs
      exact .inl ⟨run, closes.other (none step member running) found, needs⟩
  · rintro _ ⟨⟩
    exact sound_of_unlisted rfl rfl
  · exact fun _ member _ => member
  · intro id member
    rcases mem_append.mp member with old | listed
    · exact .inl old
    · refine .inr ⟨?_, fun run found => closes.terminal listed run found, ?_⟩
      · obtain ⟨row, present, same, _⟩ := mem_expiredIds.mp listed
        exact same ▸ world.runs.drawn row present
      · exact fun step member same running => none step member running (same ▸ listed)

theorem advance_sound (sound : world.Sound) (current : world.tasks[index]? = some task)
    (closing : Closing world (.advance index settings clock)) :
    (settled world index (task.advance world settings clock)).Sound := by
  have own := sound.tasks _ (mem_of_getElem? current)
  have met := closing task current
  have same := Table.Derives.refl RowAges.refl world.runs
  have unchanged := Steady.refl world.runs
  cases task with
  | called path =>
    exact quiet_sound sound current unchanged _ (by rintro _ ⟨⟩)
      (path_sound world settings clock path)
  | failActive ids now => exact failActive_sound sound current met
  | failActiveSteps ids =>
    apply closing_sound sound current (List.Subset.refl _) same (fresh_refl _)
      (fun _ _ _ found => found) (by rintro _ ⟨⟩)
    intro id member
    exact (mem_append.mp member).imp (fun old => old) fun new =>
      ⟨new, own.drawn id new, own.ended id new⟩
  | markActive lensnode =>
    refine quiet_sound sound current unchanged _ (by rintro _ ⟨⟩) ?_
    intro other is
    simp only [Option.mem_def] at is
    split at is
    · cases is
    · cases is
      exact sound_of_unlisted rfl rfl
  | markAwaiting rest now updated expired =>
    match rest with
    | [] =>
      apply closing_sound sound current (List.Subset.refl _) same (fresh_refl _)
        (fun _ _ _ found => found)
      · intro other is
        simp only [Option.mem_def] at is
        split at is
        · cases is
        · cases is
          exact sound_of_unlisted rfl rfl
      · intro id member
        exact (mem_append.mp member).imp (fun old => old) fun new =>
          ⟨own.closes new, own.drawn id new, own.ended id new⟩
    | (run, lensnode) :: rest => exact markAwaiting_sound sound current met
  | markExecutions expired =>
    exact quiet_sound sound current (failExecutions_steady _ _) none (by rintro _ ⟨⟩)
      (by rintro _ ⟨⟩)
  | cleanupStale ids now =>
    have closes := cleanupStale_ended world.runs ids now
    apply closing_sound sound current (nil_subset _) closes.ages (closes.fresh met)
      (fun _ _ unlisted found => closes.other unlisted found)
    · rintro _ ⟨⟩
      exact sound_of_unlisted rfl rfl
    · intro id member
      exact (mem_append.mp member).imp (fun old => old) fun new =>
        ⟨new, own.drawn id new, fun _ found => closes.terminal new _ found⟩
  | cleanupRead now =>
    refine quiet_sound sound current unchanged _ (by rintro _ ⟨⟩) ?_
    rintro _ ⟨⟩
    split <;> exact sound_of_unlisted rfl rfl
  | cleanupExpiredSteps ids now =>
    apply closing_sound sound current (nil_subset _) same (fresh_refl _)
      (fun _ _ _ found => found)
    · rintro _ ⟨⟩
      exact sound_of_unlisted rfl rfl
    · exact fun _ old => .inl old
  | cleanupExpired now => exact cleanupExpired_sound sound current met.1 met.2
  | cleanupExecutions =>
    exact quiet_sound sound current (failExecutions_steady _ _) none (by rintro _ ⟨⟩)
      (by rintro _ ⟨⟩)

end SourceLens.RunClosing
