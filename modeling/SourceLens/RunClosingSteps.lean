import SourceLens.RunClosing
import SourceLens.RunStatusRuns

/-! What the statements of the paths do to the run rows, and the invariant of a run's
children and steps. -/

namespace SourceLens.RunClosing

open RunStatus (Status Outcome Run LensNode Settings RunTable change)

variable {Json : Type} {runs before after : RunTable} {ids : List Nat} {id : Nat} {run : Run}

/-- A row as it may become: it stays under its parent or loses it, and does not come back
from a terminal status. -/
structure RowAges (row later : Run) : Prop where
  parent : later.parentRun = row.parentRun ∨ later.parentRun = none
  ended : row.status.terminal = true → later.status.terminal = true

theorem RowAges.refl (row : Run) : RowAges row row := ⟨.inl rfl, id⟩

abbrev Ages (before after : RunTable) : Prop := Table.Derives RowAges before after

/-- The parent of a delegated run is a row of its own without a parent. -/
def Shallow (runs : RunTable) : Prop :=
  ∀ id run parent, runs.get? id = some run → run.parentRun = some parent →
    parent < runs.sequence ∧ ∀ row, runs.get? parent = some row → row.parentRun = none

/-- The parent of a run that has not ended is stored, and has not ended. -/
def Orphanless (runs : RunTable) : Prop :=
  ∀ id run parent, runs.get? id = some run → run.status.terminal = false →
    run.parentRun = some parent →
      ∃ row, runs.get? parent = some row ∧ row.status.terminal = false

def Fresh (before after : RunTable) : Prop :=
  ∀ id run parent row, after.get? id = some run → run.status.terminal = false →
    run.parentRun = some parent → before.get? parent = some row → row.status.terminal = false →
      ∃ later, after.get? parent = some later ∧ later.status.terminal = false

def Stays (before after : RunTable) : Prop :=
  ∀ id row, before.get? id = some row → ∃ later, after.get? id = some later

theorem Stays.trans {middle : RunTable} (one : Stays before middle) (two : Stays middle after) :
    Stays before after := by
  intro id row stored
  obtain ⟨between, found⟩ := one id row stored
  exact two id between found

theorem stays_updateWhere (runs : RunTable) (condition : Run → Bool)
    (set : Table.Change Run.id) : Stays runs (runs.updateWhere condition set) := by
  intro id row stored
  exact ⟨_, by rw [Table.get?_updateWhere, stored, Option.map_some]⟩

theorem Shallow.ages (shallow : Shallow before) (ages : Ages before after) : Shallow after := by
  intro id run parent found child
  obtain ⟨row, stored, aged⟩ := ages.origin id run found
  rcases aged.parent with same | lost
  · obtain ⟨drawn, top⟩ := shallow id row parent stored (same ▸ child)
    refine ⟨ages.sequence_eq ▸ drawn, ?_⟩
    intro later atParent
    obtain ⟨old, storedParent, agedParent⟩ := ages.origin parent later atParent
    rcases agedParent.parent with kept | gone
    · rw [kept]
      exact top old storedParent
    · exact gone
  · rw [lost] at child
    cases child

theorem RowAges.live {row later : Run} (aged : RowAges row later)
    (live : later.status.terminal = false) : row.status.terminal = false := by
  rw [Bool.eq_false_iff]
  intro ended
  rw [aged.ended ended] at live
  cases live

theorem Orphanless.ages (orphanless : Orphanless before) (ages : Ages before after)
    (fresh : Fresh before after) : Orphanless after := by
  intro id run parent found live child
  obtain ⟨old, stored, aged⟩ := ages.origin id run found
  have same : old.parentRun = some parent := by
    rcases aged.parent with kept | lost
    · exact kept ▸ child
    · rw [lost] at child
      cases child
  obtain ⟨row, atParent, above⟩ := orphanless id old parent stored (aged.live live) same
  exact fresh id run parent row found live child atParent above

theorem fresh_of_status (stays : Stays before after)
    (same : ∀ id later, after.get? id = some later → later.status.terminal = true →
      ∃ row, before.get? id = some row ∧ row.status.terminal = true) : Fresh before after := by
  intro _ _ parent row _ _ _ stored live
  obtain ⟨later, found⟩ := stays parent row stored
  refine ⟨later, found, ?_⟩
  rw [Bool.eq_false_iff]
  intro ended
  obtain ⟨old, atOld, stopped⟩ := same parent later found ended
  rw [stored] at atOld
  cases atOld
  rw [stopped] at live
  cases live

theorem fresh_refl (runs : RunTable) : Fresh runs runs :=
  fresh_of_status (fun _ row stored => ⟨row, stored⟩) fun _ row found ended => ⟨row, found, ended⟩

/-- Every run that has not ended, and whose parent is among these, is so itself. -/
def Alone (runs : RunTable) (ids : List Nat) : Prop :=
  ∀ child ∈ runs.rows, child.status.terminal = false → ∀ parent, child.parentRun = some parent →
    parent ∈ ids → child.id ∈ ids

/-- The runs of a list have been ended, and no other row is touched. -/
structure Ended (before after : RunTable) (ids : List Nat) : Prop where
  ages : Ages before after
  stays : Stays before after
  rows : ∀ id run, after.get? id = some run →
    id ∈ ids ∧ run.status.terminal = true ∨ id ∉ ids ∧ before.get? id = some run

theorem Ended.fresh (ended : Ended before after ids) (alone : Alone before ids) :
    Fresh before after := by
  intro id run parent row found live child stored above
  obtain ⟨later, atParent⟩ := ended.stays parent row stored
  refine ⟨later, atParent, ?_⟩
  rcases ended.rows parent later atParent with ⟨listed, _⟩ | ⟨_, same⟩
  · rcases ended.rows id run found with ⟨_, stopped⟩ | ⟨unlisted, unchanged⟩
    · rw [stopped] at live
      cases live
    · obtain ⟨present, rfl⟩ := Table.get?_eq_some.mp unchanged
      exact absurd (alone run present live parent child listed) unlisted
  · rw [stored] at same
    cases same
    exact above

theorem Ended.terminal (ended : Ended before after ids) (listed : id ∈ ids) (run : Run)
    (found : after.get? id = some run) : run.status.terminal = true := by
  rcases ended.rows id run found with ⟨_, stopped⟩ | ⟨unlisted, _⟩
  · exact stopped
  · exact absurd listed unlisted

theorem Ended.other (ended : Ended before after ids) (unlisted : id ∉ ids)
    (found : after.get? id = some run) : before.get? id = some run :=
  (ended.rows id run found).resolve_left (fun among => unlisted among.1) |>.2

variable {condition : Run → Bool} {change : Table.Change Run.id}

theorem ended_updateWhere (matched : ∀ row ∈ runs.rows, condition row = true ↔ row.id ∈ ids)
    (terminal : ∀ row, (change.apply row).status.terminal = true)
    (parent : ∀ row, (change.apply row).parentRun = row.parentRun) :
    Ended runs (runs.updateWhere condition change) ids := by
  refine ⟨?_, stays_updateWhere runs condition change, ?_⟩
  · exact Table.derives_updateWhere RowAges.refl fun row _ _ =>
      ⟨.inl (parent row), fun _ => terminal row⟩
  · intro id run found
    rw [Table.get?_updateWhere, Option.map_eq_some_iff] at found
    obtain ⟨row, stored, is⟩ := found
    obtain ⟨present, rfl⟩ := Table.get?_eq_some.mp stored
    by_cases listed : row.id ∈ ids
    · rw [if_pos ((matched row present).mpr listed)] at is
      exact .inl ⟨listed, is ▸ terminal row⟩
    · rw [if_neg fun meets => listed ((matched row present).mp meets)] at is
      exact .inr ⟨listed, is ▸ stored⟩

theorem failActive_ended (runs : RunTable) (ids : List Nat) (now : Int) :
    Ended runs (RunStatus.failActive runs ids now) ids :=
  ended_updateWhere (fun _ _ => decide_eq_true_iff) (fun _ => rfl) fun _ => rfl

theorem cleanupStale_ended (runs : RunTable) (ids : List Nat) (now : Int) :
    Ended runs (RunStatus.cleanupStale runs ids now) ids :=
  ended_updateWhere (fun _ _ => decide_eq_true_iff) (fun _ => rfl) fun _ => rfl

theorem mem_expiredIds {now : Int} : id ∈ expiredIds runs now ↔
    ∃ row ∈ runs.rows, row.id = id ∧ row.status.active = true ∧
      row.resumeBy.any (decide <| · < now) = true := by
  simp only [expiredIds, List.mem_map, Table.mem_select, Bool.and_eq_true]
  constructor
  · rintro ⟨row, ⟨present, facts⟩, same⟩
    exact ⟨row, present, same, facts⟩
  · rintro ⟨row, present, same, facts⟩
    exact ⟨row, ⟨present, facts⟩, same⟩

theorem cleanupExpired_ended (runs : RunTable) (now : Int) :
    Ended runs (RunStatus.cleanupExpired runs now) (expiredIds runs now) := by
  refine ended_updateWhere ?_ (fun _ => rfl) fun _ => rfl
  intro row present
  rw [mem_expiredIds, Bool.and_eq_true]
  constructor
  · exact fun facts => ⟨row, present, rfl, facts⟩
  · rintro ⟨other, stored, same, facts⟩
    rwa [List.inj_on_of_nodup_map runs.distinct stored present same] at facts

structure Steady (before after : RunTable) : Prop where
  derives : Table.Derives (fun row later : Run =>
    later.status.terminal = row.status.terminal ∧ later.parentRun = row.parentRun ∧
      (later.resumeBy.isSome = true → row.resumeBy.isSome = true)) before after
  stays : Stays before after

theorem Steady.ages (steady : Steady before after) : Ages before after where
  sequence_eq := steady.derives.sequence_eq
  origin := by
    intro id later found
    obtain ⟨row, stored, status, parent, _⟩ := steady.derives.origin id later found
    exact ⟨row, stored, .inl parent, fun ended => status ▸ ended⟩

theorem Steady.fresh (steady : Steady before after) : Fresh before after := by
  apply fresh_of_status steady.stays
  intro id row found ended
  obtain ⟨old, stored, status, _⟩ := steady.derives.origin id row found
  exact ⟨old, stored, status ▸ ended⟩

theorem Steady.needs (steady : Steady before after) (found : after.get? id = some run)
    (needs : run.status.terminal = true ∨ run.resumeBy.isSome = true) :
    ∃ row, before.get? id = some row ∧
      (row.status.terminal = true ∨ row.resumeBy.isSome = true) := by
  obtain ⟨row, stored, status, _, waits⟩ := steady.derives.origin id run found
  exact ⟨row, stored, needs.imp (fun ended => status ▸ ended) waits⟩

theorem Steady.refl (runs : RunTable) : Steady runs runs :=
  ⟨Table.Derives.refl (fun _ => ⟨rfl, rfl, id⟩) runs, fun _ row stored => ⟨row, stored⟩⟩

theorem steady_updateWhere (moves : ∀ row ∈ runs.rows, condition row = true →
    (change.apply row).status.terminal = row.status.terminal ∧
      (change.apply row).parentRun = row.parentRun ∧
      ((change.apply row).resumeBy.isSome = true → row.resumeBy.isSome = true)) :
    Steady runs (runs.updateWhere condition change) :=
  ⟨Table.derives_updateWhere (fun _ => ⟨rfl, rfl, id⟩) moves, stays_updateWhere _ _ _⟩

theorem failExecutions_steady (runs : RunTable) (condition : Run → Bool) :
    Steady runs (failExecutions runs condition) :=
  steady_updateWhere fun _ _ _ => ⟨rfl, rfl, id⟩

theorem steady_update (stored : runs.get? id = some run)
    (moves : (change.apply run).status.terminal = run.status.terminal ∧
      (change.apply run).parentRun = run.parentRun ∧
      ((change.apply run).resumeBy.isSome = true → run.resumeBy.isSome = true)) :
    Steady runs (runs.update id change) := by
  apply steady_updateWhere
  intro row present meets
  have same := Table.get?_of_mem present
  rw [of_decide_eq_true meets, stored] at same
  cases same
  exact moves

def Task.pending : Task → List Nat
  | .failActiveSteps ids => ids
  | .markAwaiting _ _ updated _ => updated
  | _ => []

/-- The runs that the path has ended, and whose steps it has not closed. -/
def Task.ended : Task → List Nat
  | .failActiveSteps ids => ids
  | .markAwaiting _ _ _ expired => expired
  | _ => []

/-- The runs that the path has read, and will end without another look. -/
def Task.listed : Task → List Nat
  | .failActive ids _ => ids
  | .cleanupStale ids _ => ids
  | task => task.ended

structure Task.Sound (task : Task) (runs : RunTable) : Prop where
  drawn : ∀ id ∈ task.listed, id < runs.sequence
  ended : ∀ id ∈ task.ended, ∀ run, runs.get? id = some run → run.status.terminal = true
  closes : task.ended ⊆ task.pending

def pendings (tasks : List Task) : List Nat := tasks.flatMap Task.pending

/-- A running step of a run that has ended or waits for a resume will be closed. -/
def Covered (runs : RunTable) (steps : List (RunStep Json)) (pending : List Nat) : Prop :=
  ∀ step ∈ steps, step.status = .running → ∀ run, runs.get? step.run = some run →
    run.status.terminal = true ∨ run.resumeBy.isSome = true → step.run ∈ pending

structure Still (runs : RunTable) (steps : List (RunStep Json)) (id : Nat) : Prop where
  drawn : id < runs.sequence
  ended : ∀ run, runs.get? id = some run → run.status.terminal = true
  closed : ∀ step ∈ steps, step.run = id → step.status ≠ .running

structure World.Sound (world : World Json) : Prop where
  shallow : Shallow world.runs
  orphanless : Orphanless world.runs
  covered : Covered world.runs world.steps (pendings world.tasks)
  tasks : ∀ task ∈ world.tasks, task.Sound world.runs
  settled : ∀ id ∈ world.settled, Still world.runs world.steps id

variable {world next : World Json} {task : Task} {steps more : List (RunStep Json)}

theorem Task.Sound.ages (sound : task.Sound before) (ages : Ages before after) :
    task.Sound after := by
  refine ⟨fun id member => ages.sequence_eq ▸ sound.drawn id member, ?_, sound.closes⟩
  intro id member run found
  obtain ⟨row, stored, aged⟩ := ages.origin id run found
  exact aged.ended (sound.ended id member row stored)

theorem Still.ages (still : Still before steps id) (ages : Ages before after)
    (kept : ∀ step ∈ more, step.status = .running → step.run = id → step ∈ steps) :
    Still after more id := by
  refine ⟨ages.sequence_eq ▸ still.drawn, ?_, ?_⟩
  · intro run found
    obtain ⟨row, stored, aged⟩ := ages.origin id run found
    exact aged.ended (still.ended row stored)
  · intro step member same running
    exact still.closed step (kept step member running same) same running

theorem World.Sound.advance (sound : world.Sound) (ages : Ages world.runs next.runs)
    (fresh : Fresh world.runs next.runs)
    (covered : Covered next.runs next.steps (pendings next.tasks))
    (tasks : ∀ task ∈ next.tasks, task ∈ world.tasks ∨ task.Sound next.runs)
    (steps : ∀ step ∈ next.steps, step.status = .running → step.run ∈ world.settled →
      step ∈ world.steps)
    (settled : ∀ id ∈ next.settled, id ∈ world.settled ∨ Still next.runs next.steps id) :
    next.Sound where
  shallow := sound.shallow.ages ages
  orphanless := sound.orphanless.ages ages fresh
  covered := covered
  tasks := by
    intro task member
    rcases tasks task member with old | new
    · exact (sound.tasks task old).ages ages
    · exact new
  settled := by
    intro id member
    rcases settled id member with old | new
    · apply (sound.settled id old).ages ages
      intro step present running same
      exact steps step present running (same ▸ old)
    · exact new

theorem failRunningSteps_running {status : StepStatus} (closing : status ≠ .running)
    {step : RunStep Json} (member : step ∈ failRunningSteps steps ids status)
    (running : step.status = .running) : step ∈ steps ∧ step.run ∉ ids := by
  obtain ⟨old, present, is⟩ := List.mem_map.mp member
  split at is
  · rw [← is] at running
    exact absurd running closing
  · rename_i other
    rw [← is] at running ⊢
    exact ⟨present, fun listed => other ⟨listed, running⟩⟩

theorem failRunningSteps_still {status : StepStatus} (closing : status ≠ .running)
    (drawn : id < runs.sequence)
    (ended : ∀ run, runs.get? id = some run → run.status.terminal = true) (listed : id ∈ ids) :
    Still runs (failRunningSteps steps ids status) id := by
  refine ⟨drawn, ended, ?_⟩
  intro step member same running
  exact (failRunningSteps_running closing member running).2 (same ▸ listed)

theorem mem_pendings_settle {index : Nat} (current : world.tasks[index]? = some task)
    (nextTask : Option Task) (member : id ∈ pendings world.tasks) :
    id ∈ task.pending ∨ id ∈ pendings (TaskPool.settle world.tasks index nextTask) := by
  obtain ⟨rest, whole, settled⟩ := TaskPool.settle_perm current nextTask
  obtain ⟨other, present, waits⟩ := List.mem_flatMap.mp member
  rcases List.mem_cons.mp (whole.mem_iff.mp present) with same | stays
  · exact .inl (same ▸ waits)
  · right
    exact List.mem_flatMap.mpr
      ⟨other, settled.mem_iff.mpr (List.mem_append_right _ stays), waits⟩

theorem mem_pendings_next {index : Nat} (current : world.tasks[index]? = some task)
    {nextTask : Task} (member : id ∈ nextTask.pending) :
    id ∈ pendings (TaskPool.settle world.tasks index (some nextTask)) := by
  obtain ⟨rest, _, settled⟩ := TaskPool.settle_perm current (some nextTask)
  exact List.mem_flatMap.mpr
    ⟨nextTask, settled.mem_iff.mpr (List.mem_append_left _ (List.mem_singleton_self _)), member⟩

end SourceLens.RunClosing
