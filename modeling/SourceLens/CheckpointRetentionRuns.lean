import SourceLens.CheckpointRetention

/-! Which histories keep the checkpoints: those where a stamp is never older than the
last time its run executed. -/

namespace SourceLens.CheckpointRetention

open Transition List

variable {ttl : Int} {world next : World} {action : Action} {row : Metadata} {runUuid : Nat}

variable {now : Int} {active : List Nat} {broken : Option Nat}

def World.StoppedBy (world : World) (runUuid : Nat) (time : Int) : Prop :=
  ∀ last, world.stopped runUuid = some last → last ≤ time

/-- The run of the row has executed, and its stamp, if it is not executing now, is from
after that. -/
structure Metadata.Sound (row : Metadata) (world : World) : Prop where
  known : row.runUuid ∈ world.running ∨ (world.stopped row.runUuid).isSome
  stamped : row.runUuid ∉ world.running → ∀ stamp, row.orphanedAt = some stamp →
    world.StoppedBy row.runUuid stamp

structure World.Sound (world : World) : Prop where
  workers : ∀ runUuid ∈ world.workers,
    runUuid ∈ world.running ∨ (world.stopped runUuid).isSome
  rows : ∀ row ∈ world.metadata, row.Sound world
  past : ∀ runUuid, world.StoppedBy runUuid world.clock
  read : ∀ active now, world.pass = .clocked active now → now ≤ world.clock

theorem World.sound_initial : World.initial.Sound := by
  refine ⟨?_, ?_, ?_, ?_⟩
  · rintro _ ⟨⟩
  · rintro _ ⟨⟩
  · intro _ last stopped
    cases stopped
  · intro active now pass
    cases pass

theorem expired_eq_false {time : Int} (current : row.expired time = false) (stamp : Int)
    (stamped : row.orphanedAt = some stamp) : time ≤ stamp := by
  rw [Metadata.expired, stamped] at current
  exact Int.not_lt.mp (of_decide_eq_false current)

theorem expired_eq_true {time : Int} (expired : row.expired time = true) :
    ∃ stamp, row.orphanedAt = some stamp ∧ stamp < time := by
  obtain ⟨stamp, stamped, before⟩ := (Option.any_eq_true _ _).mp expired
  exact ⟨stamp, stamped, of_decide_eq_true before⟩

theorem Metadata.Sound.cleared (sound : row.Sound world) :
    ({ row with orphanedAt := none } : Metadata).Sound world :=
  ⟨sound.known, fun _ _ stamped => nomatch stamped⟩

theorem Metadata.Sound.stampOrphan (sound : row.Sound world)
    (late : row.runUuid ∉ world.running → row.orphanedAt = none → world.StoppedBy row.runUuid now) :
    (stampOrphan now row).Sound world := by
  rw [CheckpointRetention.stampOrphan]
  split
  · rename_i unstamped
    refine ⟨sound.known, ?_⟩
    intro idle stamp stamped
    cases stamped
    exact late idle (Option.isNone_iff_eq_none.mp unstamped)
  · exact sound

theorem Metadata.Sound.congr (sound : row.Sound world) (running : next.running = world.running)
    (stopped : next.stopped = world.stopped) : row.Sound next := by
  refine ⟨?_, ?_⟩
  · rw [running, stopped]
    exact sound.known
  · intro idle stamp stamped time at'
    rw [running] at idle
    rw [stopped] at at'
    exact sound.stamped idle stamp stamped time at'

theorem World.Sound.replaced (sound : world.Sound) (opened : Bool) (pass : Pass)
    (metadata : List Metadata) (threads : List Nat)
    (rows : ∀ row ∈ metadata, row.Sound world)
    (read : ∀ active now, pass = .clocked active now → now ≤ world.clock) :
    ({ world with opened, pass, metadata, threads } : World).Sound :=
  ⟨sound.workers, fun row member => (rows row member).congr rfl rfl, sound.past, read⟩

theorem openSaver_sound (sound : world.Sound) : (openSaver world).Sound := by
  apply sound.replaced true world.pass _ world.threads _ sound.read
  intro row member
  obtain ⟨old, present, rfl⟩ := mem_map.mp member
  exact (sound.rows old present).stampOrphan fun _ _ => sound.past old.runUuid

theorem saveResumeMetadata_sound (sound : world.Sound) (worker : runUuid ∈ world.workers) :
    (saveResumeMetadata world runUuid).Sound := by
  apply sound.replaced world.opened world.pass _ world.threads _ sound.read
  intro row member
  split at member
  · obtain ⟨old, present, rfl⟩ := mem_map.mp member
    split
    · exact (sound.rows old present).cleared
    · exact sound.rows old present
  · rcases mem_append.mp member with old | new
    · exact sound.rows row old
    · rw [mem_singleton.mp new]
      exact ⟨sound.workers runUuid worker, fun _ _ stamped => nomatch stamped⟩

theorem cleanupRunCheckpoint_sound (sound : world.Sound) (runUuid : Nat) :
    (cleanupRunCheckpoint world runUuid).Sound := by
  apply sound.replaced world.opened world.pass _ _ _ sound.read
  intro row member
  exact sound.rows row ((mem_filter.mp member).1)

theorem start_sound (sound : world.Sound) (runUuid : Nat) :
    ({ world with
      running := world.running ++ [runUuid]
      workers := world.workers ++ [runUuid] } : World).Sound := by
  refine ⟨?_, ?_, sound.past, sound.read⟩
  · intro other member
    rcases mem_append.mp member with old | new
    · exact (sound.workers other old).imp_left (mem_append_left _)
    · exact .inl (mem_append_right _ new)
  · intro row member
    have old := sound.rows row member
    refine ⟨old.known.imp_left (mem_append_left _), ?_⟩
    intro idle
    exact old.stamped fun executing => idle (mem_append_left _ executing)

theorem stopRuns_sound (sound : world.Sound) (ends : Nat → Bool)
    (current : ∀ row ∈ world.metadata, row.runUuid ∈ world.running → ends row.runUuid = true →
      row.expired world.clock = false) : (stopRuns world ends).Sound := by
  have last : ∀ runUuid, runUuid ∈ world.running → ends runUuid = true →
      (stopRuns world ends).stopped runUuid = some world.clock :=
    fun _ executing ended => if_pos ⟨executing, ended⟩
  have kept : ∀ runUuid, ¬ (runUuid ∈ world.running ∧ ends runUuid = true) →
      (stopRuns world ends).stopped runUuid = world.stopped runUuid :=
    fun _ still => if_neg still
  have known : ∀ runUuid, runUuid ∈ world.running ∨ (world.stopped runUuid).isSome →
      runUuid ∈ (stopRuns world ends).running ∨
        ((stopRuns world ends).stopped runUuid).isSome := by
    intro runUuid before
    by_cases ended : runUuid ∈ world.running ∧ ends runUuid = true
    · rw [last runUuid ended.1 ended.2]
      exact .inr rfl
    · rw [kept runUuid ended]
      refine before.imp_left fun executing => mem_filter.mpr ⟨executing, ?_⟩
      simpa [executing] using ended
  refine ⟨fun runUuid worker => known runUuid (sound.workers runUuid worker), ?_, ?_, sound.read⟩
  · intro row member
    refine ⟨known row.runUuid (sound.rows row member).known, ?_⟩
    intro idle stamp stamped time at'
    by_cases ended : row.runUuid ∈ world.running ∧ ends row.runUuid = true
    · have late := expired_eq_false (current row member ended.1 ended.2) stamp stamped
      rw [last row.runUuid ended.1 ended.2] at at'
      cases at'
      exact late
    · have was : row.runUuid ∉ world.running := fun executing =>
        idle (mem_filter.mpr ⟨executing, by simpa [executing] using ended⟩)
      rw [kept row.runUuid ended] at at'
      exact (sound.rows row member).stamped was stamp stamped time at'
  · intro runUuid time at'
    by_cases ended : runUuid ∈ world.running ∧ ends runUuid = true
    · rw [last runUuid ended.1 ended.2] at at'
      cases at'
      exact Int.le_refl _
    · rw [kept runUuid ended] at at'
      exact sound.past runUuid time at'

theorem finish_sound (sound : world.Sound)
    (current : Current ttl world (.finish runUuid)) :
    (stopRuns world (decide <| · = runUuid)).Sound := by
  apply stopRuns_sound sound
  intro row member _ ended
  exact current row member (of_decide_eq_true ended)

theorem crash_sound (sound : world.Sound) (current : Current ttl world .crash) :
    (crash world).Sound := by
  have stops := stopRuns_sound sound (fun _ => true) fun row member executing _ =>
    current row member executing
  refine ⟨?_, fun row member => (stops.rows row member).congr rfl rfl, stops.past, ?_⟩
  · rintro _ ⟨⟩
  · intro active now pass
    cases pass

theorem mem_expiredRuns {metadata : List Metadata} {cutoff : Int} :
    runUuid ∈ expiredRuns metadata active cutoff ↔
      ∃ row ∈ metadata, row.runUuid = runUuid ∧ runUuid ∉ active ∧ row.expired cutoff = true := by
  rw [expiredRuns, mem_map]
  constructor
  · rintro ⟨row, member, rfl⟩
    have facts := mem_filter.mp member
    simp only [Bool.and_eq_true, decide_eq_true_eq] at facts
    exact ⟨row, facts.1, rfl, facts.2⟩
  · rintro ⟨row, present, rfl, unlisted, expired⟩
    refine ⟨row, mem_filter.mpr ⟨present, ?_⟩, rfl⟩
    simp only [unlisted, expired, not_false_eq_true, decide_true, Bool.and_self]

theorem sweptRow_sound (sound : row.Sound world)
    (late : row.runUuid ∉ active → row.runUuid ∉ world.running → row.orphanedAt = none →
      world.StoppedBy row.runUuid now) : (sweptRow active now row).Sound world := by
  rw [sweptRow]
  split
  · exact sound.cleared
  · rename_i unlisted
    exact sound.stampOrphan (late unlisted)

theorem Current.sweep (current : Current ttl world (.sweep broken))
    (clocked : world.pass = .clocked active now) (member : row ∈ world.metadata)
    (unlisted : row.runUuid ∉ active) :
    (row.runUuid ∈ world.running → row.expired (now - ttl) = false) ∧
      (row.runUuid ∉ world.running → row.orphanedAt = none →
        world.StoppedBy row.runUuid now) := by
  simp only [Current, clocked] at current
  have facts := current row member unlisted
  constructor
  · intro executing
    rwa [if_pos executing] at facts
  · intro idle unstamped time at'
    rw [if_neg idle] at facts
    have before := facts unstamped
    rw [at'] at before
    exact of_decide_eq_true before

theorem cleanupExpiredCheckpoints_sound (sound : world.Sound)
    (clocked : world.pass = .clocked active now) (current : Current ttl world (.sweep broken)) :
    (cleanupExpiredCheckpoints ttl world active now broken).Sound := by
  have rows : ∀ row ∈ world.metadata.map (sweptRow active now), row.Sound world := by
    intro row member
    obtain ⟨old, present, rfl⟩ := mem_map.mp member
    apply sweptRow_sound (sound.rows old present)
    intro unlisted
    exact (current.sweep clocked present unlisted).2
  cases broken with
  | none =>
    apply sound.replaced world.opened .sleeping _ _ _ fun _ _ pass => nomatch pass
    exact fun row member => rows row ((mem_filter.mp member).1)
  | some index =>
    exact sound.replaced world.opened .sleeping _ _ rows fun _ _ pass => nomatch pass

theorem stampOrphan_runUuid (now : Int) (row : Metadata) :
    (stampOrphan now row).runUuid = row.runUuid := by
  rw [stampOrphan]
  split <;> rfl

theorem sweptRow_runUuid (active : List Nat) (now : Int) (row : Metadata) :
    (sweptRow active now row).runUuid = row.runUuid := by
  rw [sweptRow]
  split
  · rfl
  · exact stampOrphan_runUuid now row

theorem map_runUuid {change : Metadata → Metadata}
    (keeps : ∀ row, (change row).runUuid = row.runUuid) (metadata : List Metadata) :
    (metadata.map change).map (·.runUuid) = metadata.map (·.runUuid) := by
  rw [map_map]
  exact map_congr_left fun row _ => keeps row

theorem openSaver_keeps (runUuid : Nat) : Keeps world (openSaver world) runUuid := by
  refine ⟨id, fun had => ?_⟩
  rwa [← map_runUuid (stampOrphan_runUuid world.clock)] at had

theorem saveResumeMetadata_keeps (saved runUuid : Nat) :
    Keeps world (saveResumeMetadata world saved) runUuid := by
  refine ⟨id, fun had => ?_⟩
  rw [saveResumeMetadata]
  dsimp only
  split
  · rw [map_runUuid]
    · exact had
    · intro row
      split <;> rfl
  · rw [map_append]
    exact mem_append_left _ had

theorem cleanupRunCheckpoint_keeps {acknowledged : Nat} (other : runUuid ≠ acknowledged) :
    Keeps world (cleanupRunCheckpoint world acknowledged) runUuid := by
  refine ⟨fun had => mem_filter.mpr ⟨had, decide_eq_true other⟩, fun had => ?_⟩
  obtain ⟨row, member, rfl⟩ := mem_map.mp had
  exact mem_map.mpr ⟨row, mem_filter.mpr ⟨member, decide_eq_true other⟩, rfl⟩

theorem cleanupExpiredCheckpoints_keeps (broken : Option Nat)
    (fresh : runUuid ∉ expiredRuns world.metadata active (now - ttl)) :
    Keeps world (cleanupExpiredCheckpoints ttl world active now broken) runUuid := by
  have rows := map_runUuid (sweptRow_runUuid active now) world.metadata
  cases broken with
  | none =>
    refine ⟨fun had => mem_filter.mpr ⟨had, decide_eq_true fresh⟩, fun had => ?_⟩
    rw [← rows] at had
    obtain ⟨row, member, rfl⟩ := mem_map.mp had
    exact mem_map.mpr ⟨row, mem_filter.mpr ⟨member, decide_eq_true fresh⟩, rfl⟩
  | some index =>
    refine ⟨fun had => mem_filter.mpr ⟨had, decide_eq_true fun first => fresh ?_⟩, ?_⟩
    · exact mem_of_mem_take first
    · intro had
      rwa [← rows] at had

/-- An expired run has not executed for `ttl`. -/
theorem expiredRuns_idle (sound : world.Sound) (clocked : world.pass = .clocked active now)
    (current : Current ttl world (.sweep broken))
    (expired : runUuid ∈ expiredRuns world.metadata active (now - ttl)) :
    runUuid ∉ world.running ∧ ∃ time, world.stopped runUuid = some time ∧
      time + ttl ≤ world.clock := by
  obtain ⟨row, member, rfl, unlisted, expired⟩ := mem_expiredRuns.mp expired
  have idle : row.runUuid ∉ world.running := by
    intro executing
    exact nomatch expired.symm.trans ((current.sweep clocked member unlisted).1 executing)
  have sound' := sound.rows row member
  obtain ⟨time, stopped⟩ := Option.isSome_iff_exists.mp (sound'.known.resolve_left idle)
  obtain ⟨stamp, stamped, before⟩ := expired_eq_true expired
  have after : time ≤ stamp := sound'.stamped idle stamp stamped time stopped
  have read : now ≤ world.clock := sound.read active now clocked
  exact ⟨idle, time, stopped, by omega⟩

theorem step_sound (sound : world.Sound) (current : Current ttl world action)
    (taken : step ttl world action = some next) : next.Sound := by
  cases action with
  | tick seconds =>
    cases taken
    refine ⟨sound.workers, fun row member => (sound.rows row member).congr rfl rfl, ?_, ?_⟩
    · intro runUuid time stopped
      have before := sound.past runUuid time stopped
      change time ≤ world.clock + seconds
      omega
    · intro active now pass
      have before := sound.read active now pass
      change now ≤ world.clock + seconds
      omega
  | start runUuid =>
    simp only [step, Option.ite_none_left_eq_some, Option.some.injEq] at taken
    rw [← taken.2]
    exact start_sound sound runUuid
  | openSaver =>
    simp only [step, Option.ite_none_left_eq_some, Option.some.injEq] at taken
    rw [← taken.2]
    exact openSaver_sound sound
  | saveResumeMetadata runUuid =>
    simp only [step, Option.ite_none_right_eq_some, Bool.and_eq_true, decide_eq_true_eq,
      Option.some.injEq] at taken
    rw [← taken.2]
    exact saveResumeMetadata_sound sound taken.1.2
  | saveCheckpoint runUuid =>
    simp only [step, Option.ite_none_right_eq_some, Option.some.injEq] at taken
    rw [← taken.2]
    exact sound.replaced world.opened world.pass world.metadata _ sound.rows sound.read
  | finish runUuid =>
    simp only [step, Option.ite_none_right_eq_some, Option.some.injEq] at taken
    rw [← taken.2]
    exact finish_sound sound current
  | acknowledge runUuid =>
    simp only [step, Option.ite_none_right_eq_some, Option.some.injEq] at taken
    rw [← taken.2]
    exact cleanupRunCheckpoint_sound sound runUuid
  | crash =>
    cases taken
    exact crash_sound sound current
  | listActive =>
    rw [step] at taken
    split at taken <;> cases taken
    exact sound.replaced world.opened _ world.metadata world.threads sound.rows
      fun _ _ pass => nomatch pass
  | readClock =>
    rw [step] at taken
    split at taken
    · simp only [Option.ite_none_right_eq_some, Option.some.injEq] at taken
      rw [← taken.2]
      apply sound.replaced world.opened _ world.metadata world.threads sound.rows
      intro active now pass
      cases pass
      exact Int.le_refl _
    · cases taken
  | sweep broken =>
    rw [step] at taken
    split at taken
    · rename_i active now clocked
      cases taken
      exact cleanupExpiredCheckpoints_sound sound clocked current
    · cases taken

theorem step_retains (sound : world.Sound) (current : Current ttl world action) :
    Retains ttl world action := by
  intro next taken runUuid
  cases action with
  | tick _ | crash =>
    cases taken
    exact .inl ⟨id, id⟩
  | start _ =>
    simp only [step, Option.ite_none_left_eq_some, Option.some.injEq] at taken
    rw [← taken.2]
    exact .inl ⟨id, id⟩
  | openSaver =>
    simp only [step, Option.ite_none_left_eq_some, Option.some.injEq] at taken
    rw [← taken.2]
    exact .inl (openSaver_keeps runUuid)
  | saveResumeMetadata saved =>
    simp only [step, Option.ite_none_right_eq_some, Option.some.injEq] at taken
    rw [← taken.2]
    exact .inl (saveResumeMetadata_keeps saved runUuid)
  | saveCheckpoint saved =>
    simp only [step, Option.ite_none_right_eq_some, Option.some.injEq] at taken
    rw [← taken.2]
    exact .inl ⟨fun had => mem_append_left _ had, id⟩
  | finish _ =>
    simp only [step, Option.ite_none_right_eq_some, Option.some.injEq] at taken
    rw [← taken.2]
    exact .inl ⟨id, id⟩
  | acknowledge acknowledged =>
    simp only [step, Option.ite_none_right_eq_some, Option.some.injEq] at taken
    rw [← taken.2]
    by_cases same : runUuid = acknowledged
    · exact .inr (.inl (same ▸ rfl))
    · exact .inl (cleanupRunCheckpoint_keeps same)
  | listActive =>
    rw [step] at taken
    split at taken <;> cases taken
    exact .inl ⟨id, id⟩
  | readClock =>
    rw [step] at taken
    split at taken
    · simp only [Option.ite_none_right_eq_some, Option.some.injEq] at taken
      rw [← taken.2]
      exact .inl ⟨id, id⟩
    · cases taken
  | sweep broken =>
    rw [step] at taken
    split at taken
    · rename_i active now clocked
      cases taken
      by_cases expired : runUuid ∈ expiredRuns world.metadata active (now - ttl)
      · exact .inr (.inr (expiredRuns_idle sound clocked current expired))
      · exact .inl (cleanupExpiredCheckpoints_keeps broken expired)
    · cases taken

/-- Along every history whose steps meet the condition, no checkpoint of an executing run
is deleted, and none before the run has been stopped for `ttl`. -/
theorem checkpoints_retained {actions : List Action} {finish : World}
    (run : Steps (step ttl) (Current ttl) World.initial actions finish) :
    Steps (step ttl) (Retains ttl) World.initial actions finish := by
  apply run.implied World.Sound _ _ World.sound_initial
  · exact fun _ _ _ sound current taken => step_sound sound current taken
  · exact fun _ _ sound current => step_retains sound current

def hour : Nat := 3600

def begun : List Action := [.openSaver, .start 1, .saveResumeMetadata 1, .saveCheckpoint 1]

def pass : List Action := [.listActive, .readClock, .sweep none]

/-- Half a day in two executions with a pass in the second, and two passes more than a
day after the end. -/
def retainedHistory : List Action :=
  begun ++ [.tick (6 * hour), .crash, .openSaver, .start 1, .tick hour] ++ pass ++
    [.tick (5 * hour), .finish 1, .tick hour] ++ pass ++ [.tick (25 * hour)] ++ pass

theorem checkpoints_retained_day :
    ∃ finish, Steps (step (24 * hour)) (Retains (24 * hour)) World.initial retainedHistory finish ∧
      finish.threads = [] := by
  have executed : (execGuarded (step (24 * hour)) (Current (24 * hour)) World.initial
      retainedHistory).any (fun finish => decide (finish.threads = [])) = true := by
    decide +kernel
  obtain ⟨finish, reached, deleted⟩ := (Option.any_eq_true _ _).mp executed
  exact ⟨finish, checkpoints_retained (execGuarded_steps reached), of_decide_eq_true deleted⟩

/-- Passes every hour. The run resumes 23 hours after the restart, and half an hour later
the process restarts again; the stamp of the first restart stays. -/
def resumedHistory : List Action :=
  begun ++ [.tick hour, .crash, .openSaver] ++
    (List.replicate 23 (.tick hour :: pass)).flatten ++
    [.start 1, .tick (hour / 2), .crash, .openSaver, .tick hour, .listActive, .readClock]

/-- The list is taken a day after the restart, just before the run resumes. -/
def overtakenHistory : List Action :=
  begun ++ [.crash, .openSaver, .tick (25 * hour), .listActive, .start 1, .readClock]

/-- An hour after a run has stopped, or while it executes, its checkpoint goes. -/
theorem checkpoint_deleted_early :
    (∃ world next, exec (step (24 * hour)) World.initial resumedHistory = some world ∧
      step (24 * hour) world (.sweep none) = some next ∧ 1 ∈ world.threads ∧ 1 ∉ next.threads ∧
      world.stopped 1 = some (24 * hour + hour / 2) ∧ world.clock = 25 * hour + hour / 2) ∧
    ∃ world next, exec (step (24 * hour)) World.initial overtakenHistory = some world ∧
      step (24 * hour) world (.sweep none) = some next ∧ 1 ∈ world.threads ∧ 1 ∉ next.threads ∧
      1 ∈ world.running := by
  have early : (exec (step (24 * hour)) World.initial resumedHistory).any (fun world =>
      (step (24 * hour) world (.sweep none)).any fun next => decide (1 ∈ world.threads ∧
        1 ∉ next.threads ∧ world.stopped 1 = some (24 * hour + hour / 2) ∧
        world.clock = 25 * hour + hour / 2)) = true := by
    decide +kernel
  have executing : (exec (step (24 * hour)) World.initial overtakenHistory).any (fun world =>
      (step (24 * hour) world (.sweep none)).any fun next => decide (1 ∈ world.threads ∧
        1 ∉ next.threads ∧ 1 ∈ world.running)) = true := by
    decide +kernel
  obtain ⟨world, reached, early⟩ := (Option.any_eq_true _ _).mp early
  obtain ⟨next, swept, early⟩ := (Option.any_eq_true _ _).mp early
  obtain ⟨other, reached', executing⟩ := (Option.any_eq_true _ _).mp executing
  obtain ⟨after, swept', executing⟩ := (Option.any_eq_true _ _).mp executing
  exact ⟨⟨world, next, reached, swept, of_decide_eq_true early⟩,
    other, after, reached', swept', of_decide_eq_true executing⟩

end SourceLens.CheckpointRetention
