import SourceLens.RunClosingTasks

/-! Which interleavings leave nothing of an ended run at work: those in which a statement
that ends runs ends their unfinished children with them. -/

namespace SourceLens.RunClosing

open List Option
open RunStatus (Status Outcome Run LensNode Settings RunTable change)
open Transition

variable {Json : Type} {world next : World Json} {task : Task} {runs after : RunTable}
  {steps : List (RunStep Json)} {id : Nat} {now : Int}

theorem closingStatus_closes (status : Status) : closingStatus status ≠ .running := by
  cases status <;> decide

theorem finishes_fresh {root : Nat} (shallow : Shallow runs) (finishes : Finishes root runs after) :
    Fresh runs after := by
  intro id row parent above found live child atParent open'
  obtain ⟨oldChild, storedChild, aged, _⟩ := finishes.origin id row found
  have nested : id ∈ RunStatus.children runs parent := by
    refine mem_children.mpr ⟨oldChild, storedChild, ?_, aged.live live⟩
    rcases aged.parent with kept | lost
    · exact kept ▸ child
    · rw [lost] at child
      cases child
  by_cases atRoot : parent = root
  · have stopped := finishes.ended id row found (.inr (atRoot ▸ nested))
    rw [stopped] at live
    cases live
  · by_cases below : parent ∈ RunStatus.children runs root
    · exact absurd nested (shallow.childless below id)
    · obtain ⟨later, kept⟩ := finishes.kept parent above atParent open' atRoot below
      obtain ⟨old, stored, _, same⟩ := finishes.origin parent later kept
      rw [atParent] at stored
      cases stored
      exact ⟨later, kept, (same atRoot below).1 ▸ open'⟩

theorem finish_sound {id : Nat} {status : Status} {error : String} {outcome : Option Outcome}
    {manifestValid : Bool} (sound : world.Sound)
    (closing : Closing world (.finish id status error outcome manifestValid now)) :
    (finishLensnodeRun world id status error outcome manifestValid now).Sound := by
  rw [finishLensnodeRun]
  cases stops : terminates world.runs id status error manifestValid now with
  | false =>
    have steady := finishLensnodeRun_steady outcome stops
    rw [if_neg (by decide)]
    exact sound.advance steady.ages steady.fresh
      (fun step member running run found needs =>
        have ⟨row, stored, needed⟩ := steady.needs found needs
        sound.covered step member running row stored needed)
      (fun _ member => .inl member) (fun _ member _ _ => member) fun _ member => .inl member
  | true =>
    obtain ⟨run, stored, is⟩ := finishLensnodeRun_terminates outcome stops
    obtain ⟨present, rfl⟩ := Table.get?_eq_some.mp stored
    have finishes := terminate_finishes sound.shallow stored status error outcome now
    rw [← is] at finishes
    have ages : Ages world.runs _ := ⟨finishes.sequence_eq, fun id row found =>
      have ⟨old, atOld, aged, _⟩ := finishes.origin id row found
      ⟨old, atOld, aged⟩⟩
    have kept : ∀ step ∈ (failRunningSteps world.steps [run.id] (closingStatus status)).filter
        (fun step => ((RunStatus.finishLensnodeRun world.runs run.id status error outcome
          manifestValid now).get? step.run).isSome), step.status = .running →
        step ∈ world.steps ∧ step.run ≠ run.id ∧
          step.run ∉ RunStatus.children world.runs run.id := by
      intro step member running
      obtain ⟨among, stays⟩ := mem_filter.mp member
      obtain ⟨old, other⟩ := failRunningSteps_running (closingStatus_closes status) among running
      refine ⟨old, fun same => other (mem_singleton.mpr same), ?_⟩
      intro child
      have gone := finishes.reaped _ child (closing stops step old running child)
      rw [gone] at stays
      cases stays
    rw [if_pos rfl]
    refine sound.advance ages (finishes_fresh sound.shallow finishes) ?_
      (fun _ member => .inl member) (fun step member running _ => (kept step member running).1) ?_
    · intro step member running later found needs
      obtain ⟨old, other, notChild⟩ := kept step member running
      obtain ⟨row, atRow, _, same⟩ := finishes.origin step.run later found
      obtain ⟨status, resume⟩ := same other notChild
      rw [status, resume] at needs
      exact sound.covered step old running row atRow needs
    · intro id member
      rcases mem_append.mp member with old | new
      · exact .inl old
      · have among := mem_cons.mp new
        refine .inr ⟨?_, fun later found => finishes.ended id later found among, ?_⟩
        · rw [ages.sequence_eq]
          rcases among with rfl | child
          · exact world.runs.drawn run present
          · obtain ⟨row, found, _⟩ := mem_children.mp child
            obtain ⟨inside, rfl⟩ := Table.get?_eq_some.mp found
            exact world.runs.drawn row inside
        · intro step member same running
          obtain ⟨_, other, notChild⟩ := kept step member running
          exact among.elim (fun root => other (same.trans root)) fun child =>
            notChild (same ▸ child)

theorem recordStep_running {event : Event Json} {step : RunStep Json}
    (member : step ∈ recordStep steps id event) (running : step.status = .running) :
    step ∈ steps ∨ step.run = id ∧ event.status = .running := by
  unfold recordStep at member
  simp only at member
  split at member
  · obtain ⟨old, present, is⟩ := mem_map.mp member
    split at is
    · rename_i same
      rw [← is] at running ⊢
      exact .inr ⟨same.1, running⟩
    · exact .inl (is ▸ present)
  · rcases mem_append.mp member with old | new
    · exact .inl old
    · rw [mem_singleton.mp new] at running ⊢
      exact .inr ⟨rfl, running⟩

theorem event_sound (sound : world.Sound) (id : Nat) (event : Event Json) (now : Int) :
    (recordLensnodeRunEvent world id event now).Sound := by
  unfold recordLensnodeRunEvent
  cases stored : world.runs.get? id with
  | none => exact sound
  | some run =>
    by_cases ended : run.status.terminal = true
    · simp only [ended, if_true]
      exact sound
    · simp only [ended, Bool.false_eq_true, if_false]
      have steady : Steady world.runs (world.runs.update id (change (eventRow event now))) := by
        refine steady_update stored ⟨rfl, rfl, ?_⟩
        simp only [change, eventRow]
        split
        · rintro ⟨⟩
        · exact fun waits => waits
      refine sound.advance steady.ages steady.fresh ?_ (fun _ member => .inl member) ?_
        fun _ member => .inl member
      · intro step member running later found needs
        rcases recordStep_running member running with old | ⟨same, opens⟩
        · obtain ⟨row, atRow, needed⟩ := steady.needs found needs
          exact sound.covered step old running row atRow needed
        · -- The event that opens a step ends the wait of its run.
          rw [same, Table.update, Table.get?_updateWhere, stored, map_some] at found
          obtain ⟨_, rfl⟩ := Table.get?_eq_some.mp stored
          simp only [decide_true, if_true, change, eventRow, opens, Option.some.injEq] at found
          rw [← found] at needs
          rcases needs with stopped | waits
          · exact absurd stopped ended
          · cases waits
      · intro step member running settled
        rcases recordStep_running member running with old | ⟨same, _⟩
        · exact old
        · exact absurd ((sound.settled step.run settled).ended run (same ▸ stored)) ended

theorem ended_listed (task : Task) : task.ended ⊆ task.listed := by
  cases task <;> first | exact List.Subset.refl _ | exact nil_subset _

theorem create_sound (sound : world.Sound) (row : Run) (parentRun : Option Nat)
    (above : ∀ parent, parentRun = some parent → ∃ row, world.runs.get? parent = some row ∧
      row.parentRun = none ∧ row.status.terminal = false) :
    ({ world with
      runs := world.runs.create (newRun row parentRun) (newRun_id row _) } : World Json).Sound := by
  have old : ∀ id found, id < world.runs.sequence → (world.runs.create (newRun row parentRun)
      (newRun_id row _)).get? id = some found → world.runs.get? id = some found :=
    fun _ _ inside found => Table.get?_create found inside
  have kept : ∀ id found, world.runs.get? id = some found → (world.runs.create
      (newRun row parentRun) (newRun_id row _)).get? id = some found := by
    intro id found stored
    obtain ⟨present, same⟩ := Table.get?_eq_some.mp stored
    exact Table.get?_eq_some.mpr ⟨mem_append_left _ present, same⟩
  constructor
  · intro id run parent found child
    rcases Table.get?_create_cases (newRun_id row parentRun) found with stored | ⟨_, is⟩
    · obtain ⟨inside, top⟩ := sound.shallow id run parent stored child
      exact ⟨Nat.lt_succ_of_lt inside, fun other atParent => top other (old _ _ inside atParent)⟩
    · obtain ⟨other, atParent, top, _⟩ := above parent (by rw [← child, is]; rfl)
      refine ⟨Nat.lt_succ_of_lt ?_, ?_⟩
      · obtain ⟨present, rfl⟩ := Table.get?_eq_some.mp atParent
        exact world.runs.drawn other present
      · intro same stored
        rw [kept parent other atParent] at stored
        cases stored
        exact top
  · intro id run parent found live child
    rcases Table.get?_create_cases (newRun_id row parentRun) found with stored | ⟨_, is⟩
    · obtain ⟨other, atParent, open'⟩ := sound.orphanless id run parent stored live child
      exact ⟨other, kept parent other atParent, open'⟩
    · obtain ⟨other, atParent, _, open'⟩ := above parent (by rw [← child, is]; rfl)
      exact ⟨other, kept parent other atParent, open'⟩
  · intro step member running run found needs
    rcases Table.get?_create_cases (newRun_id row parentRun) found with stored | ⟨_, is⟩
    · exact sound.covered step member running run stored needs
    · rw [is] at needs
      rcases needs with stopped | waits
      · cases stopped
      · cases waits
  · intro task member
    have own := sound.tasks task member
    refine ⟨fun id listed => Nat.lt_succ_of_lt (own.drawn id listed), ?_, own.closes⟩
    intro id ended run found
    exact own.ended id ended run (old id run (own.drawn id (ended_listed task ended)) found)
  · intro id member
    have still := sound.settled id member
    exact ⟨Nat.lt_succ_of_lt still.drawn,
      fun run found => still.ended run (old id run still.drawn found), still.closed⟩

theorem delegate_sound (sound : world.Sound) (parent : Nat) (row : Run) (accepted : Bool) :
    (createDelegatedRun world parent row accepted).Sound := by
  unfold createDelegatedRun
  cases stored : world.runs.get? parent with
  | none => exact sound
  | some run =>
    simp only
    split
    · rename_i meets
      apply create_sound sound
      rintro _ ⟨⟩
      exact ⟨run, stored, meets.1,
        Bool.eq_false_iff.mpr (RunStatus.Status.active_not_terminal meets.2.1)⟩
    · exact sound

theorem step_sound (action : Action Json) (sound : world.Sound) (closing : Closing world action)
    (taken : step world action = some next) : next.Sound := by
  have same := Steady.refl world.runs
  cases action with
  | call path =>
    cases taken
    refine sound.advance same.ages same.fresh ?_ ?_ (fun _ member _ _ => member)
      fun _ member => .inl member
    · intro step member running run found needs
      have waits := sound.covered step member running run found needs
      simp only [pendings, flatMap_append]
      exact mem_append_left _ waits
    · intro task member
      rcases mem_append.mp member with old | new
      · exact .inl old
      · rw [mem_singleton.mp new]
        exact .inr (sound_of_unlisted rfl rfl)
  | advance index settings clock =>
    obtain ⟨task, current, is⟩ := map_eq_some_iff.mp taken
    exact is ▸ advance_sound sound current closing
  | finish id status error outcome manifestValid now =>
    cases taken
    exact finish_sound sound closing
  | event id event now =>
    cases taken
    exact event_sound sound id event now
  | delegate parent row accepted =>
    cases taken
    exact delegate_sound sound parent row accepted
  | createRun row =>
    cases taken
    exact create_sound sound row none (by rintro _ ⟨⟩)
  | proceed id status startedAt lastActivityAt resumed =>
    simp only [step, ite_none_right_eq_some, Bool.and_eq_true] at taken
    obtain ⟨⟨open', goesOn⟩, is⟩ := taken
    cases is
    obtain ⟨run, stored, unfinished⟩ := (any_eq_true _ _).mp open'
    have steady : Steady world.runs (world.runs.update id
        (proceed status startedAt lastActivityAt resumed)) := by
      refine steady_update stored ⟨?_, rfl, ?_⟩
      · rw [unfinished_eq, Bool.not_eq_true'] at goesOn unfinished
        exact goesOn.trans unfinished.symm
      · simp only [proceed, change]
        split
        · rintro ⟨⟩
        · exact fun waits => waits
    exact sound.advance steady.ages steady.fresh
      (fun step member running run found needs =>
        have ⟨row, atRow, needed⟩ := steady.needs found needs
        sound.covered step member running row atRow needed)
      (fun _ member => .inl member) (fun _ member _ _ => member) fun _ member => .inl member
  | nodes nodes =>
    cases taken
    exact sound.advance same.ages same.fresh sound.covered (fun _ member => .inl member)
      (fun _ member _ _ => member) fun _ member => .inl member

theorem initial_sound : (World.initial : World Json).Sound where
  shallow := by rintro _ _ _ ⟨⟩
  orphanless := by rintro _ _ _ ⟨⟩
  covered := by rintro _ ⟨⟩
  tasks := by rintro _ ⟨⟩
  settled := by rintro _ ⟨⟩

theorem descends_ended (orphanless : Orphanless runs)
    (ended : ∀ run, runs.get? id = some run → run.status.terminal = true) {other : Nat}
    (below : Descends runs id other) : ∀ run, runs.get? other = some run →
      run.status.terminal = true := by
  induction below with
  | @child other run found parent =>
    intro again stored
    rw [found] at stored
    cases stored
    rw [← Bool.not_eq_false]
    intro live
    obtain ⟨row, atParent, open'⟩ := orphanless other run id found live parent
    rw [ended row atParent] at open'
    cases open'
  | @deeper other parent run found child _ ih =>
    intro again stored
    rw [found] at stored
    cases stored
    rw [← Bool.not_eq_false]
    intro live
    obtain ⟨row, atParent, open'⟩ := orphanless other run parent found live child
    rw [ih row atParent] at open'
    cases open'

theorem World.Sound.closed (sound : world.Sound) (reported : id ∈ world.settled) :
    Closed world id := by
  have still := sound.settled id reported
  refine ⟨still.ended, ?_, still.closed, ?_⟩
  · intro other run below found
    rw [unfinished_eq, descends_ended sound.orphanless still.ended below run found]
    rfl
  · intro event now
    unfold recordLensnodeRunEvent
    cases stored : world.runs.get? id with
    | none => rfl
    | some run => exact if_pos (still.ended run stored)

/-- In a run of the system whose steps all meet the condition, a run that a path has ended
has nothing at work below it, no running step, and hears no event. -/
theorem ended_runs_closed {actions : List (Action Json)} {finish : World Json}
    (run : Steps step Closing World.initial actions finish) :
    ∀ id ∈ finish.settled, Closed finish id := by
  have sound := run.invariant World.Sound
    (fun world action next sound closing taken => step_sound action sound closing taken)
    initial_sound
  exact fun id reported => sound.closed reported

instance (runs : RunTable) (ids : List Nat) : Decidable (Alone runs ids) :=
  inferInstanceAs (Decidable (∀ child ∈ runs.rows, child.status.terminal = false →
    ∀ parent ∈ child.parentRun, parent ∈ ids → child.id ∈ ids))

instance (runs : RunTable) (root child : Nat) : Decidable (SessionEnds runs root child) :=
  inferInstanceAs (Decidable (∀ row ∈ runs.get? child, ∀ other ∈ runs.rows,
    other.session = row.session → other.status.terminal = true ∨ other.id = root ∨
      other.id ∈ RunStatus.children runs root))

instance (world : World Json) (settings : Settings) :
    (task : Task) → Decidable (task.Closing world settings)
  | .failActive ids _ => inferInstanceAs (Decidable (Alone world.runs ids))
  | .markAwaiting ((run, lensnode) :: _) now _ _ => inferInstanceAs (Decidable
      (RunStatus.getRunResumeDeadline settings lensnode run now ≤ now →
        (world.runs.get? run.id).any (·.status.active) = true → Alone world.runs [run.id]))
  | .cleanupStale ids _ => inferInstanceAs (Decidable (Alone world.runs ids))
  | .cleanupExpired now => inferInstanceAs (Decidable
      (Alone world.runs (expiredIds world.runs now) ∧ ∀ step ∈ world.steps, step.status = .running →
        step.run ∈ expiredIds world.runs now → step.run ∉ pendings world.tasks))
  | .called _ | .failActiveSteps _ | .markActive _ | .markAwaiting [] _ _ _ | .markExecutions _
  | .cleanupRead _ | .cleanupExpiredSteps _ _ | .cleanupExecutions => isTrue trivial

instance (world : World Json) : (action : Action Json) → Decidable (Closing world action)
  | .advance index settings _ => inferInstanceAs (Decidable
      (∀ task ∈ world.tasks[index]?, task.Closing world settings))
  | .finish id status error _ manifestValid now => inferInstanceAs (Decidable
      (terminates world.runs id status error manifestValid now = true →
        ∀ step ∈ world.steps, step.status = .running →
          step.run ∈ RunStatus.children world.runs id → SessionEnds world.runs id step.run))
  | .call _ | .event _ _ _ | .delegate _ _ _ | .createRun _ | .proceed _ _ _ _ _ | .nodes _ =>
    isTrue trivial

def runOn (session : Nat) : Run where
  id := 0
  status := .queued
  session := session
  assistant := 0
  parentRun := none
  lensnode := some 5
  evaluation := none
  error := ""
  outcome := none
  startedAt := none
  lastActivityAt := none
  resumeBy := none
  finishedAt := none
  createdAt := 0
  execution := some ⟨.running, none, none⟩

def noSettings : Settings := ⟨none, none, none, none⟩

def delegating (session id : Nat) : List (Action Unit) :=
  [.createRun (runOn session), .proceed id .running (some 0) (some 0) false,
    .event id ⟨.answer, .running, false, ()⟩ 1, .delegate id (runOn (session + 1)) true]

def disconnected : List (Action Unit) :=
  [.call (.failActiveRunsForLensnode 5), .advance 0 noSettings 9, .advance 0 noSettings 9,
    .advance 0 noSettings 9]

/-- The delegated run is done before the node goes; another is cancelled at work. -/
def orderly : List (Action Unit) :=
  delegating 0 0 ++ [.finish 1 .done "" none true 5] ++ disconnected ++ delegating 2 2 ++
    [.proceed 3 .streaming (some 0) (some 0) false, .event 3 ⟨.answer, .running, false, ()⟩ 6,
      .finish 2 .done "" none true 7]

theorem ended_runs_closed_orderly : ∃ finish, Steps step Closing World.initial orderly finish ∧
    finish.settled = [1, 0, 2, 3] ∧ Closed finish 0 := by
  have reaches : (execGuarded step Closing World.initial orderly).any
      (fun finish => decide (finish.settled = [1, 0, 2, 3])) = true := by
    decide +kernel
  obtain ⟨finish, executed, reported⟩ := (any_eq_true _ _).mp reaches
  have run := execGuarded_steps executed
  have settled := of_decide_eq_true reported
  exact ⟨finish, run, settled, ended_runs_closed run 0 (by simp [settled])⟩

/-- The node goes while the delegated run waits in the queue. -/
theorem delegated_run_outlives : ∃ finish,
    Steps step Any (World.initial : World Unit) (delegating 0 0 ++ disconnected) finish ∧
      finish.tasks = [] ∧ 0 ∈ finish.settled ∧ ¬ Closed finish 0 := by
  have reaches : (exec step World.initial (delegating 0 0 ++ disconnected)).any
      (fun finish => decide (finish.tasks = [] ∧ 0 ∈ finish.settled ∧
        (finish.runs.get? 1).any fun run => run.parentRun = some 0 ∧ run.status = .queued)) =
      true := by
    decide +kernel
  obtain ⟨finish, executed, facts⟩ := (any_eq_true _ _).mp reaches
  obtain ⟨returned, reported, child⟩ := of_decide_eq_true facts
  obtain ⟨run, found, meets⟩ := (any_eq_true _ _).mp child
  obtain ⟨parent, queued⟩ := of_decide_eq_true meets
  refine ⟨finish, exec_steps executed, returned, reported, ?_⟩
  intro closed
  have stopped := closed.alone 1 run (.child found parent) found
  rw [queued] at stopped
  cases stopped

end SourceLens.RunClosing
