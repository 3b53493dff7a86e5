import SourceLens.DatasourceTask

/-! In an orderly run the status of a completed task stays. -/

namespace SourceLens.DatasourceTask

open Transition Option

variable {lower : Text → Text} {world next : World} {row : Row} {writer : Writer} {move : Move}

variable {pending : Write}

/-- A writer that has found a completed task stores the status it has found. -/
def Writer.Faithful : Writer → Prop
  | .write pending => pending.read.completed = true → pending.status = pending.read
  | .upload task => task.stage = .start ∨ task.read.completed = false

theorem recordEvent_open {content : Event} {connection : Text}
    (recorded : recordEvent row content connection = some pending) :
    pending.read.completed = false := by
  unfold recordEvent at recorded
  split at recorded
  · cases recorded
  · rename_i active
    split at recorded
    · cases recorded
    · cases recorded
      exact Bool.eq_false_iff.mpr active

theorem completeSync_faithful (row : Row) (result : Result) :
    (Writer.write (completeSync lower row result)).Faithful := fun completed => if_pos completed

theorem completeUpload_faithful {result : Result} {connection : Text}
    (completed : completeUpload lower row result connection = some pending) :
    (Writer.write pending).Faithful := by
  unfold completeUpload at completed
  split at completed
  · cases completed
  · cases completed
    exact fun done => if_pos done

theorem upload_write_open {task : Upload} (faithful : (Writer.upload task).Faithful)
    (writes : task.write? move = some pending) : pending.read.completed = false := by
  have past : task.stage ≠ .start ∧ pending.read = task.read := by
    cases move with
    | proceed lensnode connection =>
      simp only [Upload.write?] at writes
      split at writes
      · rename_i stage
        cases writes
        exact ⟨by rw [stage]; decide, rfl⟩
      · split at writes
        · rename_i stage
          cases writes
          exact ⟨by rw [stage]; decide, rfl⟩
        · cases writes
    | progress => cases writes
    | finish => cases writes
    | queue =>
      simp only [Upload.write?] at writes
      split at writes
      · rename_i stage
        cases writes
        refine ⟨?_, rfl⟩
        rcases stage with is | is | is <;> rw [is] <;> decide
      · cases writes
    | fail =>
      simp only [Upload.write?] at writes
      split at writes
      · rename_i stage
        cases writes
        refine ⟨?_, rfl⟩
        rcases stage with is | is | is <;> rw [is] <;> decide
      · cases writes
  rw [past.2]
  exact faithful.resolve_left past.1

theorem write_faithful (faithful : writer.Faithful) (writes : writer.write? move = some pending) :
    pending.read.completed = true → pending.status = pending.read := by
  cases writer with
  | write own =>
    cases writes
    exact faithful
  | upload task =>
    have unfinished := upload_write_open faithful writes
    intro completed
    rw [unfinished] at completed
    cases completed

theorem upload_next_faithful {task later : Upload} (faithful : (Writer.upload task).Faithful)
    (goes : task.next row move = some later) : (Writer.upload later).Faithful := by
  have unfinished : task.stage ≠ .start → task.read.completed = false := faithful.resolve_left
  cases move with
  | queue => cases goes
  | fail => cases goes
  | finish => cases goes
  | progress =>
    simp only [Upload.next] at goes
    split at goes
    · rename_i stage
      cases goes
      exact .inr (unfinished (by rw [stage]; decide))
    · cases goes
  | proceed lensnode connection =>
    cases stage : task.stage with
    | start =>
      simp only [Upload.next, stage] at goes
      split at goes
      · cases goes
      · rename_i active
        cases goes
        exact .inr (Bool.eq_false_iff.mpr active)
    | transfer =>
      simp only [Upload.next, stage] at goes
      split at goes
      · cases goes
      · cases goes
        exact .inr (unfinished (by rw [stage]; rintro ⟨⟩))
    | update snapshot target =>
      simp only [Upload.next, stage] at goes
      split at goes
      · cases goes
      · cases goes
        exact .inr (unfinished (by rw [stage]; rintro ⟨⟩))
    | lookup | lock | capacity | dispatched | bytes | stream =>
      simp only [Upload.next, stage] at goes
      cases goes
      exact .inr (unfinished (by rw [stage]; rintro ⟨⟩))

theorem updateActive_kept (snapshot : Row) (target : Option (Text × Text))
    (completed : row.status.completed = true) : updateActive row snapshot target = row := by
  have inactive : row.status.active = false := by
    cases status : row.status <;> rw [status] at completed <;> first | rfl | cases completed
  simp [updateActive, inactive]

theorem completeConversion_kept (result : Result) (connection lensnode : Text)
    (owner stopOnly : Bool) (completed : row.status.completed = true) :
    (completeConversion lower row result connection lensnode owner stopOnly).status =
      row.status := by
  simp only [completeConversion, completed, Bool.or_true, if_true]
  repeat' split
  all_goals rfl

theorem store_kept (faithful : writer.Faithful) (completed : row.status.completed = true)
    (orderly : ∀ pending ∈ writer.write? move,
      row.status = pending.read ∨ row.status = pending.status) :
    (writer.store move row).status = row.status := by
  unfold Writer.store
  cases writes : writer.write? move with
  | some pending =>
    rcases orderly pending writes with read | same
    · -- Its writer had found the task completed, and stores what it has found.
      have stored := write_faithful faithful writes (read ▸ completed)
      exact stored.trans read.symm
    · exact same.symm
  | none =>
    cases writer with
    | write pending => cases writes
    | upload task =>
      cases stage : task.stage with
      | update snapshot target =>
        obtain ⟨read, _⟩ := task
        cases stage
        exact congrArg Row.status (updateActive_kept snapshot target completed)
      | start | lookup | lock | capacity | dispatched | bytes | transfer | stream =>
        obtain ⟨read, _⟩ := task
        cases stage
        rfl

def World.Sound (world : World) : Prop := ∀ writer ∈ world.writers, writer.Faithful

theorem join_sound (sound : world.Sound) {more : List Writer}
    (faithful : ∀ writer ∈ more, writer.Faithful) :
    World.Sound { world with writers := world.writers ++ more } := by
  intro writer member
  rcases List.mem_append.mp member with old | new
  · exact sound writer old
  · exact faithful writer new

theorem step_sound (sound : world.Sound) (action : Action)
    (taken : step lower world action = some next) : next.Sound := by
  cases action with
  | event content connection =>
    cases taken
    refine join_sound sound fun writer member => ?_
    obtain ⟨pending, recorded, rfl⟩ := map_eq_some_iff.mp (mem_toList.mp member)
    intro completed
    rw [recordEvent_open recorded] at completed
    cases completed
  | syncDone result =>
    cases taken
    refine join_sound sound fun writer member => ?_
    cases List.mem_singleton.mp member
    exact completeSync_faithful world.row result
  | uploadDone result connection =>
    cases taken
    refine join_sound sound fun writer member => ?_
    obtain ⟨pending, completed, rfl⟩ := map_eq_some_iff.mp (mem_toList.mp member)
    exact completeUpload_faithful completed
  | conversionDone result connection lensnode owner stopOnly =>
    cases taken
    exact sound
  | upload =>
    cases taken
    refine join_sound sound fun writer member => ?_
    cases List.mem_singleton.mp member
    exact .inl rfl
  | advance index move =>
    obtain ⟨writer, current, rfl⟩ := map_eq_some_iff.mp taken
    intro other member
    rcases TaskPool.mem_settle member with old | new
    · exact sound other old
    · have faithful := sound writer (List.mem_of_getElem? current)
      cases writer with
      | write pending => cases new
      | upload task =>
        obtain ⟨later, goes, rfl⟩ := map_eq_some_iff.mp new
        exact upload_next_faithful faithful goes

theorem step_kept (sound : world.Sound) (action : Action) (orderly : Orderly world action)
    (taken : step lower world action = some next) (completed : world.row.status.completed = true) :
    next.row.status = world.row.status := by
  cases action with
  | event content connection => cases taken; rfl
  | syncDone result => cases taken; rfl
  | uploadDone result connection => cases taken; rfl
  | upload => cases taken; rfl
  | conversionDone result connection lensnode owner stopOnly =>
    cases taken
    exact completeConversion_kept result connection lensnode owner stopOnly completed
  | advance index move =>
    obtain ⟨writer, current, rfl⟩ := map_eq_some_iff.mp taken
    have faithful := sound writer (List.mem_of_getElem? current)
    exact store_kept faithful completed fun pending writes =>
      orderly writer current pending writes completed

theorem initial_sound (row : Row) : (World.initial row).Sound := by
  rintro _ ⟨⟩

/-- In every run whose steps all meet the condition, a completed status is not changed by any
later step. -/
theorem completed_status_kept {first second : List Action} {middle finish : World}
    (before : Steps (step lower) Orderly (World.initial row) first middle)
    (later : Steps (step lower) Orderly middle second finish)
    (completed : middle.row.status.completed = true) : finish.row.status = middle.row.status := by
  have sound := before.invariant World.Sound
    (fun _ action _ sound _ taken => step_sound sound action taken) (initial_sound row)
  have kept := later.invariant
    (fun world => world.Sound ∧ world.row.status = middle.row.status)
    (fun world action next ⟨sound, same⟩ orderly taken =>
      ⟨step_sound sound action taken,
        (step_kept sound action orderly taken (same ▸ completed)).trans same⟩)
    ⟨sound, rfl⟩
  exact kept.2

instance (world : World) : (action : Action) → Decidable (Orderly world action)
  | .advance index move => inferInstanceAs (Decidable (∀ writer ∈ world.writers[index]?,
      ∀ pending ∈ writer.write? move, world.row.status.completed = true →
        world.row.status = pending.read ∨ world.row.status = pending.status))
  | .event _ _ | .syncDone _ | .uploadDone _ _ | .conversionDone _ _ _ _ _ | .upload => isTrue trivial

def running : Row := ⟨['t'], .sync, .started, ['n'], ['c'], ['d'], .absent, false⟩

def succeeds : Result where
  status := ['s', 'u', 'c', 'c', 'e', 's', 's']
  taskId := ['t']
  datasource := ['d']
  summary := false
  executorStopped := false
  executorInstance := []
  stopSource := []
  stoppedAtAware := false

def scanning : Event := ⟨['s', 'c', 'a', 'n'], ['r', 'u', 'n'], false⟩

theorem completed_status_kept_redelivered : ∃ middle finish,
    Steps (step id) Orderly (World.initial running) [.syncDone succeeds, .advance 0 .finish] middle ∧
      Steps (step id) Orderly middle
        [.event scanning ['c'], .syncDone succeeds, .advance 0 .finish] finish ∧
      middle.row.status = .success ∧ finish.row.status = middle.row.status := by
  have reaches : (execGuarded (step id) Orderly (World.initial running)
      [.syncDone succeeds, .advance 0 .finish]).any (fun middle =>
        decide (middle.row.status = .success) &&
          (execGuarded (step id) Orderly middle
            [.event scanning ['c'], .syncDone succeeds, .advance 0 .finish]).isSome) = true := by
    decide +kernel
  obtain ⟨middle, first, both⟩ := (any_eq_true _ _).mp reaches
  obtain ⟨success, goes⟩ := Bool.and_eq_true_iff.mp both
  obtain ⟨finish, second⟩ := isSome_iff_exists.mp goes
  have status := of_decide_eq_true success
  have before := execGuarded_steps first
  have later := execGuarded_steps second
  exact ⟨middle, finish, before, later, status,
    completed_status_kept before later (by rw [status]; rfl)⟩

/-- A progress event reads the row, the sync completes, and the event is written. -/
theorem completed_task_revived : ∃ middle finish,
    Reachable (step id) (World.initial running) middle ∧ Reachable (step id) middle finish ∧
      middle.row.status = .success ∧ finish.row.status = .started := by
  have reaches : (exec (step id) (World.initial running)
      [.event scanning ['c'], .syncDone succeeds, .advance 1 .finish]).any (fun middle =>
        decide (middle.row.status = .success) &&
          (exec (step id) middle [.advance 0 .finish]).any (fun finish =>
            decide (finish.row.status = .started))) = true := by
    decide +kernel
  obtain ⟨middle, first, both⟩ := (any_eq_true _ _).mp reaches
  obtain ⟨success, goes⟩ := Bool.and_eq_true_iff.mp both
  obtain ⟨finish, second, revived⟩ := (any_eq_true _ _).mp goes
  exact ⟨middle, finish, ⟨_, exec_steps first⟩, ⟨_, exec_steps second⟩,
    of_decide_eq_true success, of_decide_eq_true revived⟩

end SourceLens.DatasourceTask
