import SourceLens.AssistantConcurrencySteps

/-! Which runs keep the concurrency cap of an assistant: a run is counted from the moment
its task has passed the cap. -/

namespace SourceLens.AssistantConcurrency

open Transition RunStatus List

variable {world next : World} {assistant cap id : Nat} {action : Action}

variable {row : Run}

theorem mem_onTheWay {tasks : List Task} :
    id ∈ onTheWay tasks ↔ ∃ task ∈ tasks, admitted task = some id :=
  mem_filterMap

theorem mem_occupied : id ∈ occupied world assistant ↔
    ∃ row, world.runs.get? id = some row ∧ row.assistant = assistant ∧
      (row.status.active = true ∨ id ∈ onTheWay world.tasks) := by
  rw [occupied, mem_map]
  constructor
  · rintro ⟨row, selected, rfl⟩
    obtain ⟨present, meets⟩ := Table.mem_select.mp selected
    rw [Bool.and_eq_true, Bool.or_eq_true, decide_eq_true_eq, decide_eq_true_eq] at meets
    exact ⟨row, Table.get?_of_mem present, meets⟩
  · rintro ⟨row, found, meets⟩
    obtain ⟨present, rfl⟩ := Table.get?_eq_some.mp found
    refine ⟨row, Table.mem_select.mpr ⟨present, ?_⟩, rfl⟩
    rwa [Bool.and_eq_true, Bool.or_eq_true, decide_eq_true_eq, decide_eq_true_eq]

theorem occupied_nodup (world : World) (assistant : Nat) : (occupied world assistant).Nodup :=
  world.runs.distinct.sublist (filter_sublist.map Run.id)

theorem occupied_le (covered : occupied next assistant ⊆ occupied world assistant) :
    (occupied next assistant).length ≤ (occupied world assistant).length :=
  (subperm_of_subset (occupied_nodup next assistant) covered).length_le

theorem occupied_le_others (covered : occupied next assistant ⊆ id :: occupied world assistant) :
    (occupied next assistant).length ≤ (othersOccupied world assistant id).length + 1 := by
  have others : occupied next assistant ⊆ id :: othersOccupied world assistant id := by
    intro other member
    by_cases same : other = id
    · exact same ▸ mem_cons_self
    · have earlier := (mem_cons.mp (covered member)).resolve_left same
      exact mem_cons_of_mem _ (mem_filter.mpr ⟨earlier, decide_eq_true same⟩)
  exact (subperm_of_subset (occupied_nodup next assistant) others).length_le

theorem active_le_occupied (world : World) (assistant : Nat) :
    (activeRuns world.runs assistant).length ≤ (occupied world assistant).length := by
  rw [occupied, length_map]
  apply List.Sublist.length_le
  apply monotone_filter_right
  intro row active
  rw [Bool.and_eq_true] at active ⊢
  exact ⟨active.1, Bool.or_eq_true_iff.mpr (.inl active.2)⟩

structure Within (assistant cap : Nat) (world : World) : Prop where
  idle : ∀ (id : Nat) (row : Run), world.runs.get? id = some row → Idle row
  asks : ∀ task ∈ world.tasks, ∀ (run : Run) (limit : Nat), asking task = some (run, limit) →
    run.id < world.runs.sequence ∧
      (∀ row, world.runs.get? run.id = some row → row.assistant = run.assistant) ∧
        (run.assistant = assistant → limit = cap)
  drawn : ∀ id ∈ onTheWay world.tasks, id < world.runs.sequence
  fits : (occupied world assistant).length ≤ cap

theorem drawn_of_get {runs : RunTable} (found : runs.get? id = some row) : id < runs.sequence := by
  obtain ⟨present, rfl⟩ := Table.get?_eq_some.mp found
  exact runs.drawn row present

theorem mem_advanced {tasks : List Task} {index : Nat} {effect : Option Task} {task : Task}
    (member : task ∈ (match effect with
      | none => tasks.eraseIdx index
      | some next => tasks.set index next)) : task ∈ tasks ∨ effect = some task := by
  cases effect with
  | none => exact .inl (mem_of_mem_eraseIdx member)
  | some next =>
    cases mem_or_eq_of_mem_set member with
    | inl old => exact .inl old
    | inr new => exact .inr (congrArg some new.symm)

section Advance

variable {index : Nat} {inputs : Inputs} {task : Task}

def advanced (world : World) (index : Nat) (inputs : Inputs) (task : Task) : World :=
  let effect := task.advance world.runs world.nodes inputs
  { world with
    runs := effect.1
    tasks := match effect.2 with
      | none => world.tasks.eraseIdx index
      | some next => world.tasks.set index next }

theorem mem_onTheWay_advanced (member : id ∈ onTheWay (advanced world index inputs task).tasks) :
    id ∈ onTheWay world.tasks ∨ ∃ next,
      (task.advance world.runs world.nodes inputs).2 = some next ∧ admitted next = some id := by
  obtain ⟨next, present, admits⟩ := mem_onTheWay.mp member
  cases mem_advanced present with
  | inl old => exact .inl (mem_onTheWay.mpr ⟨next, old, admits⟩)
  | inr new => exact .inr ⟨next, new, admits⟩

theorem onTheWay_advanced (current : task ∈ world.tasks)
    (member : id ∈ onTheWay (advanced world index inputs task).tasks) :
    id ∈ onTheWay world.tasks ∨ ∃ (run : Run) (limit : Nat), asking task = some (run, limit) ∧
      run.id = id ∧ (limit = 0 ∨ (∃ dispatch, task = .executeCount run limit dispatch) ∧
        activeCount world.runs run < limit) := by
  cases mem_onTheWay_advanced member with
  | inl old => exact .inl old
  | inr new =>
    obtain ⟨next, goes, admits⟩ := new
    cases advance_next goes with
    | asks same before =>
      rw [before] at admits
      cases admits
    | onTheWay same passed =>
      exact .inl (mem_onTheWay.mpr ⟨task, current, same ▸ admits⟩)
    | passes run limit asked below admitsRun passed =>
      rw [admitsRun] at admits
      exact .inr ⟨run, limit, asked, Option.some.inj admits, below⟩
    | plain plain =>
      rw [plain.1] at admits
      cases admits

theorem active_advanced (current : task ∈ world.tasks)
    (allowed : TaskCurrent world assistant inputs task) (found : world.runs.get? id = some row)
    (raised : id ∈ raises inputs task) : row.status.active = true ∨ id ∈ onTheWay world.tasks := by
  cases task with
  | executeRunning run dispatch =>
    rw [raises] at raised
    split at raised
    · have same := mem_singleton.mp raised
      exact .inr (mem_onTheWay.mpr ⟨_, current, congrArg some same.symm⟩)
    · cases raised
  | executeStreaming run =>
    rw [raises] at raised
    split at raised
    · rename_i quiet
      have same := mem_singleton.mp raised
      exact .inl (allowed (Option.isNone_iff_eq_none.mp quiet) row (same ▸ found))
    · cases raised
  | _ => cases raised

theorem occupied_advanced (within : Within assistant cap world) (current : task ∈ world.tasks)
    (allowed : TaskCurrent world assistant inputs task)
    (member : id ∈ occupied (advanced world index inputs task) assistant) :
    id ∈ occupied world assistant ∨ ∃ run dispatch, run.id = id ∧ run.assistant = assistant ∧
      task = .executeCount run cap dispatch ∧ activeCount world.runs run < cap ∨ cap = 0 := by
  obtain ⟨later, foundLater, owned, cause⟩ := mem_occupied.mp member
  obtain ⟨row, found, moves⟩ :=
    (advance_moved task world.runs world.nodes inputs).origin id later foundLater
  have mine : row.assistant = assistant := moves.assistant.symm.trans owned
  have same : row.id = id := (Table.get?_eq_some.mp found).2
  cases cause with
  | inl active =>
    have earlier : row.status.active = true ∨ id ∈ onTheWay world.tasks := by
      cases moves.active (within.idle id row found) active with
      | inl before => exact .inl before
      | inr raised => exact active_advanced current allowed found (same ▸ raised)
    exact .inl (mem_occupied.mpr ⟨row, found, mine, earlier⟩)
  | inr way =>
    cases onTheWay_advanced current way with
    | inl old => exact .inl (mem_occupied.mpr ⟨row, found, mine, .inr old⟩)
    | inr new =>
      obtain ⟨run, limit, asked, rfl, below⟩ := new
      obtain ⟨-, loaded, limited⟩ := within.asks task current run limit asked
      have owner : run.assistant = assistant := (loaded row found).symm.trans mine
      have is := limited owner
      subst is
      cases below with
      | inl zero => exact .inr ⟨run, true, .inr zero⟩
      | inr counted =>
        obtain ⟨⟨dispatch, counting⟩, below⟩ := counted
        exact .inr ⟨run, dispatch, .inl ⟨rfl, owner, counting, below⟩⟩

theorem advanced_within (positive : 0 < cap) (within : Within assistant cap world)
    (current : task ∈ world.tasks) (allowed : TaskCurrent world assistant inputs task) :
    Within assistant cap (advanced world index inputs task) where
  idle := by
    intro id later found
    obtain ⟨row, before, moves⟩ :=
      (advance_moved task world.runs world.nodes inputs).origin id later found
    exact moves.idle (within.idle id row before)
  asks := by
    intro next present run limit asked
    have moved := advance_moved task world.runs world.nodes inputs
    have asker : ∃ task ∈ world.tasks, asking task = some (run, limit) := by
      cases mem_advanced present with
      | inl old => exact ⟨next, old, asked⟩
      | inr new =>
        cases advance_next new with
        | asks same before => exact ⟨task, current, same ▸ asked⟩
        | onTheWay same passed =>
          rw [passed] at asked
          cases asked
        | passes _ _ _ _ _ passed =>
          rw [passed] at asked
          cases asked
        | plain plain =>
          rw [plain.2] at asked
          cases asked
    obtain ⟨asker, listed, asks⟩ := asker
    obtain ⟨drawn, loaded, limited⟩ := within.asks asker listed run limit asks
    refine ⟨moved.sequence_eq ▸ drawn, ?_, limited⟩
    intro later found
    obtain ⟨row, before, moves⟩ := moved.origin run.id later found
    exact moves.assistant.trans (loaded row before)
  drawn := by
    intro id member
    have same := (advance_moved task world.runs world.nodes inputs).sequence_eq
    have below : id < world.runs.sequence := by
      cases onTheWay_advanced current member with
      | inl old => exact within.drawn id old
      | inr new =>
        obtain ⟨run, limit, asked, rfl, -⟩ := new
        exact (within.asks task current run limit asked).1
    exact same ▸ below
  fits := by
    by_cases counts : ∃ run dispatch, run.assistant = assistant ∧
        task = .executeCount run cap dispatch ∧ activeCount world.runs run < cap
    · obtain ⟨run, dispatch, owner, rfl, below⟩ := counts
      have covered : occupied (advanced world index inputs (.executeCount run cap dispatch))
          assistant ⊆ run.id :: occupied world assistant := by
        intro id member
        obtain old | ⟨other, _, ⟨rfl, _, counting, _⟩ | zero⟩ :=
          occupied_advanced within current allowed member
        · exact mem_cons_of_mem _ old
        · cases counting
          exact mem_cons_self
        · exact absurd zero (Nat.ne_of_gt positive)
      have room := allowed owner below
      rw [owner] at room
      exact Nat.le_trans (occupied_le_others covered) room
    · refine Nat.le_trans (occupied_le ?_) within.fits
      intro id member
      obtain old | ⟨run, dispatch, ⟨rfl, owner, counting, below⟩ | zero⟩ :=
        occupied_advanced within current allowed member
      · exact old
      · exact absurd ⟨run, dispatch, owner, counting, below⟩ counts
      · exact absurd zero (Nat.ne_of_gt positive)

end Advance

theorem moved_within (within : Within assistant cap world) {runs : RunTable}
    (moved : Moved [] world.runs runs) : Within assistant cap { world with runs := runs } where
  idle := by
    intro id later found
    obtain ⟨row, before, moves⟩ := moved.origin id later found
    exact moves.idle (within.idle id row before)
  asks := by
    intro task present run limit asked
    obtain ⟨drawn, loaded, limited⟩ := within.asks task present run limit asked
    refine ⟨moved.sequence_eq ▸ drawn, ?_, limited⟩
    intro later found
    obtain ⟨row, before, moves⟩ := moved.origin run.id later found
    exact moves.assistant.trans (loaded row before)
  drawn := fun id member => moved.sequence_eq ▸ within.drawn id member
  fits := by
    refine Nat.le_trans (occupied_le ?_) within.fits
    intro id member
    obtain ⟨later, found, owned, cause⟩ := mem_occupied.mp member
    obtain ⟨row, before, moves⟩ := moved.origin id later found
    refine mem_occupied.mpr ⟨row, before, moves.assistant.symm.trans owned, ?_⟩
    cases cause with
    | inl active =>
      exact .inl ((moves.active (within.idle id row before) active).resolve_right
        not_mem_nil)
    | inr way => exact .inr way

theorem called_within (within : Within assistant cap world) {call : Call}
    (calledFor : CalledFor world.runs assistant cap call) :
    Within assistant cap { world with tasks := world.tasks ++ [.called call] } := by
  have same : onTheWay (world.tasks ++ [.called call]) = onTheWay world.tasks := by
    rw [onTheWay, filterMap_append]
    exact append_nil _
  constructor
  · exact within.idle
  · intro task present run limit asked
    rcases mem_append.mp present with old | new
    · exact within.asks task old run limit asked
    · rw [mem_singleton.mp new] at asked
      cases call with
      | executeAnswerRun run cap dispatch =>
        cases asked
        obtain ⟨⟨row, found, owner⟩, limited⟩ := calledFor
        refine ⟨drawn_of_get found, ?_, limited⟩
        intro other foundOther
        rw [Option.mem_def.mp found] at foundOther
        cases foundOther
        exact owner
      | _ => cases asked
  · exact fun id member => within.drawn id (same ▸ member)
  · refine Nat.le_trans (occupied_le ?_) within.fits
    intro id member
    obtain ⟨row, found, owned, cause⟩ := mem_occupied.mp member
    exact mem_occupied.mpr ⟨row, found, owned, same ▸ cause⟩

theorem created_within (within : Within assistant cap world) (idle : row.resumeBy = none) :
    Within assistant cap
      { world with runs := world.runs.create (created row) (created_id row) } where
  idle := by
    intro id later found
    obtain before | ⟨-, rfl⟩ := Table.get?_create_cases (created_id row) found
    · exact within.idle id later before
    · exact fun _ => idle
  asks := by
    intro task present run limit asked
    obtain ⟨drawn, loaded, limited⟩ := within.asks task present run limit asked
    refine ⟨Nat.lt_succ_of_lt drawn, ?_, limited⟩
    intro later found
    obtain before | ⟨new, -⟩ := Table.get?_create_cases (created_id row) found
    · exact loaded later before
    · exact absurd drawn (new ▸ Nat.lt_irrefl _)
  drawn := fun id member => Nat.lt_succ_of_lt (within.drawn id member)
  fits := by
    refine Nat.le_trans (occupied_le ?_) within.fits
    intro id member
    obtain ⟨later, found, owned, cause⟩ := mem_occupied.mp member
    obtain before | ⟨rfl, rfl⟩ := Table.get?_create_cases (created_id row) found
    · exact mem_occupied.mpr ⟨later, before, owned, cause⟩
    · cases cause with
      | inl active => cases active
      | inr way => exact absurd (within.drawn _ way) (Nat.lt_irrefl _)

theorem step_within (positive : 0 < cap) (within : Within assistant cap world)
    (current : Current assistant cap world action) (taken : step world action = some next) :
    Within assistant cap next := by
  cases action with
  | call call =>
    cases taken
    exact called_within within current
  | advance index inputs =>
    rw [step, Option.map_eq_some_iff] at taken
    obtain ⟨task, found, rfl⟩ := taken
    exact advanced_within positive within (mem_of_getElem? found) (current task found)
  | write row =>
    cases taken
    refine moved_within within ?_
    apply moved_updateWhere
    intro stored present meets
    have found := Table.get?_of_mem present
    rw [of_decide_eq_true meets] at found
    obtain ⟨owner, deadline⟩ := current stored found
    exact ⟨rfl, owner, fun _ => deadline, fun _ active => .inl active⟩
  | create row =>
    cases taken
    exact created_within within current
  | delete ids =>
    cases taken
    exact moved_within within (moved_deleteWhere _ _)
  | nodes nodes =>
    cases taken
    exact ⟨within.idle, within.asks, within.drawn, within.fits⟩

theorem within_start (free : world.tasks = []) (idle : ∀ row ∈ world.runs.rows, Idle row)
    (fits : (activeRuns world.runs assistant).length ≤ cap) : Within assistant cap world where
  idle := fun _ row found => idle row (Table.get?_eq_some.mp found).1
  asks := by
    rw [free]
    intro task present
    cases present
  drawn := by
    rw [free]
    intro id member
    cases member
  fits := by
    have same : occupied world assistant = (activeRuns world.runs assistant).map Run.id := by
      simp [occupied, activeRuns, free, onTheWay]
    rwa [same, length_map]

/-- The cap is kept in every run whose counts are current and whose STREAMING saves find
the run active. -/
theorem concurrency_cap_kept {start finish : World} {actions : List Action} (positive : 0 < cap)
    (free : start.tasks = []) (idle : ∀ row ∈ start.runs.rows, Idle row)
    (fits : (activeRuns start.runs assistant).length ≤ cap)
    (run : Steps step (Current assistant cap) start actions finish) :
    (activeRuns finish.runs assistant).length ≤ cap := by
  have within : Within assistant cap finish := by
    refine run.invariant (Within assistant cap) ?_ (within_start free idle fits)
    intro state action next within current taken
    exact step_within positive within current taken
  exact Nat.le_trans (active_le_occupied finish assistant) within.fits

instance (world : World) (run : Run) (limit : Nat) : Decidable (CountCurrent world run limit) :=
  inferInstanceAs (Decidable (_ → _))

instance (runs : RunTable) (run : Nat) : Decidable (StillActive runs run) :=
  inferInstanceAs (Decidable (∀ row ∈ runs.get? run, row.status.active = true))

instance (runs : RunTable) (assistant cap : Nat) (call : Call) :
    Decidable (CalledFor runs assistant cap call) := by
  cases call <;> first
    | exact .isTrue trivial
    | exact inferInstanceAs (Decidable (_ ∧ _))

instance (world : World) (assistant : Nat) (inputs : Inputs) (task : Task) :
    Decidable (TaskCurrent world assistant inputs task) := by
  cases task <;> first
    | exact .isTrue trivial
    | exact inferInstanceAs (Decidable (_ → _))

instance (assistant cap : Nat) (world : World) (action : Action) :
    Decidable (Current assistant cap world action) :=
  match action with
  | .call call => inferInstanceAs (Decidable (CalledFor world.runs assistant cap call))
  | .advance index inputs =>
    inferInstanceAs (Decidable
      (∀ task ∈ world.tasks[index]?, TaskCurrent world assistant inputs task))
  | .write row =>
    inferInstanceAs (Decidable (∀ stored ∈ world.runs.get? row.id,
      row.assistant = stored.assistant ∧ (stored.status = .queued → row.resumeBy = none)))
  | .create row => inferInstanceAs (Decidable (row.resumeBy = none))
  | .delete _ => .isTrue trivial
  | .nodes _ => .isTrue trivial

def queuedRun (id : Nat) : Run := { silentRun with id := id, status := .queued }

def twoQueued : World where
  runs := ⟨[queuedRun 0, queuedRun 1], 2, by decide, by decide⟩
  nodes := []
  tasks := []

def countedInTurn : List Action :=
  [.call (.executeAnswerRun (queuedRun 0) 1 true), .call (.executeAnswerRun (queuedRun 1) 1 true)] ++
    List.replicate 9 (.advance 0 tenHours)

theorem concurrency_cap_kept_run :
    ∃ finish, Steps step (Current 0 1) twoQueued countedInTurn finish ∧
      (finish.runs.get? 0).any (decide <| ·.status = .streaming) = true ∧
        (activeRuns finish.runs 0).length ≤ 1 := by
  have outcome : (execGuarded step (Current 0 1) twoQueued countedInTurn).any (fun world =>
      (world.runs.get? 0).any (decide <| ·.status = .streaming)) = true := by
    decide +kernel
  obtain ⟨finish, reached, streaming⟩ := (Option.any_eq_true _ _).mp outcome
  have run := execGuarded_steps reached
  exact ⟨finish, run, streaming,
    concurrency_cap_kept (by decide) rfl (by unfold Idle; decide) (by decide) run⟩

def countedTogether : List Action :=
  [.call (.executeAnswerRun (queuedRun 0) 1 true), .call (.executeAnswerRun (queuedRun 1) 1 true),
    .advance 0 tenHours, .advance 1 tenHours, .advance 0 tenHours, .advance 1 tenHours,
    .advance 0 tenHours, .advance 1 tenHours, .advance 0 tenHours, .advance 1 tenHours]

theorem concurrency_cap_exceeded :
    (activeRuns twoQueued.runs 0).length = 0 ∧
      ∃ finish, Steps step Any twoQueued countedTogether finish ∧
        1 < (activeRuns finish.runs 0).length := by
  have outcome : (exec step twoQueued countedTogether).any (fun world =>
      decide (1 < (activeRuns world.runs 0).length)) = true := by
    decide +kernel
  obtain ⟨finish, reached, exceeded⟩ := (Option.any_eq_true _ _).mp outcome
  exact ⟨by decide, finish, exec_steps reached, of_decide_eq_true exceeded⟩

end SourceLens.AssistantConcurrency
