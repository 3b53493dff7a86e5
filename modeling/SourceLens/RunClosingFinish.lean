import SourceLens.RunClosingSteps

/-! `finish_lensnode_run` ends a run with its children, which have none of their own, and
takes the sessions in which nothing else is at work. -/

namespace SourceLens.RunClosing

open List Bool Table
open RunStatus (Status Outcome Run RunTable Walk change children descendantRuns)

variable {runs : RunTable} {root id : Nat} {ids : List Nat} {walk : Walk} {run : Run}
  {status : Status} {error : String} {outcome : Option Outcome} {manifestValid : Bool} {now : Int}

theorem unfinished_eq (status : Status) : status.unfinished = !status.terminal := by
  cases status <;> rfl

theorem mem_children : id ∈ children runs root ↔
    ∃ row, runs.get? id = some row ∧ row.parentRun = some root ∧ row.status.terminal = false := by
  simp only [children, mem_map, mem_select, and_eq_true, decide_eq_true_eq,
    unfinished_eq, not_eq_true']
  constructor
  · rintro ⟨row, ⟨present, facts⟩, rfl⟩
    exact ⟨row, get?_of_mem present, facts⟩
  · rintro ⟨row, found, facts⟩
    obtain ⟨present, same⟩ := get?_eq_some.mp found
    exact ⟨row, ⟨present, facts⟩, same⟩

theorem rounds_extend (count : Nat) (walk : Walk) :
    walk.descendants ⊆ ((Walk.visit runs)^[count] walk).descendants := by
  induction count generalizing walk with
  | zero => exact List.Subset.refl _
  | succ count ih =>
    refine List.Subset.trans ?_ (ih (walk.visit runs))
    unfold Walk.visit
    split
    · exact List.Subset.refl _
    · exact subset_append_left _ _

theorem children_descendants (runs : RunTable) (root : Nat) :
    children runs root ⊆ (descendantRuns runs root).descendants := by
  refine List.Subset.trans ?_ (rounds_extend runs.rows.length (Walk.visit runs ⟨[root], []⟩))
  intro child member
  simpa [Walk.visit] using member

structure Below (runs : RunTable) (root : Nat) (walk : Walk) : Prop where
  pending : ∀ id ∈ walk.pending, id = root ∨ id ∈ children runs root
  descendants : walk.descendants ⊆ children runs root

theorem Shallow.childless (shallow : Shallow runs) (member : id ∈ children runs root)
    (other : Nat) : other ∉ children runs id := by
  intro below
  obtain ⟨row, found, parent, _⟩ := mem_children.mp below
  obtain ⟨above, stored, child, _⟩ := mem_children.mp member
  have top := (shallow other row id found parent).2 above stored
  rw [child] at top
  cases top

theorem Below.visit (shallow : Shallow runs) (below : Below runs root walk) :
    Below runs root (walk.visit runs) := by
  unfold Walk.visit
  split
  · exact below
  · rename_i parent last
    have fresh : ∀ child ∈ (children runs parent).filter (fun child =>
        decide (child ∉ walk.descendants)), child ∈ children runs root := by
      intro child member
      have among := mem_of_mem_filter member
      rcases below.pending parent (mem_of_getLast? last) with same | nested
      · exact same ▸ among
      · exact absurd among (shallow.childless nested child)
    constructor
    · intro id member
      rcases mem_append.mp member with waits | new
      · exact below.pending id ((dropLast_sublist _).mem waits)
      · exact .inr (fresh id new)
    · exact append_subset.mpr ⟨below.descendants, fresh⟩

theorem Below.rounds (shallow : Shallow runs) (count : Nat) (below : Below runs root walk) :
    Below runs root ((Walk.visit runs)^[count] walk) := by
  induction count generalizing walk with
  | zero => exact below
  | succ count ih => exact ih (below.visit shallow)

theorem mem_descendants (shallow : Shallow runs) :
    id ∈ (descendantRuns runs root).descendants ↔ id ∈ children runs root := by
  have start : Below runs root ⟨[root], []⟩ :=
    ⟨fun _ member => .inl (mem_singleton.mp member), nil_subset _⟩
  exact ⟨fun found => (start.rounds shallow _).descendants found,
    fun member => children_descendants runs root member⟩

def SessionEnds (runs : RunTable) (root child : Nat) : Prop :=
  ∀ row ∈ runs.get? child, ∀ other ∈ runs.rows, other.session = row.session →
    other.status.terminal = true ∨ other.id = root ∨ other.id ∈ children runs root

theorem finished_row (run : Run) (status : Status) (error : String) (outcome : Option Outcome)
    (now : Int) : (RunStatus.finished run status error outcome now).status.terminal = true ∧
      (RunStatus.finished run status error outcome now).parentRun = run.parentRun ∧
      (RunStatus.finished run status error outcome now).session = run.session := by
  cases status <;> exact ⟨rfl, rfl, rfl⟩

/-- A row, and what it is after statements that end the listed runs. -/
structure Ending (ids : List Nat) (row later : Run) : Prop where
  id_eq : later.id = row.id
  parent : later.parentRun = row.parentRun
  session : later.session = row.session
  kept : row.status.terminal = true → later.status.terminal = true
  ended : row.id ∈ ids → later.status.terminal = true
  other : row.id ∉ ids → later.status = row.status ∧ later.resumeBy = row.resumeBy

theorem Ending.refl {row : Run} (unlisted : row.id ∉ ids) : Ending ids row row :=
  ⟨rfl, rfl, rfl, id, fun listed => absurd listed unlisted, fun _ => ⟨rfl, rfl⟩⟩

theorem Ending.trans {more : List Nat} {row middle later : Run} (one : Ending ids row middle)
    (two : Ending more middle later) : Ending (ids ++ more) row later where
  id_eq := two.id_eq.trans one.id_eq
  parent := two.parent.trans one.parent
  session := two.session.trans one.session
  kept := fun ended => two.kept (one.kept ended)
  ended := by
    intro listed
    rcases mem_append.mp listed with first | second
    · exact two.kept (one.ended first)
    · exact two.ended (one.id_eq ▸ second)
  other := by
    intro unlisted
    have first := one.other fun listed => unlisted (mem_append_left _ listed)
    have second := two.other fun listed => unlisted (mem_append_right _ (one.id_eq ▸ listed))
    exact ⟨second.1.trans first.1, second.2.trans first.2⟩

/-- Every row comes from an earlier one, and the listed runs are ended. -/
abbrev Endings (ids : List Nat) (before after : RunTable) : Prop :=
  Table.Derives (Ending ids) before after

theorem Endings.trans {more : List Nat} {first second third : RunTable}
    (one : Endings ids first second) (two : Endings more second third) :
    Endings (ids ++ more) first third where
  sequence_eq := two.sequence_eq.trans one.sequence_eq
  origin := by
    intro id later found
    obtain ⟨middle, atMiddle, toLater⟩ := two.origin id later found
    obtain ⟨row, atFirst, toMiddle⟩ := one.origin id middle atMiddle
    exact ⟨row, atFirst, toMiddle.trans toLater⟩

theorem endings_updateWhere {condition : Run → Bool} {set : Table.Change Run.id}
    (met : ∀ row, condition row = true → Ending ids row (set.apply row))
    (missed : ∀ row, condition row = false → row.id ∉ ids) :
    Endings ids runs (runs.updateWhere condition set) where
  sequence_eq := rfl
  origin := by
    intro id later found
    rw [get?_updateWhere, Option.map_eq_some_iff] at found
    obtain ⟨row, stored, rfl⟩ := found
    refine ⟨row, stored, ?_⟩
    split
    · rename_i meets
      exact met row meets
    · rename_i other
      exact .refl (missed row (eq_false_iff.mpr other))

theorem update_endings (runs : RunTable) (root : Nat) (status : Status) (error : String)
    (outcome : Option Outcome) (now : Int) :
    Endings [root] runs (runs.update root (change (RunStatus.finished · status error outcome now)
      (RunStatus.finished_id · status error outcome now))) := by
  apply endings_updateWhere
  · intro row meets
    obtain ⟨ended, parent, session⟩ := finished_row row status error outcome now
    exact ⟨RunStatus.finished_id row status error outcome now, parent, session, fun _ => ended,
      fun _ => ended, fun other => absurd (mem_singleton.mpr (of_decide_eq_true meets)) other⟩
  · intro row missed listed
    exact of_decide_eq_false missed (mem_singleton.mp listed)

theorem cancelDescendants_endings (runs : RunTable) (ids : List Nat) (now : Int) :
    Endings ids runs (RunStatus.cancelDescendants runs ids now) := by
  apply endings_updateWhere
  · intro row meets
    exact ⟨rfl, rfl, rfl, fun _ => rfl, fun _ => rfl,
      fun other => absurd (of_decide_eq_true meets) other⟩
  · exact fun row missed => of_decide_eq_false missed

theorem cancelExecutions_endings (runs : RunTable) (ids : List Nat) :
    Endings [] runs (RunStatus.cancelExecutions runs ids) := by
  apply endings_updateWhere
  · exact fun row _ => ⟨rfl, rfl, rfl, id, fun listed => absurd listed not_mem_nil,
      fun _ => ⟨rfl, rfl⟩⟩
  · exact fun row _ => not_mem_nil

def closed (runs : RunTable) (root : Nat) (status : Status) (error : String)
    (outcome : Option Outcome) (now : Int) : RunTable :=
  let runs := runs.update root (change (RunStatus.finished · status error outcome now)
    (RunStatus.finished_id · status error outcome now))
  let descendants := (descendantRuns runs root).descendants
  RunStatus.cancelExecutions (RunStatus.cancelDescendants runs descendants now) descendants

theorem children_update (shallow : Shallow runs) (status : Status) (error : String)
    (outcome : Option Outcome) (now : Int) :
    id ∈ children (runs.update root (change (RunStatus.finished · status error outcome now)
      (RunStatus.finished_id · status error outcome now))) root ↔ id ∈ children runs root := by
  have same : ∀ row, runs.get? id = some row → row.parentRun = some root → row.id ≠ root := by
    intro row found parent atRoot
    obtain ⟨_, rfl⟩ := get?_eq_some.mp found
    have top := (shallow row.id row root found parent).2 row (atRoot ▸ found)
    rw [parent] at top
    cases top
  simp only [mem_children, Table.update, get?_updateWhere, Option.map_eq_some_iff,
    decide_eq_true_eq]
  constructor
  · rintro ⟨_, ⟨row, found, rfl⟩, parent, live⟩
    by_cases atRoot : row.id = root
    · rw [if_pos atRoot] at live
      have ended := (finished_row row status error outcome now).1
      exact absurd (ended.symm.trans live) (by decide)
    · rw [if_neg atRoot] at parent live
      exact ⟨row, found, parent, live⟩
  · rintro ⟨row, found, parent, live⟩
    refine ⟨row, ⟨row, found, if_neg (same row found parent)⟩, parent, live⟩

theorem closed_stays (runs : RunTable) (root : Nat) (status : Status) (error : String)
    (outcome : Option Outcome) (now : Int) :
    Stays runs (closed runs root status error outcome now) :=
  ((stays_updateWhere runs _ _).trans (stays_updateWhere _ _ _)).trans (stays_updateWhere _ _ _)

theorem closed_endings (shallow : Shallow runs) (root : Nat) (status : Status) (error : String)
    (outcome : Option Outcome) (now : Int) : ∃ ids, (∀ id, id ∈ ids ↔
      id = root ∨ id ∈ children runs root) ∧
      Endings ids runs (closed runs root status error outcome now) := by
  have first := update_endings runs root status error outcome now
  refine ⟨_, ?_, (first.trans (cancelDescendants_endings _ _ now)).trans
    (cancelExecutions_endings _ _)⟩
  intro id
  rw [append_nil, mem_append, mem_singleton, mem_descendants (shallow.ages ?_),
    children_update shallow]
  exact ⟨first.sequence_eq, fun id later found =>
    have ⟨row, stored, ending⟩ := first.origin id later found
    ⟨row, stored, .inl ending.parent, ending.kept⟩⟩

theorem get?_finalize (found : (RunStatus.finalizeDelegatedChildren runs root).get? id = some run) :
    ∃ row, runs.get? id = some row ∧ run.status = row.status ∧ run.resumeBy = row.resumeBy ∧
      (run.parentRun = row.parentRun ∨ run.parentRun = none) ∧
      (row.parentRun = some root → row.status.terminal = true →
        ∃ other ∈ runs.rows, other.session = row.session ∧ other.status.terminal = false) := by
  rw [RunStatus.finalizeDelegatedChildren, get?_updateWhere, Option.map_eq_some_iff] at found
  obtain ⟨row, left, is⟩ := found
  have stored := get?_deleteWhere left
  obtain ⟨present, _⟩ := get?_eq_some.mp stored
  have stays := (mem_filter.mp (get?_eq_some.mp left).1).2
  simp only [not_eq_true', decide_eq_false_iff_not, mem_filter, mem_map,
    mem_select, and_eq_true, decide_eq_true_eq, List.isEmpty_iff] at stays
  refine ⟨row, stored, ?_, ?_, ?_, ?_⟩
  · rw [← is]
    split <;> rfl
  · rw [← is]
    split <;> rfl
  · rw [← is]
    split
    · exact .inr rfl
    · exact .inl rfl
  · intro child ended
    have busy := fun empty => stays ⟨⟨row, ⟨present, child, ended⟩, rfl⟩, empty⟩
    obtain ⟨other, member⟩ := List.exists_mem_of_ne_nil _ busy
    obtain ⟨among, facts⟩ := mem_select.mp member
    rw [and_eq_true, decide_eq_true_eq, not_eq_true'] at facts
    exact ⟨other, among, facts⟩

theorem finalize_keeps (stored : runs.get? id = some run) (live : run.status.terminal = false)
    (root : Nat) :
    ∃ later, (RunStatus.finalizeDelegatedChildren runs root).get? id = some later := by
  obtain ⟨present, rfl⟩ := get?_eq_some.mp stored
  rw [RunStatus.finalizeDelegatedChildren]
  refine stays_updateWhere _ _ _ run.id run (get?_eq_some.mpr ⟨?_, rfl⟩)
  refine mem_filter.mpr ⟨present, ?_⟩
  simp only [not_eq_true', decide_eq_false_iff_not, List.mem_filter, List.isEmpty_iff]
  rintro ⟨_, empty⟩
  have among : run ∈ runs.select fun other =>
      decide (other.session = run.session) && !other.status.terminal :=
    mem_select.mpr ⟨present, by simp [live]⟩
  rw [empty] at among
  cases among

structure Finishes (root : Nat) (before after : RunTable) : Prop where
  sequence_eq : after.sequence = before.sequence
  origin : ∀ id run, after.get? id = some run → ∃ row, before.get? id = some row ∧
    RowAges row run ∧
    (id ≠ root → id ∉ children before root →
      run.status = row.status ∧ run.resumeBy = row.resumeBy)
  ended : ∀ id run, after.get? id = some run → id = root ∨ id ∈ children before root →
    run.status.terminal = true
  kept : ∀ id row, before.get? id = some row → row.status.terminal = false → id ≠ root →
    id ∉ children before root → ∃ later, after.get? id = some later
  reaped : ∀ id ∈ children before root, SessionEnds before root id → after.get? id = none

theorem terminate_finishes (shallow : Shallow runs) (stored : runs.get? run.id = some run)
    (status : Status) (error : String) (outcome : Option Outcome) (now : Int) :
    Finishes run.id runs (RunStatus.terminate runs run status error outcome now) := by
  obtain ⟨ids, listed, endings⟩ := closed_endings shallow run.id status error outcome now
  have origin : ∀ id later, (RunStatus.terminate runs run status error outcome now).get? id =
      some later → ∃ row middle, runs.get? id = some row ∧
        (closed runs run.id status error outcome now).get? id = some middle ∧
        Ending ids row middle ∧ later.status = middle.status ∧ later.resumeBy = middle.resumeBy ∧
        (later.parentRun = middle.parentRun ∨ later.parentRun = none) := by
    intro id later found
    rw [RunStatus.terminate] at found
    split at found
    · obtain ⟨middle, atMiddle, status, resume, parent, _⟩ := get?_finalize found
      obtain ⟨row, atFirst, ending⟩ := endings.origin id middle atMiddle
      exact ⟨row, middle, atFirst, atMiddle, ending, status, resume, parent⟩
    · obtain ⟨row, atFirst, ending⟩ := endings.origin id later found
      exact ⟨row, later, atFirst, found, ending, rfl, rfl, .inl rfl⟩
  refine ⟨?_, ?_, ?_, ?_, ?_⟩
  · rw [RunStatus.terminate]
    split <;> rfl
  · intro id later found
    obtain ⟨row, middle, atFirst, _, ending, status, resume, parent⟩ := origin id later found
    obtain ⟨_, rfl⟩ := get?_eq_some.mp atFirst
    refine ⟨row, atFirst, ⟨?_, fun ended => status ▸ ending.kept ended⟩, ?_⟩
    · exact parent.imp (fun same => same.trans ending.parent) id
    · intro notRoot notChild
      have same := ending.other fun member => ((listed row.id).mp member).elim notRoot notChild
      exact ⟨status.trans same.1, resume.trans same.2⟩
  · intro id later found among
    obtain ⟨row, middle, atFirst, _, ending, status, _, _⟩ := origin id later found
    obtain ⟨_, rfl⟩ := get?_eq_some.mp atFirst
    exact status ▸ ending.ended ((listed row.id).mpr among)
  · intro id row atFirst live notRoot notChild
    obtain ⟨middle, atMiddle⟩ := closed_stays runs run.id status error outcome now id row atFirst
    obtain ⟨old, atOld, ending⟩ := endings.origin id middle atMiddle
    rw [atFirst] at atOld
    cases atOld
    obtain ⟨_, rfl⟩ := get?_eq_some.mp atFirst
    have same := ending.other fun member => ((listed row.id).mp member).elim notRoot notChild
    rw [RunStatus.terminate]
    split
    · exact finalize_keeps atMiddle (same.1 ▸ live) run.id
    · exact ⟨middle, atMiddle⟩
  · intro id member spent
    obtain ⟨child, storedChild, parent, _⟩ := mem_children.mp member
    have top := (shallow id child run.id storedChild parent).2 run stored
    rw [Option.eq_none_iff_forall_ne_some]
    intro later found
    rw [RunStatus.terminate, if_pos top] at found
    obtain ⟨middle, atMiddle, _, _, _, busy⟩ := get?_finalize found
    obtain ⟨row, atFirst, ending⟩ := endings.origin id middle atMiddle
    rw [storedChild] at atFirst
    cases atFirst
    obtain ⟨_, rfl⟩ := get?_eq_some.mp storedChild
    -- Another run of the session keeps the child, and none is left that could.
    obtain ⟨other, present, session, live⟩ := busy (ending.parent.trans parent)
      (ending.ended ((listed child.id).mpr (.inr member)))
    obtain ⟨old, atOld, ended⟩ := endings.origin other.id other (get?_of_mem present)
    obtain ⟨presentOld, same⟩ := get?_eq_some.mp atOld
    have closes : other.status.terminal = true := by
      rcases spent child storedChild old presentOld
        (ended.session.symm.trans (session.trans ending.session)) with already | among
      · exact ended.kept already
      · exact ended.ended ((listed old.id).mpr among)
    rw [closes] at live
    cases live

theorem finishLensnodeRun_terminates (outcome : Option Outcome)
    (stops : terminates runs id status error manifestValid now = true) : ∃ run, runs.get? id = some run ∧
      RunStatus.finishLensnodeRun runs id status error outcome manifestValid now =
        RunStatus.terminate runs run status error outcome now := by
  rw [terminates, Option.any_eq_true] at stops
  obtain ⟨run, stored, facts⟩ := stops
  refine ⟨run, stored, ?_⟩
  simp only [and_eq_true, not_eq_true', and_eq_false_iff, or_eq_false_iff]
    at facts
  simp only [RunStatus.finishLensnodeRun, stored]
  grind

theorem finishLensnodeRun_steady (outcome : Option Outcome)
    (goesOn : terminates runs id status error manifestValid now = false) :
    Steady runs (RunStatus.finishLensnodeRun runs id status error outcome manifestValid now) := by
  unfold RunStatus.finishLensnodeRun
  cases stored : runs.get? id with
  | none => exact .refl runs
  | some run =>
    simp only [terminates, stored, Option.any_some] at goesOn
    by_cases ended : run.status.terminal = true
    · simp only [ended, if_true]
      exact .refl runs
    · have live := eq_false_iff.mpr ended
      simp only [live, false_eq_true, if_false]
      split_ifs with waits young valid
      · exact steady_update stored ⟨live.symm, rfl, fun waits => waits⟩
      · exact steady_update stored ⟨live.symm, rfl, fun waits => waits⟩
      · grind
      · exact .refl runs

end SourceLens.RunClosing
