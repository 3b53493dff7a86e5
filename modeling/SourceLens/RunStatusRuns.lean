import Mathlib.Data.List.Perm.Subperm
import SourceLens.RunStatusWriters

/-! Which interleavings of the writers keep the terminal statuses of a Run. The
writers that lock a row or repeat the status in their condition keep them always;
the writers that update by primary key what they read in an earlier step do not. -/

namespace SourceLens.RunStatus

open Transition List Bool Table

variable {runs : RunTable} {run : Run}

/-- Every run that is terminal in the earlier world and still stored in the later
one has the same status there. -/
def TerminalKept (earlier later : World) : Prop :=
  Table.Kept Run.status (fun status => status.terminal = true) earlier.runs later.runs

def TerminalCarried (before after : RunTable) : Prop :=
  Table.Carried Run.status (fun status => status.terminal = true) before after

theorem Status.unfinished_not_terminal {status : Status} (unfinished : status.unfinished = true) :
    ¬ status.terminal = true := by
  cases status <;> simp_all [Status.unfinished, Status.terminal]

theorem Status.active_not_terminal {status : Status} (active : status.active = true) :
    ¬ status.terminal = true := by
  cases status <;> simp_all [Status.active, Status.terminal]

theorem children_nodup (runs : RunTable) (parent : Nat) : (children runs parent).Nodup :=
  runs.distinct.sublist (filter_sublist.map Run.id)

theorem mem_children {parent child : Nat} (member : child ∈ children runs parent) :
    ∃ run, runs.get? child = some run ∧ run.status.unfinished = true := by
  rcases mem_map.mp member with ⟨run, selected, rfl⟩
  rcases mem_select.mp selected with ⟨present, meets⟩
  rw [and_eq_true] at meets
  exact ⟨run, get?_of_mem present, meets.2⟩

def Walk.Sound (runs : RunTable) (walk : Walk) : Prop :=
  ∀ id ∈ walk.descendants, ∃ run, runs.get? id = some run ∧ run.status.unfinished = true

theorem Walk.Sound.visit {walk : Walk} (sound : walk.Sound runs) :
    (walk.visit runs).Sound runs := by
  unfold Walk.visit
  split
  · exact sound
  · intro id member
    rcases mem_append.mp member with old | fresh
    · exact sound id old
    · exact mem_children (mem_of_mem_filter fresh)

theorem Walk.Sound.rounds (count : Nat) {walk : Walk} (sound : walk.Sound runs) :
    ((Walk.visit runs)^[count] walk).Sound runs := by
  induction count generalizing walk with
  | zero => exact sound
  | succ count ih => exact ih sound.visit

theorem descendantRuns_sound (runs : RunTable) (root : Nat) : (descendantRuns runs root).Sound runs :=
  Walk.Sound.rounds _ nofun

def unseen (runs : RunTable) (found : List Nat) : List Nat :=
  (runs.rows.map Run.id).filter fun id => decide (id ∉ found)

theorem unseen_append_length (runs : RunTable) (found fresh : List Nat) (distinct : fresh.Nodup)
    (new : fresh ⊆ unseen runs found) :
    (unseen runs (found ++ fresh)).length + fresh.length ≤ (unseen runs found).length := by
  have rest : unseen runs (found ++ fresh) =
      (unseen runs found).filter fun id => !decide (id ∈ fresh) := by
    simp only [unseen, filter_filter]
    apply filter_congr
    intro id _
    simp [Bool.and_comm]
  have listed : fresh ⊆ (unseen runs found).filter fun id => decide (id ∈ fresh) := by
    intro id member
    exact mem_filter.mpr ⟨new member, decide_eq_true member⟩
  have most := (subperm_of_subset distinct listed).length_le
  have parts := length_eq_length_filter_add (l := unseen runs found)
    fun id => decide (id ∈ fresh)
  rw [rest]
  omega

theorem Walk.visit_shrinks (runs : RunTable) (walk : Walk) (pending : walk.pending ≠ []) :
    (walk.visit runs).pending.length + (unseen runs (walk.visit runs).descendants).length + 1 ≤
      walk.pending.length + (unseen runs walk.descendants).length := by
  have last := List.getLast?_eq_some_getLast pending
  simp only [Walk.visit, last]
  generalize freshEq : (children runs (walk.pending.getLast pending)).filter (fun child =>
    decide (child ∉ walk.descendants)) = fresh
  have distinct : fresh.Nodup := freshEq ▸ (children_nodup runs _).sublist filter_sublist
  have new : fresh ⊆ unseen runs walk.descendants := by
    intro id member
    rw [← freshEq] at member
    rcases mem_filter.mp member with ⟨child, notFound⟩
    rcases mem_children child with ⟨run, found, _⟩
    rcases get?_eq_some.mp found with ⟨present, rfl⟩
    exact mem_filter.mpr ⟨mem_map_of_mem present, notFound⟩
  have shrinks := unseen_append_length runs walk.descendants fresh distinct new
  have nonempty := length_pos_iff.mpr pending
  rw [length_append, length_dropLast]
  omega

theorem Walk.rounds_finish (runs : RunTable) (count : Nat) (walk : Walk)
    (enough : walk.pending.length + (unseen runs walk.descendants).length ≤ count) :
    ((Walk.visit runs)^[count] walk).pending = [] := by
  induction count generalizing walk with
  | zero =>
    have none : walk.pending.length = 0 := by omega
    exact eq_nil_of_length_eq_zero none
  | succ count ih =>
    by_cases pending : walk.pending = []
    · have still : walk.visit runs = walk := by simp [Walk.visit, pending]
      rw [Function.iterate_fixed still, pending]
    · have shrinks := walk.visit_shrinks runs pending
      exact ih (walk.visit runs) (by omega)

/-- The rounds of `descendantRuns` suffice: the loop of the source has ended. -/
theorem descendantRuns_finish (runs : RunTable) (root : Nat) :
    (descendantRuns runs root).pending = [] := by
  apply Walk.rounds_finish
  have most := length_filter_le (fun id => decide (id ∉ [])) (runs.rows.map Run.id)
  rw [length_map] at most
  simp only [length_singleton, unseen]
  omega

/-- Below the root along the parent links of unfinished runs. -/
def LiesBelow (runs : RunTable) (root id : Nat) : Prop :=
  Relation.TransGen (fun parent child => child ∈ children runs parent) root id

structure Walk.Reached (runs : RunTable) (root : Nat) (walk : Walk) : Prop where
  pending : ∀ id ∈ walk.pending, id = root ∨ LiesBelow runs root id
  descendants : ∀ id ∈ walk.descendants, LiesBelow runs root id
  closed : ∀ id ∈ root :: walk.descendants,
    id ∈ walk.pending ∨ children runs id ⊆ walk.descendants

theorem Walk.Reached.visit {root : Nat} (walk : Walk) (reached : walk.Reached runs root) :
    (walk.visit runs).Reached runs root := by
  unfold Walk.visit
  split
  · exact reached
  · rename_i parent last
    have fresh : ∀ id ∈ (children runs parent).filter fun child =>
        decide (child ∉ walk.descendants), LiesBelow runs root id := by
      intro id new
      rcases reached.pending parent (mem_of_getLast? last) with rfl | below
      · exact .single (mem_of_mem_filter new)
      · exact .tail below (mem_of_mem_filter new)
    refine ⟨?_, forall_mem_append.mpr ⟨reached.descendants, fresh⟩, ?_⟩
    · exact forall_mem_append.mpr ⟨fun id waits => reached.pending id (dropLast_subset _ waits),
        fun id new => .inr (fresh id new)⟩
    · intro id known
      have closed := reached.closed id
      rcases getLast?_eq_some_iff.mp last with ⟨front, popped⟩
      simp only [popped, dropLast_concat] at closed ⊢
      -- Only the run that is taken leaves `pending`, and its children are found now.
      grind

/-- A cancellation finds the whole tree of unfinished runs below its root and no other run,
also where the parent links run in a circle. -/
theorem descendantRuns_exact (runs : RunTable) (root id : Nat) :
    (descendantRuns runs root).pending = [] ∧
      (id ∈ (descendantRuns runs root).descendants ↔ LiesBelow runs root id) := by
  have reached : (descendantRuns runs root).Reached runs root :=
    Function.Iterate.rec (Walk.Reached runs root) ⟨by simp, by simp, by simp⟩ .visit _
  have closed := reached.closed
  rw [descendantRuns_finish] at closed
  refine ⟨descendantRuns_finish .., reached.descendants id, fun below => ?_⟩
  induction below with
  | single child => exact (closed root mem_cons_self).resolve_left not_mem_nil child
  | tail _ child ih => exact (closed _ (mem_cons_of_mem _ ih)).resolve_left not_mem_nil child

theorem cancelDescendants_carried (runs : RunTable) (root : Nat) (now : Int) :
    TerminalCarried runs (cancelDescendants runs (descendantRuns runs root).descendants now) := by
  apply carried_conditional
  intro run present listed
  rcases descendantRuns_sound runs root run.id (of_decide_eq_true listed) with
    ⟨found, stored, unfinished⟩
  rw [get?_of_mem present] at stored
  cases stored
  exact Status.unfinished_not_terminal unfinished

theorem cancelExecutions_carried (runs : RunTable) (ids : List Nat) :
    TerminalCarried runs (cancelExecutions runs ids) := by
  apply carried_other
  intro row
  rfl

theorem finalizeDelegatedChildren_carried (runs : RunTable) (run : Nat) :
    TerminalCarried runs (finalizeDelegatedChildren runs run) := by
  apply (carried_deleteWhere runs _).trans
  apply carried_other
  intro row
  rfl

theorem terminate_carried (stored : runs.get? run.id = some run)
    (unsettled : run.status.terminal = false) (status : Status) (error : String)
    (outcome : Option Outcome) (now : Int) :
    TerminalCarried runs (terminate runs run status error outcome now) := by
  have closed : TerminalCarried runs (runs.update run.id
      (change (finished · status error outcome now) (finished_id · status error outcome now))) :=
    carried_locked stored (by simp [unsettled])
  have cancelled := closed.trans (cancelDescendants_carried _ run.id now)
  simp only [terminate]
  split
  · exact (cancelled.trans (cancelExecutions_carried _ _)).trans
      (finalizeDelegatedChildren_carried _ _)
  · exact cancelled.trans (cancelExecutions_carried _ _)

theorem finishLensnodeRun_carried (runs : RunTable) (id : Nat) (status : Status) (error : String)
    (outcome : Option Outcome) (manifestValid : Bool) (now : Int) :
    TerminalCarried runs
      (finishLensnodeRun runs id status error outcome manifestValid now) := by
  unfold finishLensnodeRun
  cases stored : runs.get? id with
  | none => exact .refl runs
  | some run =>
    simp only
    by_cases terminal : run.status.terminal = true
    · rw [if_pos terminal]
      exact .refl runs
    · rw [if_neg terminal]
      split
      · exact carried_locked stored terminal
      · split
        · exact carried_locked stored terminal
        · split
          · have same := (get?_eq_some.mp stored).2
            rw [← same] at stored
            exact terminate_carried stored (by simpa using terminal) status error outcome now
          · exact .refl runs

theorem resumeLocked_carried {unsupported : RunTable} (stored : runs.get? run.id = some run)
    (active : run.status.active = true) (rejected : TerminalCarried runs unsupported)
    (lensnode : LensNode) (now : Int) :
    TerminalCarried runs (resumeLocked runs run lensnode unsupported now) := by
  have unsettled := Status.active_not_terminal active
  unfold resumeLocked
  split
  · exact .refl runs
  · split_ifs
    · exact carried_locked stored unsettled
    · exact .refl runs
    · exact rejected
    · exact .refl runs
    · exact carried_locked stored unsettled

theorem resumeAwaitingRun_carried (runs : RunTable) (nodes : List LensNode) (id : Nat)
    (now : Int) : TerminalCarried runs (resumeAwaitingRun runs nodes id now) := by
  unfold resumeAwaitingRun
  split
  · exact .refl runs
  · rename_i run stored
    rw [← (get?_eq_some.mp stored).2] at stored
    split
    · exact .refl runs
    · split
      · rename_i lensnode found meets
        simp only [and_eq_true] at meets
        exact resumeLocked_carried stored meets.1.2 (.refl runs) lensnode now
      · exact .refl runs

theorem resumeNext_carried (runs : RunTable) (lensnode : LensNode) (id : Nat)
    (raised : Option String) (now : Int) :
    TerminalCarried runs (resumeNext runs lensnode id raised now) := by
  unfold resumeNext
  split
  · exact .refl runs
  · exact .refl runs
  · rename_i run stored
    rw [← (get?_eq_some.mp stored).2] at stored
    simp only
    split
    · rename_i meets
      simp only [and_eq_true] at meets
      have active := meets.1.1.2
      apply resumeLocked_carried stored active
      exact carried_locked stored (Status.active_not_terminal active)
    · exact .refl runs

theorem carried_active {condition : Run → Bool}
    (names : ∀ run, condition run = true → run.status.active = true) (set : Table.Change Run.id) :
    TerminalCarried runs (runs.updateWhere condition set) := by
  apply carried_conditional
  intro run _ meets
  exact Status.active_not_terminal (names run meets)

theorem markAwaiting_carried (runs : RunTable) (settings : Settings) (run : Run)
    (lensnode : Option LensNode) (now : Int) :
    TerminalCarried runs (markAwaiting runs settings run lensnode now) := by
  apply carried_active
  intro row meets
  rw [and_eq_true] at meets
  exact meets.2

theorem confirmUpdate_carried (runs : RunTable) (settings : Settings) (run : Run)
    (lensnode : Option LensNode) (cutoff now : Int) :
    TerminalCarried runs (confirmUpdate runs settings run lensnode cutoff now).1 := by
  apply carried_active
  intro row meets
  simp only [and_eq_true] at meets
  exact meets.1.2

theorem expireUpdate_carried (runs : RunTable) (id : Nat) (now : Int) :
    TerminalCarried runs (expireUpdate runs id now) := by
  apply carried_active
  intro row meets
  simp only [and_eq_true] at meets
  exact meets.1.2

theorem cleanupExpired_carried (runs : RunTable) (now : Int) :
    TerminalCarried runs (cleanupExpired runs now) := by
  apply carried_active
  intro row meets
  rw [and_eq_true] at meets
  exact meets.1

/-- The keys and the status of a write that does not look at the stored status. -/
def Task.blindWrite (inputs : Inputs) : Task → Option (List Nat × Status)
  | .executeRunning run _ => if inputs.raised.isNone then some ([run.id], .running) else none
  | .executeStreaming run => if inputs.raised.isNone then some ([run.id], .streaming) else none
  | .markRunFailed run _ => some ([run.id], .failed)
  | .failActive ids _ => some (ids, .failed)
  | .cleanupStale ids _ => some (ids, .failed)
  | .cancelDescendants ids => some (ids, .cancelled)
  | .cancelNext run _ _ _ => some ([run], .cancelled)
  | _ => none

theorem tryExecute_save (runs : RunTable) (run : Run) (set : Table.Change Run.id)
    (next : Option Task) :
    (tryExecute runs run none (do
      let saved ← save runs run.id set
      return (saved, next))).1 = runs.update run.id set := by
  cases found : runs.get? run.id with
  | none =>
    rw [update_missing found]
    simp [save, found, tryExecute, bind, Except.bind]
  | some row => simp [save, found, tryExecute, bind, Except.bind, pure, Except.pure]

theorem tryExecute_raised (runs : RunTable) (run : Run) (error : String)
    (body : Except String Effect) : (tryExecute runs run (some error) body).1 = runs := by
  cases body <;> rfl

theorem blindWrite_effect {task : Task} {inputs : Inputs} {keys : List Nat} {written : Status}
    (blind : task.blindWrite inputs = some (keys, written)) (runs : RunTable)
    (nodes : List LensNode) :
    ∃ set : Table.Change Run.id, (∀ row, (set.apply row).status = written) ∧
      (task.advance runs nodes inputs).1 =
        runs.updateWhere (fun row => decide (row.id ∈ keys)) set := by
  cases task with
  | executeRunning run dispatch =>
    simp only [Task.blindWrite, Option.ite_none_right_eq_some, Option.isNone_iff_eq_none] at blind
    rcases blind with ⟨quiet, same⟩
    cases same
    refine ⟨startRunning run inputs.now, fun row => rfl, ?_⟩
    rw [Task.advance, quiet, RunStatus.executeRunning, tryExecute_save, update_eq_listed]
  | executeStreaming run =>
    simp only [Task.blindWrite, Option.ite_none_right_eq_some, Option.isNone_iff_eq_none] at blind
    rcases blind with ⟨quiet, same⟩
    cases same
    refine ⟨startStreaming, fun row => rfl, ?_⟩
    rw [Task.advance, quiet, RunStatus.executeStreaming, tryExecute_save,
      update_eq_listed]
  | markRunFailed run error =>
    cases blind
    exact ⟨_, fun _ => rfl, update_eq_listed runs run.id _⟩
  | failActive ids now =>
    cases blind
    exact ⟨_, fun _ => rfl, rfl⟩
  | cleanupStale ids now =>
    cases blind
    exact ⟨_, fun _ => rfl, rfl⟩
  | cancelDescendants ids =>
    cases blind
    exact ⟨_, fun _ => rfl, rfl⟩
  | cancelNext run rest reason now =>
    cases blind
    exact ⟨_, fun _ => rfl, update_eq_listed runs run _⟩
  | _ => simp [Task.blindWrite] at blind

theorem executeGraph_carried (runs : RunTable) (run : Run) (dispatch : Bool)
    (raised : Option String) (now : Int) :
    TerminalCarried runs (tryExecute runs run raised (executeGraph runs run dispatch now)).1 := by
  cases raised with
  | some error => exact .refl runs
  | none =>
    cases dispatch with
    | true => exact .refl runs
    | false => exact finishLensnodeRun_carried runs run.id .done "" none true now

/-- The parts of the `try` that read only. -/
theorem tryExecute_read {raised : Option String} {body : Except String Effect}
    (reads : ∀ effect, body = .ok effect → effect.1 = runs) :
    (tryExecute runs run raised body).1 = runs := by
  cases raised with
  | some error => cases body <;> rfl
  | none =>
    cases body with
    | error error => rfl
    | ok effect => exact reads effect rfl

theorem executePrepare_reads {dispatch : Bool} {effect : Effect}
    (returned : executePrepare runs run dispatch = .ok effect) : effect.1 = runs := by
  unfold executePrepare at returned
  cases found : stored runs run.id with
  | error error => simp [found, bind, Except.bind] at returned
  | ok row =>
    simp only [found, bind, Except.bind, pure, Except.pure, Except.ok.injEq] at returned
    rw [← returned]

theorem executeRefresh_reads {dispatch : Bool} {effect : Effect}
    (returned : executeRefresh runs run dispatch = .ok effect) : effect.1 = runs := by
  unfold executeRefresh at returned
  cases found : stored runs run.id with
  | error error => simp [found, bind, Except.bind] at returned
  | ok row =>
    simp only [found, bind, Except.bind, pure, Except.pure, Except.ok.injEq] at returned
    rw [← returned]

theorem call_carried (call : Call) (runs : RunTable) (nodes : List LensNode) (inputs : Inputs) :
    TerminalCarried runs (call.advance runs nodes inputs).1 := by
  cases call with
  | finishLensnodeRun run status error outcome manifestValid =>
    exact finishLensnodeRun_carried runs run status error outcome manifestValid inputs.now
  | resumeAwaitingRun run => exact resumeAwaitingRun_carried runs nodes run inputs.now
  | _ => exact .refl runs

theorem task_carried {task : Task} {inputs : Inputs} (sighted : task.blindWrite inputs = none)
    (runs : RunTable) (nodes : List LensNode) :
    TerminalCarried runs (task.advance runs nodes inputs).1 := by
  cases task with
  | called call => exact call_carried call runs nodes inputs
  | executePrepare run dispatch =>
    rw [Task.advance, tryExecute_read fun _ => executePrepare_reads]
    exact .refl runs
  | executeRefresh run dispatch =>
    rw [Task.advance, tryExecute_read fun _ => executeRefresh_reads]
    exact .refl runs
  | executeGraph run dispatch =>
    exact executeGraph_carried runs run dispatch inputs.raised inputs.now
  | executeRunning run dispatch =>
    cases raised : inputs.raised with
    | none => simp [Task.blindWrite, raised] at sighted
    | some error =>
      rw [Task.advance, raised, tryExecute_raised]
      exact .refl runs
  | executeStreaming run =>
    cases raised : inputs.raised with
    | none => simp [Task.blindWrite, raised] at sighted
    | some error =>
      rw [Task.advance, raised, tryExecute_raised]
      exact .refl runs
  | markAwaiting run lensnode rest now =>
    exact markAwaiting_carried runs inputs.settings run lensnode now
  | resumeNext lensnode run rest =>
    exact resumeNext_carried runs lensnode run inputs.raised inputs.now
  | confirmUpdate run lensnode cutoff now =>
    exact confirmUpdate_carried runs inputs.settings run lensnode cutoff now
  | expireUpdate run now => exact expireUpdate_carried runs run now
  | cleanupExpired now => exact cleanupExpired_carried runs now
  | markRunFailed | failActive | cleanupStale | cancelDescendants | cancelNext => cases sighted
  | executeCount | markActive | resumeReported | confirmOnline | visitDescendants =>
    exact .refl runs

def blindWriteOf (world : World) : Action → Option (List Nat × Status)
  | .advance index inputs => (world.tasks[index]?).bind (Task.blindWrite inputs)
  | _ => none

/-- A blind write meets no row that holds another terminal status by then. -/
def Undisturbed (world : World) (action : Action) : Prop :=
  ∀ write ∈ blindWriteOf world action, ∀ key ∈ write.1, ∀ run ∈ world.runs.get? key,
    run.status.terminal = true → run.status = write.2

instance (world : World) (action : Action) : Decidable (Undisturbed world action) :=
  inferInstanceAs (Decidable (∀ write ∈ blindWriteOf world action, ∀ key ∈ write.1,
    ∀ run ∈ world.runs.get? key, run.status.terminal = true → run.status = write.2))

theorem step_carried {world next : World} {action : Action} (allowed : Undisturbed world action)
    (taken : step world action = some next) : TerminalCarried world.runs next.runs := by
  cases action with
  | call call =>
    cases taken
    exact .refl world.runs
  | advance index inputs =>
    rw [step, Option.map_eq_some_iff] at taken
    rcases taken with ⟨task, current, rfl⟩
    cases blind : task.blindWrite inputs with
    | none => exact task_carried blind world.runs world.nodes
    | some write =>
      rcases blindWrite_effect blind world.runs world.nodes with ⟨set, writes, effect⟩
      simp only [effect]
      apply carried_unconditional writes
      apply allowed write
      simp only [blindWriteOf, current, Option.bind_some, blind, Option.mem_def]
  | write row =>
    cases taken
    apply carried_other
    intro stored
    rfl
  | create row =>
    cases taken
    exact carried_create world.runs (created row) (created_id row)
  | delete ids =>
    cases taken
    exact carried_deleteWhere _ _
  | nodes nodes =>
    cases taken
    exact .refl world.runs

theorem step_undisturbed {world next : World} {action : Action}
    (taken : step world action = some next) (kept : TerminalKept world next) :
    Undisturbed world action := by
  cases action with
  | advance index inputs =>
    intro write pending
    rcases Option.bind_eq_some_iff.mp pending with ⟨task, current, blind⟩
    rw [step, current] at taken
    cases taken
    rcases blindWrite_effect blind world.runs world.nodes with ⟨set, writes, effect⟩
    simp only [TerminalKept, effect] at kept
    exact kept_unconditional writes kept
  | _ =>
    intro write pending
    cases pending

theorem undisturbed_carried {start finish : World} {actions : List Action}
    (run : Steps step Undisturbed start actions finish) :
    TerminalCarried start.runs finish.runs := by
  induction run with
  | nil state => exact .refl state.runs
  | cons allowed taken later ih => exact (step_carried allowed taken).trans ih

/-- Along a run of the writers, in any interleaving, terminal statuses are
absorbing exactly when every blind write is undisturbed. -/
theorem terminal_statuses_absorbing {start finish : World} {actions : List Action}
    (run : Steps step Any start actions finish) :
    Along step TerminalKept start actions ↔ Steps step Undisturbed start actions finish := by
  constructor
  · intro along
    apply along.guarded _ run
    intro state action next taken kept
    exact step_undisturbed taken kept
  · intro undisturbed
    refine undisturbed.along ?_
    intro earlier later actions between
    exact (undisturbed_carried between).kept

def silentRun : Run where
  id := 0
  status := .running
  session := 0
  assistant := 0
  parentRun := none
  lensnode := some 0
  evaluation := none
  error := ""
  outcome := none
  startedAt := some 0
  lastActivityAt := some 0
  resumeBy := none
  finishedAt := none
  createdAt := 0
  execution := some ⟨.running, none, none⟩

def silentWorld : World where
  runs := ⟨[silentRun], 1, by decide, by decide⟩
  nodes := []
  tasks := []

def tenHours : Inputs := ⟨hours 10, ⟨none, none, none, none⟩, none⟩

/-- The cleanup times the run out, and its answer arrives afterwards. -/
def answeredAfterwards : List Action :=
  [.call .lensnodeCleanupTask, .advance 0 tenHours, .advance 0 tenHours,
    .call (.finishLensnodeRun 0 .done "" none true), .advance 1 tenHours]

theorem terminal_statuses_absorbing_run :
    ∃ finish, Steps step Any silentWorld answeredAfterwards finish ∧
      (finish.runs.get? 0).any (decide <| ·.status = .failed) = true ∧
      Along step TerminalKept silentWorld answeredAfterwards := by
  have outcome : (execGuarded step Undisturbed silentWorld answeredAfterwards).any (fun world =>
      (world.runs.get? 0).any (decide <| ·.status = .failed)) = true := by
    decide +kernel
  rcases (Option.any_eq_true _ _).mp outcome with ⟨finish, reached, failed⟩
  have undisturbed := execGuarded_steps reached
  have run : Steps step Any silentWorld answeredAfterwards finish :=
    undisturbed.weaken fun _ _ _ => trivial
  exact ⟨finish, run, failed, (terminal_statuses_absorbing run).mpr undisturbed⟩

/-- The cleanup lists the run as stale, and its answer arrives before the
cleanup's transaction. -/
def answeredMeanwhile : List Action :=
  [.call .lensnodeCleanupTask, .advance 0 tenHours,
    .call (.finishLensnodeRun 0 .done "" none true), .advance 1 tenHours]

theorem cleanup_overwrites_done :
    ¬ ∀ (start finish : World) (actions : List Action), start.tasks = [] →
      Steps step Any start actions finish → Along step TerminalKept start actions := by
  intro absorbing
  have outcome : (exec step silentWorld answeredMeanwhile).any (fun world =>
      (world.runs.get? 0).any (decide <| ·.status = .done) &&
        (step world (.advance 0 tenHours)).any fun next =>
          (next.runs.get? 0).any (decide <| ·.status = .failed)) = true := by
    decide +kernel
  rcases (Option.any_eq_true _ _).mp outcome with ⟨middle, reached, facts⟩
  rw [and_eq_true] at facts
  rcases (Option.any_eq_true _ _).mp facts.1 with ⟨run, stored, done⟩
  rcases (Option.any_eq_true _ _).mp facts.2 with ⟨finish, taken, overwritten⟩
  rcases (Option.any_eq_true _ _).mp overwritten with ⟨later, storedLater, failed⟩
  have front := exec_steps reached
  have last : Steps step Any middle [.advance 0 tenHours] finish := .single trivial taken
  have along := absorbing silentWorld finish _ rfl (front.append last)
  have kept := along answeredMeanwhile [.advance 0 tenHours] [] middle finish
    (append_nil _).symm front last
  have same := kept 0 run later stored (by rw [of_decide_eq_true done]; rfl) storedLater
  rw [of_decide_eq_true done, of_decide_eq_true failed] at same
  cases same

end SourceLens.RunStatus
