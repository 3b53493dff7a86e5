import SourceLens.AssistantConcurrency

/-! What one step of a writer does to the rows it finds, and which task follows it. Only
the two saves of `execute_answer_run` make a run active that was not. -/

namespace SourceLens.AssistantConcurrency

open Transition RunStatus Bool

variable {set : Table.Change Run.id} {run : Run} {condition : Run → Bool} {effect : Effect}

/-- What a step may do to a row: it is started only where it is one of the raised ones. -/
structure Moves (raised : List Nat) (row later : Run) : Prop where
  id : later.id = row.id
  assistant : later.assistant = row.assistant
  idle : Idle row → Idle later
  active : Idle row → later.status.active = true → row.status.active = true ∨ row.id ∈ raised

variable {raised : List Nat} {row middle later : Run} {runs : RunTable}

theorem Moves.refl (row : Run) : Moves raised row row where
  id := rfl
  assistant := rfl
  idle := fun idle => idle
  active := fun _ active => .inl active

theorem Moves.trans (one : Moves raised row middle) (other : Moves raised middle later) :
    Moves raised row later where
  id := other.id.trans one.id
  assistant := other.assistant.trans one.assistant
  idle := fun idle => other.idle (one.idle idle)
  active := by
    intro idle active
    cases other.active (one.idle idle) active with
    | inl before => exact one.active idle before
    | inr listed => exact .inr (one.id ▸ listed)

theorem Moves.ended (id : later.id = row.id) (assistant : later.assistant = row.assistant)
    (terminal : later.status.terminal = true) : Moves raised row later where
  id := id
  assistant := assistant
  idle := by
    intro _ queued
    rw [queued] at terminal
    cases terminal
  active := fun _ active => absurd terminal (Status.active_not_terminal active)

theorem Moves.requeued (id : later.id = row.id) (assistant : later.assistant = row.assistant)
    (queued : later.status = .queued) (idle : Idle later) : Moves raised row later where
  id := id
  assistant := assistant
  idle := fun _ => idle
  active := by
    intro _ active
    rw [queued] at active
    cases active

theorem Moves.started (id : later.id = row.id) (assistant : later.assistant = row.assistant)
    (active : later.status.active = true) (allowed : row.status.active = true ∨ row.id ∈ raised) :
    Moves raised row later where
  id := id
  assistant := assistant
  idle := by
    intro _ queued
    rw [queued] at active
    cases active
  active := fun _ _ => allowed

abbrev Moved (raised : List Nat) (before after : RunTable) : Prop :=
  Table.Derives (Moves raised) before after

theorem Moved.refl (runs : RunTable) : Moved raised runs runs :=
  Table.Derives.refl Moves.refl runs

theorem Moved.trans {first second third : RunTable} (one : Moved raised first second)
    (other : Moved raised second third) : Moved raised first third :=
  Table.Derives.trans (fun _ _ _ => Moves.trans) one other

theorem moved_updateWhere
    (related : ∀ row ∈ runs.rows, condition row = true → Moves raised row (set.apply row)) :
    Moved raised runs (runs.updateWhere condition set) :=
  Table.derives_updateWhere Moves.refl related

theorem moved_deleteWhere (runs : RunTable) (condition : Run → Bool) :
    Moved raised runs (runs.deleteWhere condition) :=
  Table.derives_deleteWhere Moves.refl runs condition

theorem moved_locked {id : Nat} (stored : runs.get? id = some row)
    (related : Moves raised row (set.apply row)) : Moved raised runs (runs.update id set) := by
  apply moved_updateWhere
  intro other present meets
  have same := Table.get?_of_mem present
  rw [of_decide_eq_true meets, stored] at same
  cases same
  exact related

theorem moved_ended (assistant : ∀ row, (set.apply row).assistant = row.assistant)
    (terminal : ∀ row, (set.apply row).status.terminal = true) :
    Moved raised runs (runs.updateWhere condition set) :=
  moved_updateWhere fun row _ _ => .ended (set.keeps row) (assistant row) (terminal row)

/-! ### `finish_lensnode_run` and the resume paths -/

theorem cancelExecutions_moved (runs : RunTable) (ids : List Nat) :
    Moved raised runs (cancelExecutions runs ids) :=
  moved_updateWhere fun _ _ _ => ⟨rfl, rfl, fun idle => idle, fun _ active => .inl active⟩

theorem cancelDescendants_moved (runs : RunTable) (ids : List Nat) (now : Int) :
    Moved raised runs (cancelDescendants runs ids now) :=
  moved_ended (fun _ => rfl) fun _ => rfl

theorem finalizeDelegatedChildren_moved (runs : RunTable) (run : Nat) :
    Moved raised runs (finalizeDelegatedChildren runs run) := by
  apply (moved_deleteWhere runs _).trans
  exact moved_updateWhere fun _ _ _ => ⟨rfl, rfl, fun idle => idle, fun _ active => .inl active⟩

theorem finished_terminal (run : Run) (status : Status) (error : String)
    (outcome : Option Outcome) (now : Int) :
    (finished run status error outcome now).status.terminal = true := by
  cases status <;> rfl

theorem finished_assistant (run : Run) (status : Status) (error : String)
    (outcome : Option Outcome) (now : Int) :
    (finished run status error outcome now).assistant = run.assistant := by
  cases status <;> rfl

theorem terminate_moved (runs : RunTable) (run : Run) (status : Status) (error : String)
    (outcome : Option Outcome) (now : Int) :
    Moved raised runs (terminate runs run status error outcome now) := by
  have closed : Moved raised runs (runs.update run.id
      (change (finished · status error outcome now) (finished_id · status error outcome now))) :=
    moved_ended (finished_assistant · status error outcome now)
      (finished_terminal · status error outcome now)
  have cancelled := closed.trans (cancelDescendants_moved _
    (descendantRuns (runs.update run.id (change (finished · status error outcome now)
      (finished_id · status error outcome now))) run.id).descendants now)
  simp only [terminate]
  split
  · exact (cancelled.trans (cancelExecutions_moved _ _)).trans (finalizeDelegatedChildren_moved _ _)
  · exact cancelled.trans (cancelExecutions_moved _ _)

theorem parked_active (idle : Idle row) (unsettled : ¬ row.status.terminal = true)
    (parked : row.resumeBy.isSome = true) : row.status.active = true := by
  cases held : row.status with
  | queued =>
    rw [idle held] at parked
    cases parked
  | running => rfl
  | streaming => rfl
  | awaitingUserInput | done | failed | cancelled =>
    rw [held] at unsettled
    exact absurd rfl unsettled

theorem finishLensnodeRun_moved (runs : RunTable) (id : Nat) (status : Status) (error : String)
    (outcome : Option Outcome) (manifestValid : Bool) (now : Int) :
    Moved raised runs (finishLensnodeRun runs id status error outcome manifestValid now) := by
  rw [finishLensnodeRun]
  split
  · exact .refl runs
  · rename_i run stored
    by_cases terminal : run.status.terminal = true
    · rw [if_pos terminal]
      exact .refl runs
    · rw [if_neg terminal]
      dsimp only
      split
      · rename_i again
        have parked := (and_eq_true_iff.mp again).2
        exact moved_locked stored ⟨rfl, rfl, fun _ queued => (by cases queued),
          fun idle _ => .inl (parked_active idle terminal parked)⟩
      · rename_i notParked
        split
        · rename_i again
          have admission := (and_eq_true_iff.mp again).1
          rw [admission, Bool.true_and, Bool.not_eq_true, Option.isSome_eq_false_iff,
            Option.isNone_iff_eq_none] at notParked
          exact moved_locked stored (.requeued rfl rfl rfl fun _ => notParked)
        · split
          · exact terminate_moved runs run status error outcome now
          · exact .refl runs

theorem resumeLocked_moved {unsupported : RunTable} (stored : runs.get? row.id = some row)
    (active : row.status.active = true) (rejected : Moved raised runs unsupported)
    (lensnode : LensNode) (now : Int) :
    Moved raised runs (resumeLocked runs row lensnode unsupported now) := by
  rw [resumeLocked]
  split
  · exact .refl runs
  · split_ifs
    · exact moved_locked stored (.requeued rfl rfl rfl fun _ => rfl)
    · exact .refl runs
    · exact rejected
    · exact .refl runs
    · exact moved_locked stored (.started rfl rfl rfl (.inl active))

theorem resumeAwaitingRun_moved (runs : RunTable) (nodes : List LensNode) (id : Nat) (now : Int) :
    Moved raised runs (resumeAwaitingRun runs nodes id now) := by
  rw [resumeAwaitingRun]
  split
  · exact .refl runs
  · rename_i run stored
    rw [← (Table.get?_eq_some.mp stored).2] at stored
    split
    · exact .refl runs
    · split
      · rename_i lensnode found meets
        simp only [and_eq_true] at meets
        exact resumeLocked_moved stored meets.1.2 (.refl runs) lensnode now
      · exact .refl runs

theorem resumeNext_moved (runs : RunTable) (lensnode : LensNode) (id : Nat)
    (exception : Option String) (now : Int) :
    Moved raised runs (resumeNext runs lensnode id exception now) := by
  unfold resumeNext
  split
  · exact .refl runs
  · exact .refl runs
  · rename_i run stored
    rw [← (Table.get?_eq_some.mp stored).2] at stored
    dsimp only
    split
    · rename_i meets
      simp only [and_eq_true] at meets
      exact resumeLocked_moved stored meets.1.1.2 (moved_locked stored (.ended rfl rfl rfl))
        lensnode now
    · exact .refl runs

/-- `parkOrExpire` under a condition that names the two active statuses. -/
theorem moved_parkOrExpire (names : ∀ row, condition row = true → row.status.active = true)
    (resumeBy now : Int) :
    Moved raised runs (runs.updateWhere condition (parkOrExpire resumeBy now)) := by
  rw [parkOrExpire]
  split
  · exact moved_ended (fun _ => rfl) fun _ => rfl
  · exact moved_updateWhere fun row _ meets => .started rfl rfl rfl (.inl (names row meets))

def raises (inputs : Inputs) : Task → List Nat
  | .executeRunning run _ => if inputs.raised.isNone then [run.id] else []
  | .executeStreaming run => if inputs.raised.isNone then [run.id] else []
  | _ => []

theorem call_moved (call : Call) (runs : RunTable) (nodes : List LensNode) (inputs : Inputs) :
    Moved raised runs (call.advance runs nodes inputs).1 := by
  cases call with
  | finishLensnodeRun run status error outcome manifestValid =>
    exact finishLensnodeRun_moved runs run status error outcome manifestValid inputs.now
  | resumeAwaitingRun run => exact resumeAwaitingRun_moved runs nodes run inputs.now
  | _ => exact .refl runs

theorem moved_save (runs : RunTable) (run : Run) (next : Option Task)
    (assistant : ∀ row, (set.apply row).assistant = row.assistant)
    (active : ∀ row, (set.apply row).status.active = true) :
    Moved [run.id] runs (tryExecute runs run none (do
      let saved ← save runs run.id set
      return (saved, next))).1 := by
  rw [tryExecute_save]
  apply moved_updateWhere
  intro row _ meets
  exact .started (set.keeps row) (assistant row) (active row)
    (.inr (List.mem_singleton.mpr (of_decide_eq_true meets)))

theorem advance_moved (task : Task) (runs : RunTable) (nodes : List LensNode) (inputs : Inputs) :
    Moved (raises inputs task) runs (task.advance runs nodes inputs).1 := by
  cases task with
  | called call => exact call_moved call runs nodes inputs
  | executePrepare run dispatch =>
    rw [Task.advance, tryExecute_read fun _ => executePrepare_reads]
    exact .refl runs
  | executeRefresh run dispatch =>
    rw [Task.advance, tryExecute_read fun _ => executeRefresh_reads]
    exact .refl runs
  | executeGraph run dispatch =>
    rw [Task.advance]
    cases inputs.raised with
    | some error => exact .refl runs
    | none =>
      cases dispatch with
      | true => exact .refl runs
      | false => exact finishLensnodeRun_moved runs run.id .done "" none true inputs.now
  | executeRunning run dispatch =>
    rw [Task.advance, raises]
    cases inputs.raised with
    | some error =>
      rw [tryExecute_raised]
      exact .refl runs
    | none => exact moved_save runs run _ (fun _ => rfl) fun _ => rfl
  | executeStreaming run =>
    rw [Task.advance, raises]
    cases inputs.raised with
    | some error =>
      rw [tryExecute_raised]
      exact .refl runs
    | none => exact moved_save runs run _ (fun _ => rfl) fun _ => rfl
  | markAwaiting run lensnode rest now =>
    exact moved_parkOrExpire (fun _ meets => (and_eq_true_iff.mp meets).2) _ _
  | confirmUpdate run lensnode cutoff now =>
    refine moved_parkOrExpire ?_ _ _
    intro row meets
    simp only [and_eq_true] at meets
    exact meets.1.2
  | resumeNext lensnode run rest =>
    exact resumeNext_moved runs lensnode run inputs.raised inputs.now
  | markRunFailed | failActive | cleanupStale | cancelDescendants | cancelNext | expireUpdate
  | cleanupExpired => exact moved_ended (fun _ => rfl) fun _ => rfl
  | executeCount | markActive | resumeReported | confirmOnline | visitDescendants =>
    exact .refl runs

section Next

variable {nodes : List LensNode} {inputs : Inputs} {task next : Task}

/-- A task that neither asks for a slot nor is on the way to one. -/
def Plain (task : Task) : Prop := admitted task = none ∧ asking task = none

/-- What may follow a task: one that asks as it did, one on the way as it was, one that
has just passed the cap, or a plain one. -/
inductive Successor (runs : RunTable) (task next : Task) : Prop
  | asks (same : asking next = asking task) (before : admitted next = none)
  | onTheWay (same : admitted next = admitted task) (passed : asking next = none)
  | passes (run : Run) (cap : Nat) (asked : asking task = some (run, cap))
      (below : cap = 0 ∨ (∃ dispatch, task = .executeCount run cap dispatch) ∧
        activeCount runs run < cap)
      (admits : admitted next = some run.id) (passed : asking next = none)
  | plain (plain : Plain next)

theorem tryExecute_next {raised : Option String} {body : Except String Effect} (goal : Task → Prop)
    (failing : ∀ error, goal (.markRunFailed run error))
    (returning : ∀ effect, body = .ok effect → ∀ next, effect.2 = some next → goal next)
    (after : (tryExecute runs run raised body).2 = some next) : goal next := by
  cases raised with
  | some error =>
    cases body <;> cases after <;> exact failing error
  | none =>
    cases body with
    | error error =>
      cases after
      exact failing error
    | ok effect => exact returning effect rfl next after

theorem call_next {call : Call} (after : (call.advance runs nodes inputs).2 = some next) :
    Successor runs (.called call) next := by
  cases call with
  | executeAnswerRun run cap dispatch =>
    rw [Call.advance, RunStatus.executeAnswerRun] at after
    split at after
    · cases after
    · split_ifs at after with queued capped
      · cases after
        exact .asks rfl rfl
      · cases after
        exact .passes run cap rfl (.inl (Nat.eq_zero_of_not_pos capped)) rfl rfl
  | finishLensnodeRun | resumeAwaitingRun => cases after
  | failActiveRunsForLensnode lensnode =>
    simp only [Call.advance, RunStatus.failActiveRunsForLensnode] at after
    split at after
    · cases after
    · cases after
      exact .plain ⟨rfl, rfl⟩
  | markActiveRunsAwaitingResume lensnode =>
    simp only [Call.advance, RunStatus.markActiveRunsAwaitingResume] at after
    split at after
    · cases after
      exact .plain ⟨rfl, rfl⟩
    · cases after
      exact .plain ⟨rfl, rfl⟩
  | resumeAwaitingRunsForLensnode lensnode reportedActive =>
    simp only [Call.advance, RunStatus.resumeAwaitingRunsForLensnode,
      Option.map_eq_some_iff] at after
    obtain ⟨node, -, rfl⟩ := after
    exact .plain ⟨rfl, rfl⟩
  | confirmReconcileOrphan run =>
    simp only [Call.advance, RunStatus.confirmReconcileOrphan] at after
    split at after
    · cases after
    · split at after
      · cases after
        exact .plain ⟨rfl, rfl⟩
      · cases after
  | expireAwaitingRun run =>
    simp only [Call.advance, RunStatus.expireAwaitingRun] at after
    split at after
    · cases after
    · split at after
      · cases after
        exact .plain ⟨rfl, rfl⟩
      · cases after
  | lensnodeCleanupTask =>
    cases after
    exact .plain ⟨rfl, rfl⟩
  | cancelDescendantRuns root =>
    simp only [Call.advance, RunStatus.visitDescendants] at after
    split_ifs at after
    · cases after
      exact .plain ⟨rfl, rfl⟩
    · cases after
      exact .plain ⟨rfl, rfl⟩
  | cancelActiveRuns evaluation reason =>
    simp only [Call.advance, RunStatus.cancelActiveRuns, nextCancel] at after
    split at after
    · cases after
    · cases after
      exact .plain ⟨rfl, rfl⟩

theorem nextAwaiting_plain {rows : List (Run × Option LensNode)} {now : Int}
    (after : nextAwaiting rows now = some next) : Plain next := by
  unfold nextAwaiting at after
  split at after
  · cases after
  · cases after
    exact ⟨rfl, rfl⟩

theorem nextResume_plain {lensnode : LensNode} {ids : List Nat}
    (after : nextResume lensnode ids = some next) : Plain next := by
  unfold nextResume at after
  split at after
  · cases after
  · cases after
    exact ⟨rfl, rfl⟩

theorem nextCancel_plain {ids : List Nat} {reason : String} {now : Int}
    (after : nextCancel ids reason now = some next) : Plain next := by
  unfold nextCancel at after
  split at after
  · cases after
  · cases after
    exact ⟨rfl, rfl⟩

theorem executePrepare_next {dispatch : Bool}
    (returned : executePrepare runs run dispatch = .ok effect) (after : effect.2 = some next) :
    next = .executeRunning run dispatch := by
  rw [executePrepare] at returned
  cases found : stored runs run.id with
  | error error => simp [found, bind, Except.bind] at returned
  | ok row =>
    simp only [found, bind, Except.bind, pure, Except.pure, Except.ok.injEq] at returned
    rw [← returned] at after
    dsimp only at after
    split at after
    · exact (Option.some.inj after).symm
    · cases after

theorem save_next {task : Option Task}
    (returned : (do let saved ← save runs run.id set return (saved, task)) = Except.ok effect) :
    effect.2 = task := by
  cases saved : save runs run.id set with
  | error error => simp [saved, bind, Except.bind] at returned
  | ok table =>
    simp only [saved, bind, Except.bind, pure, Except.pure, Except.ok.injEq] at returned
    rw [← returned]

theorem executeRefresh_next {dispatch : Bool}
    (returned : executeRefresh runs run dispatch = .ok effect) (after : effect.2 = some next) :
    next = .executeStreaming run := by
  rw [executeRefresh] at returned
  cases found : stored runs run.id with
  | error error => simp [found, bind, Except.bind] at returned
  | ok row =>
    simp only [found, bind, Except.bind, pure, Except.pure, Except.ok.injEq] at returned
    rw [← returned] at after
    dsimp only at after
    split at after
    · exact (Option.some.inj after).symm
    · cases after

theorem advance_next (after : (task.advance runs nodes inputs).2 = some next) :
    Successor runs task next := by
  cases task with
  | called call => exact call_next after
  | executeCount run cap dispatch =>
    simp only [Task.advance, RunStatus.executeCount] at after
    split at after
    · cases after
    · rename_i below
      cases after
      exact .passes run cap rfl (.inr ⟨⟨dispatch, rfl⟩, Nat.lt_of_not_le below⟩) rfl rfl
  | executePrepare run dispatch =>
    refine tryExecute_next (Successor runs (.executePrepare run dispatch))
      (fun _ => .plain ⟨rfl, rfl⟩) ?_ after
    intro effect returned next goes
    rw [executePrepare_next returned goes]
    exact .onTheWay rfl rfl
  | executeRunning run dispatch =>
    refine tryExecute_next (Successor runs (.executeRunning run dispatch))
      (fun _ => .plain ⟨rfl, rfl⟩) ?_ after
    intro effect returned next goes
    rw [save_next returned] at goes
    cases goes
    exact .plain ⟨rfl, rfl⟩
  | executeGraph run dispatch =>
    refine tryExecute_next (Successor runs (.executeGraph run dispatch))
      (fun _ => .plain ⟨rfl, rfl⟩) ?_ after
    intro effect returned next goes
    cases returned
    cases goes
    exact .plain ⟨rfl, rfl⟩
  | executeRefresh run dispatch =>
    refine tryExecute_next (Successor runs (.executeRefresh run dispatch))
      (fun _ => .plain ⟨rfl, rfl⟩) ?_ after
    intro effect returned next goes
    rw [executeRefresh_next returned goes]
    exact .plain ⟨rfl, rfl⟩
  | executeStreaming run =>
    refine tryExecute_next (Successor runs (.executeStreaming run))
      (fun _ => .plain ⟨rfl, rfl⟩) ?_ after
    intro effect returned next goes
    rw [save_next returned] at goes
    cases goes
  | markActive lensnode => exact .plain (nextAwaiting_plain after)
  | markAwaiting run lensnode rest now => exact .plain (nextAwaiting_plain after)
  | resumeReported lensnode reportedActive => exact .plain (nextResume_plain after)
  | resumeNext lensnode run rest => exact .plain (nextResume_plain after)
  | confirmUpdate run lensnode cutoff now =>
    simp only [Task.advance, RunStatus.confirmUpdate] at after
    split at after
    · cases after
    · cases after
      exact .plain ⟨rfl, rfl⟩
  | confirmOnline lensnode =>
    simp only [Task.advance, RunStatus.confirmOnline] at after
    split at after
    · cases after
    · split at after
      · cases after
        exact .plain ⟨rfl, rfl⟩
      · cases after
  | cleanupStale ids now =>
    cases after
    exact .plain ⟨rfl, rfl⟩
  | visitDescendants walk =>
    simp only [Task.advance, RunStatus.visitDescendants] at after
    split_ifs at after
    · cases after
      exact .plain ⟨rfl, rfl⟩
    · cases after
      exact .plain ⟨rfl, rfl⟩
  | cancelNext run rest reason now => exact .plain (nextCancel_plain after)
  | markRunFailed | failActive | expireUpdate | cleanupExpired | cancelDescendants => cases after

end Next

end SourceLens.AssistantConcurrency
