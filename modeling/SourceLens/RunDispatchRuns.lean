import SourceLens.RunDispatchSteps

/-! No step repeats a finished run or takes the files of one that executes, where the
steps meet the condition; and what happens without it. -/

namespace SourceLens.RunDispatch

open Transition Option
open RunStatus (Status RunTable World)

variable {system : System} {node next : Node} {run lensnode : Nat}

/-- The step starts no finished run again by a resume command, and takes the files of
no run that executes. -/
structure Safe (lensnode : Nat) (system : System) (action : Action) : Prop where
  notRepeated : ∀ next run running, step lensnode system action = some next →
    system.node.running.get? run = none → next.node.running.get? run = some running →
    running.resume = true → run ∉ system.finished
  filesKept : ∀ next run, step lensnode system action = some next → Executing next.node run →
    system.node.files run = true → next.node.files run = true

structure Quiet (before after : Node) : Prop where
  running : ∀ run, before.running.get? run = none → after.running.get? run = none
  files : ∀ run, before.files run = true → after.files run = true

theorem Quiet.of_eq {before after : Node} (running : after.running = before.running)
    (files : after.files = before.files) : Quiet before after where
  running := fun _ absent => running ▸ absent
  files := fun _ present => files ▸ present

theorem Quiet.trans {first second third : Node} (one : Quiet first second)
    (other : Quiet second third) : Quiet first third where
  running := fun run absent => other.running run (one.running run absent)
  files := fun run present => other.files run (one.files run present)

theorem setPhase_quiet {running : Running} (present : node.running.get? run = some running)
    (phase : Phase) : Quiet node (node.setPhase run running phase) where
  running := by
    intro other absent
    have apart : other ≠ run := by
      rintro rfl
      rw [present] at absent
      cases absent
    unfold Node.setPhase
    rw [OrderedDict.get?_set, if_neg apart, absent]
  files := fun _ present => present

theorem pop_quiet (node : Node) (run : Nat) :
    Quiet node { node with running := node.running.pop run } where
  running := by
    intro other absent
    dsimp only
    rw [OrderedDict.get?_pop, absent, ite_self]
  files := fun _ present => present

theorem leaveWorker_quiet (node : Node) (run : Nat) (worker : Option Nat) :
    Quiet node (leaveWorker node run worker) := by
  cases worker <;> exact .of_eq rfl rfl

theorem grantSlot_quiet (taken : grantSlot node run = some next) : Quiet node next := by
  unfold grantSlot at taken
  split at taken
  · rename_i running present
    split at taken
    · cases taken
      constructor
      · exact (setPhase_quiet present .executing).running
      · intro other held
        dsimp only
        by_cases same : other = run
        · rw [same, Function.update_self]
        · rw [Function.update_of_ne same]
          exact held
    · cases taken
  · cases taken

theorem finishExecution_quiet {frame : RunDone} {worker : Option Nat}
    (taken : finishExecution node frame worker = some next) : Quiet node next := by
  unfold finishExecution at taken
  split at taken
  · rename_i running present
    split at taken
    · cases taken
      have left := (setPhase_quiet present .finishing).trans
        (leaveWorker_quiet _ frame.run worker)
      exact left.trans (.of_eq rfl rfl)
    · cases taken
  · cases taken

theorem cancelExecution_quiet {worker : Option Nat}
    (taken : cancelExecution node run worker = some next) : Quiet node next := by
  unfold cancelExecution at taken
  split at taken
  · rename_i running present
    split at taken
    · cases taken
      exact setPhase_quiet present _
    · cases taken
      exact (setPhase_quiet present _).trans (leaveWorker_quiet _ run worker)
    · cases taken
  · cases taken

theorem leaveRunningTasks_quiet (taken : leaveRunningTasks node run = some next) :
    Quiet node next := by
  unfold leaveRunningTasks at taken
  split at taken
  · cases taken
    exact pop_quiet node run
  · split at taken
    · cases taken
      exact pop_quiet node run
    · cases taken
  · cases taken

theorem serverStep_node {next : System} {action : RunStatus.Action} {published : Bool}
    (taken : serverStep lensnode system action published = some next) :
    next.node = system.node := by
  unfold serverStep at taken
  split at taken
  · rcases map_eq_some_iff.mp taken with ⟨world, _, rfl⟩
    split
    · rfl
    · unfold dispatchRunToLensnode post
      dsimp only
      split <;> rfl
  · cases taken

theorem runDoneStep_node {next : System} {index : Nat} {manifestValid : Bool} {now : Int}
    (taken : runDoneStep system index manifestValid now = some next) : next.node = system.node := by
  unfold runDoneStep at taken
  split at taken
  · cases taken
    split
    · unfold post
      dsimp only
      split <;> rfl
    · rfl
  · cases taken

theorem helloStep_node {next : System} {index : Nat}
    (taken : helloStep lensnode system index = some next) : next.node = system.node := by
  unfold helloStep at taken
  split at taken
  · cases taken
    rfl
  · cases taken

theorem step_quiet {next : System} {action : Action}
    (taken : step lensnode system action = some next) (noCommand : ∀ index, action ≠ .receive index)
    (noThread : ∀ worker, action ≠ .workerStops worker) : Quiet system.node next.node := by
  have unchanged : ∀ {after : Node}, after = system.node → Quiet system.node after := by
    rintro after rfl
    exact .of_eq rfl rfl
  cases action with
  | server action published => exact unchanged (serverStep_node taken)
  | handleHello index => exact unchanged (helloStep_node taken)
  | handleRunDone index manifestValid now => exact unchanged (runDoneStep_node taken)
  | loseReport | loseCommand | disconnect | drain | sendSucceeds | dropOldest =>
    cases taken
    exact .of_eq rfl rfl
  | sendRaises reached =>
    cases taken
    unfold requeueSending
    dsimp only
    split <;> exact .of_eq rfl rfl
  | connect =>
    rw [step] at taken
    split at taken
    · cases taken
      exact .of_eq rfl rfl
    · cases taken
  | pop =>
    rw [step] at taken
    split at taken
    · cases taken
      exact .of_eq rfl rfl
    · cases taken
  | receive index => exact absurd rfl (noCommand index)
  | grantSlot run =>
    rcases withNode_some taken with ⟨node, made, rfl⟩
    exact grantSlot_quiet made
  | finish run status error outcome timedOut =>
    rcases map_eq_some_iff.mp taken with ⟨node, made, rfl⟩
    exact finishExecution_quiet made
  | cancel run threaded =>
    rcases map_eq_some_iff.mp taken with ⟨node, made, rfl⟩
    exact cancelExecution_quiet made
  | leave run =>
    rcases withNode_some taken with ⟨node, made, rfl⟩
    exact leaveRunningTasks_quiet made
  | workerStops worker => exact absurd rfl (noThread worker)

theorem Quiet.safe {action : Action}
    (quiet : ∀ next, step lensnode system action = some next → Quiet system.node next.node) :
    Safe lensnode system action where
  notRepeated := by
    intro next run running taken absent present
    rw [(quiet next taken).running run absent] at present
    cases present
  filesKept := fun next run taken _ held => (quiet next taken).files run held

theorem startCommand_files (node : Node) (start : RunStart) :
    (startCommand node start).files = node.files := by
  unfold startCommand
  split
  · rfl
  · split <;> rfl

/-- A run that `_start_command` starts is the command's, and the node does not drain. -/
theorem startCommand_starts {start : RunStart} {running : Running}
    (absent : node.running.get? run = none)
    (present : (startCommand node start).running.get? run = some running) :
    run = start.run ∧ node.draining = false := by
  unfold startCommand at present
  split at present
  · rw [show (sendBusy node start.run _).running = node.running from rfl, absent] at present
    cases present
  · rename_i accepted
    split at present
    · rw [absent] at present
      cases present
    · rw [OrderedDict.get?_set] at present
      split at present
      · rename_i same
        exact ⟨same, refusal_draining accepted⟩
      · rw [absent] at present
        cases present

theorem Invariant.ack_keeps (inv : Invariant system) {other : Nat}
    (queued : .runDoneAck run ∈ system.commands)
    (executing : Executing (handleRunDoneAck system.node run) other)
    (held : system.node.files other = true) :
    (handleRunDoneAck system.node run).files other = true := by
  rcases handleRunDoneAck_parts system.node run with ⟨_, running, _, workers, _⟩
  rw [Executing, Node.phase, running, workers] at executing
  unfold handleRunDoneAck removeFiles
  dsimp only
  split
  · rename_i immediate
    have apart : other ≠ run := by
      rintro rfl
      rcases executing with executes | ⟨worker, member, named⟩
      · exact inv.idle other (.inr (.inr (.inr queued))) (.inr executes)
      · exact deferredTo_none immediate inv.tracked worker member named
    dsimp only
    rw [Function.update_of_ne apart]
    exact held
  · split <;> exact held

theorem Invariant.safe_receive (inv : Invariant system) (index : Nat) :
    Safe lensnode system (.receive index) := by
  constructor
  · intro next run running taken absent present resumed finished
    rw [step] at taken
    split at taken
    · rcases map_eq_some_iff.mp taken with ⟨command, found, rfl⟩
      have queued := List.mem_of_getElem? found
      cases command with
      | runStart start =>
        rcases startCommand_starts absent present with ⟨rfl, working⟩
        exact inv.fresh start queued working (.inl finished)
      | runDoneAck other =>
        simp only [receiveCommand, (handleRunDoneAck_parts system.node other).2.1, absent]
          at present
        cases present
    · cases taken
  · intro next run taken executing held
    rw [step] at taken
    split at taken
    · rcases map_eq_some_iff.mp taken with ⟨command, found, rfl⟩
      have queued := List.mem_of_getElem? found
      cases command with
      | runStart start =>
        simp only [receiveCommand, startCommand_files]
        exact held
      | runDoneAck other => exact inv.ack_keeps queued executing held
    · cases taken

theorem workerStops_files {worker : Worker} (taken : workerStops node worker = some next)
    (run : Nat) (apart : run ≠ worker.run) : next.files run = node.files run := by
  unfold workerStops removeFiles at taken
  split at taken
  · dsimp only at taken
    split at taken
    · cases taken
      exact Function.update_of_ne apart ..
    · cases taken
      rfl
  · cases taken

theorem Invariant.safe_workerStops (inv : Invariant system) (worker : Worker) :
    Safe lensnode system (.workerStops worker) := by
  constructor
  · intro next run running taken absent present
    rcases withNode_some taken with ⟨node, made, rfl⟩
    rw [(workerStops_parts made).2.2.1, absent] at present
    cases present
  · intro next run taken executing held
    rcases withNode_some taken with ⟨node, made, rfl⟩
    rcases workerStops_parts made with ⟨member, _, running, _, _, _, workers, _⟩
    have apart : run ≠ worker.run := by
      rintro rfl
      rw [Executing, Node.phase, running, workers] at executing
      rcases executing with executes | ⟨other, kept, named⟩
      · exact inv.threadless (.inr executes) worker member rfl
      · rw [List.mem_filter, decide_eq_true_eq] at kept
        have number := inv.tracked other kept.1
        rw [named, inv.tracked worker member, Option.some.injEq] at number
        apply kept.2
        cases other
        cases worker
        exact congr (congrArg Worker.mk named) number.symm
    rw [workerStops_files made run apart]
    exact held

theorem Invariant.safe (inv : Invariant system) (lensnode : Nat) (action : Action) :
    Safe lensnode system action := by
  by_cases command : ∃ index, action = .receive index
  · rcases command with ⟨index, rfl⟩
    exact inv.safe_receive index
  · by_cases thread : ∃ worker, action = .workerStops worker
    · rcases thread with ⟨worker, rfl⟩
      exact inv.safe_workerStops worker
    · rw [not_exists] at command thread
      exact Quiet.safe fun next taken => step_quiet taken command thread

/-- In every run whose steps all meet the condition, no step starts a finished run
again by a resume command, and none takes the files of a run that executes. -/
theorem no_repeat_no_loss (lensnode outboxMax : Nat) (runs : RunTable)
    (nodes : List RunStatus.LensNode) {finish : System} {actions : List Action}
    (run : Steps (step lensnode) (Admissible lensnode) (System.new outboxMax runs nodes) actions
      finish) :
    Steps (step lensnode) (Safe lensnode) (System.new outboxMax runs nodes) actions finish := by
  apply run.implied Invariant
  · exact fun state action next inv allowed taken => step_invariant inv allowed taken
  · exact fun state action inv _ => inv.safe lensnode action
  · exact Invariant.new outboxMax runs nodes

/-- The server's oldest unfinished writer takes a step at that second. -/
def advanceAt (second : Int) : Action :=
  .server (.advance 0 ⟨RunStatus.seconds second, ⟨none, none, none, none⟩, none⟩) false

/-- The first dispatch is executed and has its checkpoint. The node's `hello` is handled
after the dispatch, so the server schedules an orphan check. -/
def executedRun : List Action :=
  [.connect, .server (.call (.executeAnswerRun queuedRun 0 true)) false] ++
    List.replicate 6 (advanceAt 0) ++
    [.receive 0, .grantSlot 0,
      .server (.write { queuedRun with
        startedAt := some 0
        lastActivityAt := some (RunStatus.seconds 5)
        execution := some ⟨.running, none, some 5⟩ }) false,
      .handleHello 0, advanceAt 6, advanceAt 6]

/-- The orphan check parks the run and resumes the node's parked runs. -/
def orphanCheck : List Action :=
  .server (.call (.confirmReconcileOrphan 0)) false :: List.replicate 6 (advanceAt 70)

def answered : Action := .finish 0 .done "" (some .completed) false

/-- The orphan check resumes the run while it executes; its answer is acknowledged
after a lost connection. -/
def resumedMeanwhile : List Action :=
  executedRun ++ [.disconnect, .connect, .handleHello 0, advanceAt 60, advanceAt 60] ++
    orphanCheck ++
    [.receive 0, .disconnect, answered, .leave 0, .connect, .handleHello 0, advanceAt 80,
      advanceAt 80, .pop, .sendSucceeds, .handleRunDone 0 true 90, .receive 0]

theorem no_repeat_no_loss_run :
    ∃ finish, Steps (step 0) (Safe 0) queuedSystem resumedMeanwhile finish ∧
      ended finish.world.runs 0 = true ∧ finish.node.files 0 = false := by
  have outcome : (execGuarded (step 0) (Admissible 0) queuedSystem resumedMeanwhile).any
      (fun finish => ended finish.world.runs 0 && !finish.node.files 0) = true := by
    decide +kernel
  rcases (any_eq_true _ _).mp outcome with ⟨finish, reached, facts⟩
  rw [Bool.and_eq_true, Bool.not_eq_true'] at facts
  have safe := no_repeat_no_loss 0 100 _ _ (execGuarded_steps reached)
  exact ⟨finish, safe, facts⟩

/-- The answer is on its way on a new connection when the orphan check resumes the run. -/
def orphanedAnswer : List Action :=
  executedRun ++ [.disconnect, answered, .leave 0, .connect, .pop, .sendSucceeds] ++ orphanCheck

theorem orphan_check_repeats :
    ¬ ∀ (lensnode outboxMax : Nat) (runs : RunTable) (nodes : List RunStatus.LensNode)
      (finish : System) (actions : List Action),
      Steps (step lensnode) Any (System.new outboxMax runs nodes) actions finish →
      Steps (step lensnode) (Safe lensnode) (System.new outboxMax runs nodes) actions finish := by
  intro safe
  have outcome : (exec (step 0) queuedSystem orphanedAnswer).any (fun middle =>
      (middle.node.running.get? 0).isNone && decide (0 ∈ middle.finished) &&
        (step 0 middle (.receive 0)).any fun next =>
          (next.node.running.get? 0).any Running.resume) = true := by
    decide +kernel
  rcases (any_eq_true _ _).mp outcome with ⟨middle, reached, facts⟩
  simp only [Bool.and_eq_true, isNone_iff_eq_none, decide_eq_true_eq] at facts
  rcases facts with ⟨⟨absent, finished⟩, repeated⟩
  rcases (any_eq_true _ _).mp repeated with ⟨next, taken, running⟩
  rcases (any_eq_true _ _).mp running with ⟨started, present, resumed⟩
  have run := (exec_steps reached).append (.single trivial taken)
  rcases (safe 0 100 _ _ next _ run).split with ⟨same, front, last⟩
  cases front.agree (exec_steps reached)
  cases last with
  | cons harmless _ _ =>
    exact harmless.notRepeated next 0 started taken absent present resumed finished

end SourceLens.RunDispatch
