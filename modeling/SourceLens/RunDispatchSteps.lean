import SourceLens.RunDispatchInvariant

/-! The condition on the steps, and the invariant along steps that meet it. -/

namespace SourceLens.RunDispatch

open Transition List
open RunStatus (Status RunTable World)

variable {system next : System} {node : Node} {lensnode run index : Nat} {frame : RunDone}
  {start : RunStart}

def Command.startedRun : Command → Option Nat
  | .runStart start => some start.run
  | .runDoneAck _ => none

/-- The writers keep the ends of the runs, and publish a command only for a run that
has not ended and of which the node has no `run_done` left to deliver. -/
def PublishesSafely (lensnode : Nat) (system : System) (action : RunStatus.Action)
    (published : Bool) : Prop :=
  KeepsEnds system.world action ∧
    ∀ command ∈ publication lensnode system.world published action,
      ended system.world.runs command.1 = false ∧
        command.1 ∉ system.node.pendingTerminalFrames.keys

/-- A command is refused only while the node drains, and not for a run that waits or
executes there. -/
def RefusedSafely (node : Node) (start : RunStart) : Prop :=
  ∀ reason ∈ refusal node start, reason = .draining ∧ ¬ Active node start.run ∧
    Fits node (.busy start.run reason)

/-- An execution ends while no other command for its run is under way, unless the node
drains. -/
def FinishesSafely (system : System) (frame : RunDone) : Prop :=
  Fits system.node frame ∧ (system.node.draining = true ∨
    ∀ command ∈ system.commands, command.startedRun ≠ some frame.run)

def ReceivesSafely (node : Node) : Option Command → Prop
  | some (.runStart start) => RefusedSafely node start
  | _ => True

def Admissible (lensnode : Nat) (system : System) : Action → Prop
  | .server action published => PublishesSafely lensnode system action published
  | .receive index => ReceivesSafely system.node system.commands[index]?
  | .finish run status error outcome _ => FinishesSafely system (.executed run status error outcome)
  | _ => True

instance (lensnode : Nat) (system : System) (action : RunStatus.Action) (published : Bool) :
    Decidable (PublishesSafely lensnode system action published) :=
  inferInstanceAs (Decidable (KeepsEnds system.world action ∧
    ∀ command ∈ publication lensnode system.world published action,
      ended system.world.runs command.1 = false ∧
        command.1 ∉ system.node.pendingTerminalFrames.keys))

instance (node : Node) (start : RunStart) : Decidable (RefusedSafely node start) :=
  inferInstanceAs (Decidable (∀ reason ∈ refusal node start, reason = .draining ∧
    ¬ Active node start.run ∧ Fits node (.busy start.run reason)))

instance (system : System) (frame : RunDone) : Decidable (FinishesSafely system frame) :=
  inferInstanceAs (Decidable (Fits system.node frame ∧ (system.node.draining = true ∨
    ∀ command ∈ system.commands, command.startedRun ≠ some frame.run)))

instance (node : Node) : (command : Option Command) → Decidable (ReceivesSafely node command)
  | some (.runStart start) => inferInstanceAs (Decidable (RefusedSafely node start))
  | some (.runDoneAck _) => isTrue trivial
  | none => isTrue trivial

instance (lensnode : Nat) (system : System) :
    (action : Action) → Decidable (Admissible lensnode system action)
  | .server action published =>
    inferInstanceAs (Decidable (PublishesSafely lensnode system action published))
  | .receive index => inferInstanceAs (Decidable (ReceivesSafely system.node system.commands[index]?))
  | .finish run status error outcome _ =>
    inferInstanceAs (Decidable (FinishesSafely system (.executed run status error outcome)))
  | .handleHello _ | .handleRunDone .. | .loseReport _ | .loseCommand _ | .connect | .disconnect
  | .drain | .pop | .sendSucceeds | .sendRaises _ | .dropOldest | .grantSlot _ | .cancel .. | .leave _
  | .workerStops _ => isTrue trivial

theorem fewerReports_moves (system : System) (index : Nat) :
    Moves system { system with reports := system.reports.eraseIdx index } where
  runs := rfl
  node := .refl _
  finished := rfl
  commands := List.Sublist.refl _
  queued := by
    intro frame queued
    rcases queued with outbox | sending | sent
    · exact .inl (.inl outbox)
    · exact .inl (.inr (.inl sending))
    · exact .inl (.inr (.inr (mem_of_mem_eraseIdx sent)))

theorem fewerCommands_moves (system : System) {commands : List Command}
    (fewer : commands.Sublist system.commands) (connected : Bool) :
    Moves system { system with commands := commands, connected := connected } :=
  ⟨rfl, .refl _, rfl, fewer, fun _ queued => .inl queued⟩

theorem helloStep_moves (taken : helloStep lensnode system index = some next) :
    Moves system next := by
  unfold helloStep at taken
  split at taken
  · cases taken
    have moves := fewerReports_moves system index
    exact ⟨rfl, moves.node, rfl, moves.commands, moves.queued⟩
  · cases taken

theorem mem_transmit (sent : .runDone frame ∈ transmit system) : Queued system frame := by
  unfold transmit at sent
  split at sent
  · exact .inr (.inr sent)
  · rename_i sending
    rcases mem_append.mp sent with old | new
    · exact .inr (.inr old)
    · cases mem_singleton.mp new
      exact .inr (.inl sending)

theorem requeueSending_same (node : Node) : SameBut node (requeueSending node) := by
  unfold requeueSending
  split
  · exact .refl node
  · exact ⟨rfl, rfl, rfl, rfl, rfl, rfl⟩

theorem mem_requeueSending
    (queued : frame ∈ (requeueSending node).outbox ∨ (requeueSending node).sending = some frame) :
    frame ∈ node.outbox ∨ node.sending = some frame := by
  unfold requeueSending at queued
  split at queued
  · exact queued
  · rename_i other sending
    rcases queued with outbox | none
    · rcases mem_cons.mp outbox with rfl | old
      · exact .inr sending
      · exact .inl old
    · cases none

theorem connect_moves (system : System) : Moves system (connect system) where
  runs := rfl
  node := ⟨rfl, rfl, rfl, rfl, rfl, rfl⟩
  finished := rfl
  commands := List.Sublist.refl _
  queued := by
    intro frame queued
    rcases queued with outbox | sending | sent
    · rcases mem_append.mp outbox with old | restored
      · exact .inl (.inl old)
      · rcases mem_map.mp restored with ⟨entry, kept, rfl⟩
        exact .inr (mem_map_of_mem (mem_of_mem_filter kept))
    · exact .inl (.inr (.inl sending))
    · rcases mem_append.mp sent with old | hello
      · exact .inl (.inr (.inr old))
      · cases mem_singleton.mp hello

theorem popped_moves {rest : List RunDone} (head : system.node.outbox = frame :: rest) :
    Moves system
      { system with node := { system.node with sending := some frame, outbox := rest } } where
  runs := rfl
  node := ⟨rfl, rfl, rfl, rfl, rfl, rfl⟩
  finished := rfl
  commands := List.Sublist.refl _
  queued := by
    intro queued held
    rcases held with outbox | sending | sent
    · exact .inl (.inl (head ▸ mem_cons_of_mem frame outbox))
    · cases sending
      exact .inl (.inl (head ▸ mem_cons_self))
    · exact .inl (.inr (.inr sent))

theorem sent_moves (system : System) :
    Moves system { system with
      reports := transmit system, node := { system.node with sending := none } } where
  runs := rfl
  node := ⟨rfl, rfl, rfl, rfl, rfl, rfl⟩
  finished := rfl
  commands := List.Sublist.refl _
  queued := by
    intro frame queued
    rcases queued with outbox | none | sent
    · exact .inl (.inl outbox)
    · cases none
    · exact .inl (mem_transmit sent)

theorem sendRaised_moves (system : System) (reached : Bool) :
    Moves system { system with
      reports := if reached then transmit system else system.reports
      node := requeueSending system.node } where
  runs := rfl
  node := requeueSending_same system.node
  finished := rfl
  commands := List.Sublist.refl _
  queued := by
    intro frame queued
    have local_queued : frame ∈ (requeueSending system.node).outbox ∨
        (requeueSending system.node).sending = some frame → Queued system frame := by
      intro held
      rcases mem_requeueSending held with old | sending
      · exact .inl old
      · exact .inr (.inl sending)
    rcases queued with outbox | sending | sent
    · exact .inl (local_queued (.inl outbox))
    · exact .inl (local_queued (.inr sending))
    · dsimp only at sent
      split at sent
      · exact .inl (mem_transmit sent)
      · exact .inl (.inr (.inr sent))

theorem dropped_moves (system : System) :
    Moves system
      { system with node := { system.node with outbox := system.node.outbox.tail } } where
  runs := rfl
  node := ⟨rfl, rfl, rfl, rfl, rfl, rfl⟩
  finished := rfl
  commands := List.Sublist.refl _
  queued := by
    intro frame queued
    rcases queued with outbox | later
    · exact .inl (.inl (mem_of_mem_tail outbox))
    · exact .inl (.inr later)

/-- The steps of the connection: no writer, execution or command takes part. -/
def Action.connection : Action → Bool
  | .handleHello _ | .loseReport _ | .loseCommand _ | .connect | .disconnect | .pop | .sendSucceeds
  | .sendRaises _ | .dropOldest => true
  | _ => false

theorem step_moves {action : Action} (connection : action.connection = true)
    (taken : step lensnode system action = some next) : Moves system next := by
  cases action with
  | handleHello index => exact helloStep_moves taken
  | loseReport index =>
    cases taken
    exact fewerReports_moves system index
  | loseCommand index =>
    cases taken
    exact fewerCommands_moves system (eraseIdx_sublist _ _) system.connected
  | connect =>
    rw [step] at taken
    split at taken
    · cases taken
      exact connect_moves system
    · cases taken
  | disconnect =>
    cases taken
    exact fewerCommands_moves system (nil_sublist _) false
  | pop =>
    rw [step] at taken
    split at taken
    · rename_i head
      cases taken
      exact popped_moves head
    · cases taken
  | sendSucceeds =>
    cases taken
    exact sent_moves system
  | sendRaises reached =>
    cases taken
    exact sendRaised_moves system reached
  | dropOldest =>
    cases taken
    exact dropped_moves system
  | _ => cases connection

theorem known_of_unended {runs : RunTable} (unended : ended runs run = false) :
    run < runs.sequence := by
  cases found : runs.get? run with
  | none => simp [ended, found] at unended
  | some row =>
    rcases Table.get?_eq_some.mp found with ⟨present, rfl⟩
    exact runs.drawn row present

theorem dispatchRunToLensnode_world (system : System) (world : World) (run : Nat) (resume : Bool) :
    dispatchRunToLensnode { system with world := world } run resume =
      { dispatchRunToLensnode system run resume with world := world } := by
  unfold dispatchRunToLensnode post
  dsimp only
  split <;> rfl

theorem dispatchRunToLensnode_runs (system : System) (run : Nat) (resume : Bool) :
    (dispatchRunToLensnode system run resume).world = system.world := by
  unfold dispatchRunToLensnode post
  dsimp only
  split <;> rfl

theorem Invariant.server {action : RunStatus.Action} {published : Bool} (inv : Invariant system)
    (allowed : PublishesSafely lensnode system action published)
    (taken : serverStep lensnode system action published = some next) : Invariant next := by
  unfold serverStep at taken
  split at taken
  · rcases Option.map_eq_some_iff.mp taken with ⟨world, ran, shape⟩
    have carried := step_ends allowed.1 ran
    cases sent : publication lensnode system.world published action with
    | none =>
      rw [sent] at shape
      cases shape
      exact inv.ran world carried
    | some command =>
      rw [sent] at shape
      cases shape
      rcases allowed.2 command sent with ⟨unended, delivered⟩
      dsimp only
      rw [dispatchRunToLensnode_world]
      have sentFirst := inv.dispatched command.2 (known_of_unended unended) unended delivered
      apply sentFirst.ran
      rw [dispatchRunToLensnode_runs]
      exact carried
  · cases taken

theorem handleRunDone_ends (runs : RunTable) (frame : RunDone) (manifestValid : Bool) (now : Int) :
    EndsCarried runs (handleRunDone runs frame manifestValid now) :=
  terminalCarried_ends (RunStatus.finishLensnodeRun_carried ..)

theorem Invariant.handledRunDone {manifestValid : Bool} {now : Int} (inv : Invariant system)
    (taken : runDoneStep system index manifestValid now = some next) : Invariant next := by
  unfold runDoneStep at taken
  split at taken
  · rename_i frame found
    have carried := handleRunDone_ends system.world.runs frame manifestValid now
    have concluded : Concluded system frame.run :=
      .inr (.inr (.inl ⟨frame, .inr (.inr (mem_of_getElem? found)), rfl⟩))
    have known : frame.run < system.world.runs.sequence := by
      rcases inv.settled frame.run concluded with pending | run_ended
      · exact inv.pending_known frame.run pending
      · exact run_ended.known
    have handled := inv.ran ⟨handleRunDone system.world.runs frame manifestValid now,
      system.world.nodes, system.world.tasks⟩ carried
    cases taken
    split
    · rename_i terminal
      unfold post
      dsimp only
      split
      · exact (handled.acknowledged concluded
          ⟨Nat.lt_of_lt_of_le known carried.sequence_le, terminal⟩).moved (fewerReports_moves _ index)
      · exact handled.moved (fewerReports_moves _ index)
    · exact handled.moved (fewerReports_moves _ index)
  · cases taken

theorem Invariant.drained (inv : Invariant system) :
    Invariant { system with node := { system.node with draining := true } } where
  commands_known := inv.commands_known
  running_known := inv.running_known
  pending_known := inv.pending_known
  pending_keyed := inv.pending_keyed
  settled := inv.settled
  acks_ended := inv.acks_ended
  fresh := fun _ _ working => absurd working Bool.noConfusion
  idle := inv.idle
  tracked := inv.tracked
  left := inv.left
  cleanups := inv.cleanups

theorem refusal_draining (refused : refusal node start = none) : node.draining = false := by
  unfold refusal at refused
  split at refused
  · cases refused
  · rename_i working
    simpa using working

theorem draining_of_refusal (refused : refusal node start = some .draining) :
    node.draining = true := by
  unfold refusal at refused
  split at refused
  · rename_i draining
    exact draining
  · split at refused
    · cases refused
    · split_ifs at refused
      cases refused

theorem Invariant.startCommand (inv : Invariant system) {commands : List Command}
    (fewer : commands.Sublist system.commands) (queued : .runStart start ∈ system.commands)
    (allowed : RefusedSafely system.node start) : Invariant { system with
      commands := commands, node := startCommand system.node start } := by
  have known := inv.commands_known start queued
  have received := inv.moved (fewerCommands_moves system fewer system.connected)
  unfold RunDispatch.startCommand
  cases refused : refusal system.node start with
  | some reason =>
    rcases allowed reason refused with ⟨rfl, idle, fits⟩
    have draining := draining_of_refusal refused
    apply received.enqueued fits known idle
    intro working
    rw [draining] at working
    cases working
  | none =>
    dsimp only
    cases present : system.node.running.get? start.run with
    | some running => exact received
    | none =>
      have untouched := inv.fresh start queued (refusal_draining refused)
      apply received.started present known
      intro concluded
      apply untouched
      rcases concluded with reported | pending | frame | ack
      · exact .inl reported
      · exact .inr (.inl pending)
      · exact .inr (.inr (.inl frame))
      · exact .inr (.inr (.inr (fewer.subset ack)))

theorem Invariant.received (inv : Invariant system)
    (allowed : ReceivesSafely system.node system.commands[index]?)
    (taken : step lensnode system (.receive index) = some next) : Invariant next := by
  rw [step] at taken
  split at taken
  · rcases Option.map_eq_some_iff.mp taken with ⟨command, found, rfl⟩
    have queued := mem_of_getElem? found
    have fewer := eraseIdx_sublist system.commands index
    cases command with
    | runStart start =>
      rw [found] at allowed
      exact inv.startCommand fewer queued allowed
    | runDoneAck run =>
      exact (inv.moved (fewerCommands_moves system fewer system.connected)).acked (inv.acks_ended run queued)
  · cases taken

theorem phase_of_get? {running : Running} (present : node.running.get? run = some running) :
    node.phase run = some running.phase := by
  rw [Node.phase, present, Option.map_some]

theorem withNode_some {node : Option Node} (taken : withNode system node = some next) :
    ∃ changed, node = some changed ∧ next = { system with node := changed } := by
  rcases Option.map_eq_some_iff.mp taken with ⟨changed, made, rfl⟩
  exact ⟨changed, made, rfl⟩

theorem Invariant.admitted (inv : Invariant system) (taken : grantSlot system.node run = some node) :
    Invariant { system with node := node } := by
  unfold grantSlot at taken
  split at taken
  · rename_i running present
    split at taken
    · rename_i waiting
      cases taken
      have active : Active system.node run := by
        left
        rw [phase_of_get? present, waiting]
      apply (inv.phased present active .executing).moved
      exact ⟨rfl, ⟨rfl, rfl, rfl, rfl, rfl, rfl⟩, rfl, List.Sublist.refl _,
        fun _ queued => .inl queued⟩
    · cases taken
  · cases taken

theorem leaveWorker_enqueueRunDone (node : Node) (run : Nat) (worker : Option Nat)
    (frame : RunDone) :
    enqueueRunDone (leaveWorker node run worker) frame =
      leaveWorker (enqueueRunDone node frame) run worker := by
  cases worker <;> rfl

theorem Invariant.finishedExecution (inv : Invariant system) {worker : Option Nat}
    (allowed : FinishesSafely system frame)
    (taken : finishExecution system.node frame worker = some node) :
    Invariant { system with node := node, finished := system.finished ++ [frame.run] } := by
  unfold finishExecution at taken
  split at taken
  · rename_i running present
    split at taken
    · rename_i executing
      cases taken
      have active : Active system.node frame.run := by
        right
        rw [phase_of_get? present, executing]
      have threadless := inv.threadless active
      have phased := inv.phased present active .finishing
      have known := inv.running_known frame.run
        (mem_map_of_mem (OrderedDict.mem_of_get? present))
      have enqueued := phased.enqueued allowed.1 known
        (by
          rw [Active, phase_setPhase, if_pos rfl]
          simp)
        (by
          intro working start queued same
          rcases allowed.2 with draining | alone
          · rw [show system.node.draining = false from working] at draining
            cases draining
          · exact alone _ queued (congrArg some same))
      have recorded := enqueued.recorded ((enqueueRunDone_pending allowed.1 _).mpr (.inl rfl))
      rw [leaveWorker_enqueueRunDone]
      exact recorded.leftWorker worker threadless
        (.inl (mem_append_right _ (mem_singleton.mpr rfl)))
    · cases taken
  · cases taken

theorem Invariant.cancelled (inv : Invariant system) {worker : Option Nat}
    (taken : cancelExecution system.node run worker = some node) :
    Invariant { system with node := node } := by
  unfold cancelExecution at taken
  split at taken
  · rename_i running present
    have phase := phase_of_get? present
    split at taken
    · rename_i waiting
      cases taken
      exact inv.phased present (.inl (phase.trans (congrArg some waiting))) _
    · rename_i executing
      cases taken
      have active : Active system.node run := .inr (phase.trans (congrArg some executing))
      apply (inv.phased present active (.unwinding true)).leftWorker worker (inv.threadless active)
      refine .inr ⟨true, ?_⟩
      rw [phase_setPhase, if_pos rfl]
    · cases taken
  · cases taken

theorem Invariant.leftTasks (inv : Invariant system)
    (taken : leaveRunningTasks system.node run = some node) :
    Invariant { system with node := node } := by
  unfold leaveRunningTasks at taken
  split at taken
  · rename_i finishing
    cases taken
    apply inv.popped
    intro admitted unwinding
    rw [finishing] at unwinding
    cases unwinding
  · split at taken
    · rename_i drained
      cases taken
      apply inv.popped
      intro _ _ worker member
      have untracked := all_eq_true.mp drained worker member
      rw [workerTracked, inv.tracked worker member] at untracked
      simp at untracked
    · cases taken
  · cases taken

theorem step_invariant {action : Action} (inv : Invariant system)
    (allowed : Admissible lensnode system action) (taken : step lensnode system action = some next) :
    Invariant next := by
  cases action with
  | server action published => exact inv.server allowed taken
  | handleRunDone index manifestValid now => exact inv.handledRunDone taken
  | drain =>
    cases taken
    exact inv.drained
  | receive index => exact inv.received allowed taken
  | grantSlot run =>
    rcases withNode_some taken with ⟨node, made, rfl⟩
    exact inv.admitted made
  | finish run status error outcome timedOut =>
    rcases Option.map_eq_some_iff.mp taken with ⟨node, made, rfl⟩
    apply (inv.finishedExecution allowed made).moved
    exact ⟨rfl, .refl _, rfl, List.Sublist.refl _, fun _ queued => .inl queued⟩
  | cancel run threaded =>
    rcases Option.map_eq_some_iff.mp taken with ⟨node, made, rfl⟩
    apply (inv.cancelled made).moved
    exact ⟨rfl, .refl _, rfl, List.Sublist.refl _, fun _ queued => .inl queued⟩
  | leave run =>
    rcases withNode_some taken with ⟨node, made, rfl⟩
    exact inv.leftTasks made
  | workerStops worker =>
    rcases withNode_some taken with ⟨node, made, rfl⟩
    exact inv.stopped made
  | _ => exact inv.moved (step_moves rfl taken)

end SourceLens.RunDispatch
