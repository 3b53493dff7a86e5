import SourceLens.RunDispatchSteps

/-! Several deliveries of the answer task for one run: when a second command for a run
that waits or executes on its node does not fail it. -/

namespace SourceLens.RunDispatch

open Transition List Option
open RunStatus (Status RunTable World)

variable {node next : Node} {system after before : System} {run index lensnode : Nat}
  {reason : BusyReason}

def Command.resumes : Command → Bool
  | .runStart start => start.resume
  | .runDoneAck _ => true

def Compatible (one other : Command) : Prop :=
  ∀ run, one.startedRun = some run → other.startedRun = some run →
    one.resumes = true ∧ other.resumes = true

theorem Compatible.symm {one other : Command} (compatible : Compatible one other) :
    Compatible other one := fun run here there => (compatible run there here).symm

/-- A first dispatch is published while no command for the run is under way and the run
does not wait for its slot; a resume command, while none of a first dispatch is. -/
def PublishesOnce (lensnode : Nat) (system : System) (action : RunStatus.Action)
    (published : Bool) : Prop :=
  ∀ command ∈ publication lensnode system.world published action,
    (∀ other ∈ system.commands, other.startedRun = some command.1 →
      other.resumes = true ∧ command.2 = true) ∧
    (command.2 = false →
      ∀ running ∈ system.node.running.get? command.1, running.admitted = true)

/-- A node that drains gets no command for a run that waits or executes there. -/
def ReceivesWorking (node : Node) : Option Command → Prop
  | some (.runStart start) => node.draining = true → ¬ Active node start.run
  | _ => True

def Uncontested (lensnode : Nat) (system : System) : Action → Prop
  | .server action published => PublishesOnce lensnode system action published
  | .receive index => ReceivesWorking system.node system.commands[index]?
  | _ => True

instance (lensnode : Nat) (system : System) (action : RunStatus.Action) (published : Bool) :
    Decidable (PublishesOnce lensnode system action published) :=
  inferInstanceAs (Decidable (∀ command ∈ publication lensnode system.world published action,
    (∀ other ∈ system.commands, other.startedRun = some command.1 →
      other.resumes = true ∧ command.2 = true) ∧
    (command.2 = false →
      ∀ running ∈ system.node.running.get? command.1, running.admitted = true)))

instance (node : Node) : (command : Option Command) → Decidable (ReceivesWorking node command)
  | some (.runStart start) =>
    inferInstanceAs (Decidable (node.draining = true → ¬ Active node start.run))
  | some (.runDoneAck _) => isTrue trivial
  | none => isTrue trivial

instance (lensnode : Nat) (system : System) :
    (action : Action) → Decidable (Uncontested lensnode system action)
  | .server action published =>
    inferInstanceAs (Decidable (PublishesOnce lensnode system action published))
  | .receive index =>
    inferInstanceAs (Decidable (ReceivesWorking system.node system.commands[index]?))
  | .handleHello _ | .handleRunDone .. | .loseReport _ | .loseCommand _ | .connect | .disconnect
  | .drain | .pop | .sendSucceeds | .sendRaises _ | .dropOldest | .grantSlot _ | .finish .. | .cancel ..
  | .leave _ | .workerStops _ => isTrue trivial

def Fails (before after : RunTable) (run : Nat) : Prop :=
  (before.get? run).any (fun row => decide (row.status ≠ .failed)) = true ∧
    (after.get? run).any (fun row => decide (row.status = .failed)) = true

/-- A command for a run that waits or executes is answered without a `run_done`, and
no such answer makes a run FAILED that waits or executes. -/
structure Harmless (lensnode : Nat) (system : System) (action : Action) : Prop where
  answered : ∀ index start next, action = .receive index →
    step lensnode system action = some next →
    system.commands[index]? = some (.runStart start) → Active system.node start.run →
    refusal system.node start = none
  unfailed : ∀ index manifestValid now run reason next,
    action = .handleRunDone index manifestValid now →
    system.reports[index]? = some (.runDone (.busy run reason)) →
    step lensnode system action = some next → Fails system.world.runs next.world.runs run →
    ¬ Active system.node run

def Held (system : System) (frame : RunDone) : Prop :=
  Queued system frame ∨ frame ∈ system.node.pendingTerminalFrames.values

structure Undisputed (system : System) : Prop where
  compatible : system.commands.Pairwise Compatible
  admitted : ∀ start, .runStart start ∈ system.commands → start.resume = false →
    ∀ running, system.node.running.get? start.run = some running → running.admitted = true
  refused : ∀ run reason, Held system (.busy run reason) →
    system.node.draining = true ∧ ¬ Active system.node run

def Phase.active : Phase → Bool
  | .waiting | .executing => true
  | _ => false

theorem active_iff : Active node run ↔
    ∃ running, node.running.get? run = some running ∧ running.phase.active = true := by
  unfold Active Node.phase
  cases present : node.running.get? run with
  | none => simp
  | some running =>
    rcases running with ⟨dispatchId, resume, phase⟩
    cases phase <;> simp [Phase.active]

structure Calm (before after : System) : Prop where
  commands : after.commands.Sublist before.commands
  held : ∀ run reason, Held after (.busy run reason) → Held before (.busy run reason)
  draining : before.node.draining = true → after.node.draining = true
  running : ∀ run later, after.node.running.get? run = some later →
    ∃ earlier, before.node.running.get? run = some earlier ∧
      (earlier.admitted = true → later.admitted = true) ∧
      (later.phase.active = true → earlier.phase.active = true)

theorem Undisputed.calm (undisputed : Undisputed before) (calm : Calm before after) :
    Undisputed after where
  compatible := undisputed.compatible.sublist calm.commands
  admitted := by
    intro start member first later present
    rcases calm.running start.run later present with ⟨earlier, held, kept, _⟩
    exact kept (undisputed.admitted start (calm.commands.subset member) first earlier held)
  refused := by
    intro run reason held
    rcases undisputed.refused run reason (calm.held run reason held) with ⟨draining, idle⟩
    refine ⟨calm.draining draining, ?_⟩
    intro active
    rcases active_iff.mp active with ⟨later, present, activeLater⟩
    rcases calm.running run later present with ⟨earlier, heldEarlier, _, back⟩
    exact idle (active_iff.mpr ⟨earlier, heldEarlier, back activeLater⟩)

theorem Calm.of_node (node : after.node = before.node)
    (commands : after.commands.Sublist before.commands)
    (reports : ∀ frame, .runDone frame ∈ after.reports → Queued before frame) :
    Calm before after where
  commands := commands
  held := by
    intro run reason held
    rcases held with (outbox | sending | sent) | pending
    · exact .inl (.inl (node ▸ outbox))
    · exact .inl (.inr (.inl (node ▸ sending)))
    · exact .inl (reports _ sent)
    · exact .inr (node ▸ pending)
  draining := fun draining => node ▸ draining
  running := fun run later present => ⟨later, node ▸ present, fun kept => kept, fun back => back⟩

/-- A change of the node that concerns neither the connection nor the commands. -/
structure NodeCalm (before after : Node) : Prop where
  outbox : ∀ run reason, .busy run reason ∈ after.outbox → .busy run reason ∈ before.outbox
  sending : after.sending = before.sending
  pending : ∀ run reason, .busy run reason ∈ after.pendingTerminalFrames.values →
    .busy run reason ∈ before.pendingTerminalFrames.values
  draining : after.draining = before.draining
  running : ∀ run later, after.running.get? run = some later →
    ∃ earlier, before.running.get? run = some earlier ∧
      (earlier.admitted = true → later.admitted = true) ∧
      (later.phase.active = true → earlier.phase.active = true)

theorem NodeCalm.of_queues {before after : Node} (outbox : after.outbox = before.outbox)
    (sending : after.sending = before.sending)
    (pending : after.pendingTerminalFrames = before.pendingTerminalFrames)
    (draining : after.draining = before.draining)
    (running : ∀ run later, after.running.get? run = some later →
      ∃ earlier, before.running.get? run = some earlier ∧
        (earlier.admitted = true → later.admitted = true) ∧
        (later.phase.active = true → earlier.phase.active = true)) : NodeCalm before after where
  outbox := fun _ _ queued => outbox ▸ queued
  sending := sending
  pending := fun _ _ noted => pending ▸ noted
  draining := draining
  running := running

theorem NodeCalm.trans {first second third : Node} (one : NodeCalm first second)
    (other : NodeCalm second third) : NodeCalm first third where
  outbox := fun run reason queued => one.outbox run reason (other.outbox run reason queued)
  sending := other.sending.trans one.sending
  pending := fun run reason noted => one.pending run reason (other.pending run reason noted)
  draining := other.draining.trans one.draining
  running := by
    intro run last present
    rcases other.running run last present with ⟨middle, atMiddle, keptLast, backMiddle⟩
    rcases one.running run middle atMiddle with ⟨earlier, atFirst, keptMiddle, backFirst⟩
    exact ⟨earlier, atFirst, fun kept => keptLast (keptMiddle kept),
      fun back => backFirst (backMiddle back)⟩

theorem NodeCalm.calm (calm : NodeCalm system.node after.node)
    (reports : after.reports = system.reports) (commands : after.commands.Sublist system.commands) :
    Calm system after where
  commands := commands
  held := by
    intro run reason held
    rcases held with (outbox | sending | sent) | pending
    · exact .inl (.inl (calm.outbox run reason outbox))
    · exact .inl (.inr (.inl (calm.sending ▸ sending)))
    · exact .inl (.inr (.inr (reports ▸ sent)))
    · exact .inr (calm.pending run reason pending)
  draining := fun draining => calm.draining ▸ draining
  running := calm.running

theorem setPhase_calm {running : Running} (present : node.running.get? run = some running)
    (phase : Phase)
    (kept : running.admitted = true → Running.admitted { running with phase := phase } = true)
    (back : phase.active = true → running.phase.active = true) :
    NodeCalm node (node.setPhase run running phase) := by
  refine NodeCalm.of_queues rfl rfl rfl rfl ?_
  intro other later found
  simp only [Node.setPhase, OrderedDict.get?_set] at found
  split at found
  · rename_i same
    cases found
    exact ⟨running, same ▸ present, kept, back⟩
  · exact ⟨later, found, fun kept => kept, fun back => back⟩

theorem enqueueRunDone_calm (node : Node) (run : Nat) (status : Status) (error : String)
    (outcome : Option RunStatus.Outcome) :
    NodeCalm node (enqueueRunDone node (.executed run status error outcome)) where
  outbox := by
    intro other reason queued
    rcases enqueueRunDone_outbox queued with new | old
    · cases new
    · exact old
  sending := rfl
  pending := by
    intro other reason noted
    rcases mem_map.mp noted with ⟨entry, member, shape⟩
    rcases OrderedDict.mem_set.mp
      (OrderedDict.mem_moveToEnd.mp (OrderedDict.trim_subset member)) with rfl | ⟨old, _⟩
    · cases shape
    · exact mem_map.mpr ⟨entry, old, shape⟩
  draining := rfl
  running := fun _ later present => ⟨later, present, fun kept => kept, fun back => back⟩

theorem leaveWorker_calm (node : Node) (run : Nat) (worker : Option Nat) :
    NodeCalm node (leaveWorker node run worker) := by
  cases worker <;>
    exact .of_queues rfl rfl rfl rfl
      fun _ later present => ⟨later, present, fun kept => kept, fun back => back⟩

theorem pop_calm (node : Node) (run : Nat) :
    NodeCalm node { node with running := node.running.pop run } := by
  refine NodeCalm.of_queues rfl rfl rfl rfl ?_
  intro other later found
  dsimp only at found
  rw [OrderedDict.get?_pop] at found
  split at found
  · cases found
  · exact ⟨later, found, fun kept => kept, fun back => back⟩

theorem grantSlot_calm (taken : grantSlot node run = some next) : NodeCalm node next := by
  unfold grantSlot at taken
  split at taken
  · rename_i running present
    split at taken
    · rename_i waiting
      cases taken
      have phased := setPhase_calm present .executing (fun _ => rfl)
        (fun _ => by rw [waiting]; rfl)
      exact phased.trans (.of_queues rfl rfl rfl rfl
        fun _ later held => ⟨later, held, fun kept => kept, fun back => back⟩)
    · cases taken
  · cases taken

theorem finishExecution_calm {status : Status} {error : String} {outcome : Option RunStatus.Outcome}
    {worker : Option Nat}
    (taken : finishExecution node (.executed run status error outcome) worker = some next) :
    NodeCalm node next := by
  unfold finishExecution at taken
  split at taken
  · rename_i running present
    split at taken
    · cases taken
      have phased := setPhase_calm present .finishing (fun _ => rfl)
        nofun
      exact (phased.trans (leaveWorker_calm _ _ worker)).trans (enqueueRunDone_calm _ _ _ _ _)
    · cases taken
  · cases taken

theorem cancelExecution_calm {worker : Option Nat}
    (taken : cancelExecution node run worker = some next) : NodeCalm node next := by
  unfold cancelExecution at taken
  split at taken
  · rename_i running present
    split at taken
    · rename_i waiting
      cases taken
      apply setPhase_calm present (.unwinding false)
      · intro admitted
        rw [Running.admitted, waiting] at admitted
        cases admitted
      · nofun
    · cases taken
      have phased := setPhase_calm present (.unwinding true) (fun _ => rfl)
        nofun
      exact phased.trans (leaveWorker_calm _ run worker)
    · cases taken
  · cases taken

theorem leaveRunningTasks_calm (taken : leaveRunningTasks node run = some next) :
    NodeCalm node next := by
  unfold leaveRunningTasks at taken
  split at taken
  · cases taken
    exact pop_calm node run
  · split at taken
    · cases taken
      exact pop_calm node run
    · cases taken
  · cases taken

theorem workerStops_calm {worker : Worker} (taken : workerStops node worker = some next) :
    NodeCalm node next := by
  rcases workerStops_parts taken with ⟨_, draining, running, outbox, sending, pending, _⟩
  apply NodeCalm.of_queues outbox sending pending draining
  intro run later present
  rw [running] at present
  exact ⟨later, present, fun kept => kept, fun back => back⟩

theorem handleRunDoneAck_calm (node : Node) (run : Nat) :
    NodeCalm node (handleRunDoneAck node run) := by
  rcases handleRunDoneAck_parts node run with ⟨draining, running, sending, _, _, pending, outbox⟩
  constructor
  · intro other reason queued
    rw [outbox] at queued
    exact mem_of_mem_filter queued
  · exact sending
  · intro other reason noted
    rw [pending] at noted
    rcases mem_map.mp noted with ⟨entry, member, shape⟩
    exact mem_map.mpr ⟨entry, (OrderedDict.mem_filterKeys.mp member).1, shape⟩
  · exact draining
  · intro other later present
    rw [running] at present
    exact ⟨later, present, fun kept => kept, fun back => back⟩

theorem compatible_rest {commands : List Command} (compatible : commands.Pairwise Compatible)
    {command : Command} (found : commands[index]? = some command) :
    ∀ other ∈ commands.eraseIdx index, Compatible command other := by
  rcases List.getElem?_eq_some_iff.mp found with ⟨bound, rfl⟩
  have parts : commands = commands.take index ++ commands[index] :: commands.drop (index + 1) := by
    rw [getElem_cons_drop, take_append_drop]
  rw [eraseIdx_eq_take_drop_succ]
  rw [parts, pairwise_append, pairwise_cons] at compatible
  intro other member
  rcases mem_append.mp member with before | behind
  · exact (compatible.2.2 other before _ mem_cons_self).symm
  · exact compatible.2.1.1 other behind

theorem Undisputed.server {next : System} {action : RunStatus.Action} {published : Bool}
    (undisputed : Undisputed system) (allowed : PublishesOnce lensnode system action published)
    (taken : serverStep lensnode system action published = some next) : Undisputed next := by
  unfold serverStep at taken
  split at taken
  · rcases map_eq_some_iff.mp taken with ⟨world, _, shape⟩
    have ran : Undisputed { system with world := world } :=
      undisputed.calm (.of_node rfl (List.Sublist.refl _) fun _ sent => .inr (.inr sent))
    cases sent : publication lensnode system.world published action with
    | none =>
      rw [sent] at shape
      cases shape
      exact ran
    | some command =>
      rcases command with ⟨run, resume⟩
      rcases allowed _ sent with ⟨alone, unqueued⟩
      rw [sent] at shape
      cases shape
      unfold dispatchRunToLensnode post
      dsimp only
      split
      · constructor
        · rw [pairwise_append]
          refine ⟨ran.compatible, pairwise_singleton _ _, ?_⟩
          intro other member new isNew otherRun here there
          cases mem_singleton.mp isNew
          cases there
          exact alone other member here
        · intro start member first running present
          rcases mem_append.mp member with old | new
          · exact ran.admitted start old first running present
          · cases mem_singleton.mp new
            exact unqueued first running present
        · exact ran.refused
      · exact ⟨ran.compatible, ran.admitted, ran.refused⟩
  · cases taken

theorem refusal_idle {start : RunStart} (refused : refusal node start = some reason)
    (working : node.draining = true → ¬ Active node start.run)
    (admitted : start.resume = false → ∀ running, node.running.get? start.run = some running →
      running.admitted = true) : node.draining = true ∧ ¬ Active node start.run := by
  unfold refusal at refused
  split at refused
  · rename_i draining
    exact ⟨draining, working draining⟩
  · split at refused
    · cases refused
    · rename_i running present
      split_ifs at refused with kept _ resumed
      rw [Bool.not_eq_true] at resumed
      exact absurd (admitted resumed running present) kept

theorem Undisputed.refusal (undisputed : Undisputed system) {start : RunStart}
    (allowed : ReceivesWorking system.node system.commands[index]?)
    (found : system.commands[index]? = some (.runStart start))
    (refused : RunDispatch.refusal system.node start = some reason) :
    system.node.draining = true ∧ ¬ Active system.node start.run := by
  rw [found] at allowed
  exact refusal_idle refused allowed (undisputed.admitted start (mem_of_getElem? found))

theorem sendBusy_held {other : Nat} {otherReason : BusyReason}
    (held : Held { system with node := sendBusy system.node run reason } (.busy other otherReason)) :
    other = run ∨ Held system (.busy other otherReason) := by
  rcases held with (outbox | later) | pending
  · rcases enqueueRunDone_outbox outbox with new | old
    · cases new
      exact .inl rfl
    · exact .inr (.inl (.inl old))
  · exact .inr (.inl (.inr later))
  · rcases mem_map.mp pending with ⟨entry, member, shape⟩
    rcases OrderedDict.mem_set.mp
      (OrderedDict.mem_moveToEnd.mp (OrderedDict.trim_subset member)) with rfl | ⟨old, _⟩
    · cases shape
      exact .inl rfl
    · exact .inr (.inr (mem_map.mpr ⟨entry, old, shape⟩))

theorem Undisputed.received {next : System} (undisputed : Undisputed system)
    (allowed : ReceivesWorking system.node system.commands[index]?)
    (taken : step lensnode system (.receive index) = some next) : Undisputed next := by
  rw [step] at taken
  split at taken
  · rcases map_eq_some_iff.mp taken with ⟨command, found, rfl⟩
    have fewer : Undisputed { system with commands := system.commands.eraseIdx index } :=
      undisputed.calm (.of_node rfl (eraseIdx_sublist _ _) fun _ sent => .inr (.inr sent))
    cases command with
    | runDoneAck run =>
      exact fewer.calm (NodeCalm.calm (handleRunDoneAck_calm system.node run) rfl
        (List.Sublist.refl _))
    | runStart start =>
      simp only [receiveCommand, startCommand]
      cases refused : RunDispatch.refusal system.node start with
      | some reason =>
        rcases undisputed.refusal allowed found refused with ⟨draining, idle⟩
        constructor
        · exact fewer.compatible
        · exact fewer.admitted
        · intro run otherReason held
          rcases sendBusy_held held with rfl | old
          · exact ⟨draining, idle⟩
          · exact fewer.refused run otherReason old
      | none =>
        cases present : system.node.running.get? start.run with
        | some running => exact fewer
        | none =>
          constructor
          · exact fewer.compatible
          · intro other member first running held
            dsimp only at held
            rw [OrderedDict.get?_set] at held
            split at held
            · rename_i same
              have contest := compatible_rest undisputed.compatible found _ member
              have both := contest start.run rfl (congrArg some same)
              rw [show Command.resumes (.runStart other) = other.resume from rfl, first]
                at both
              exact absurd both.2 Bool.noConfusion
            · exact fewer.admitted other member first running held
          · intro run reason held
            rcases fewer.refused run reason held with ⟨draining, _⟩
            rw [show system.node.draining = false from refusal_draining refused] at draining
            cases draining
  · cases taken

theorem Moves.calm (moves : Moves before after) : Calm before after where
  commands := moves.commands
  held := by
    intro run reason held
    rcases held with queued | pending
    · exact moves.queued _ queued
    · exact .inr (moves.node.pendingTerminalFrames ▸ pending)
  draining := fun draining => moves.node.draining ▸ draining
  running := fun run later present =>
    ⟨later, moves.node.running ▸ present, fun kept => kept, fun back => back⟩

theorem Undisputed.handledRunDone {next : System} {manifestValid : Bool} {now : Int}
    (undisputed : Undisputed system)
    (taken : runDoneStep system index manifestValid now = some next) : Undisputed next := by
  unfold runDoneStep at taken
  split at taken
  · rename_i frame found
    cases taken
    have handled : Undisputed { system with
        reports := system.reports.eraseIdx index
        world := { system.world with
          runs := handleRunDone system.world.runs frame manifestValid now } } := by
      apply undisputed.calm
      exact .of_node rfl (List.Sublist.refl _)
        fun other sent => .inr (.inr (mem_of_mem_eraseIdx sent))
    split
    · unfold post
      dsimp only
      split
      · constructor
        · rw [pairwise_append]
          refine ⟨handled.compatible, pairwise_singleton _ _, ?_⟩
          intro other member new isNew run _ there
          cases mem_singleton.mp isNew
          cases there
        · intro start member
          rcases mem_append.mp member with old | new
          · exact handled.admitted start old
          · cases mem_singleton.mp new
        · exact handled.refused
      · exact handled
    · exact handled
  · cases taken

theorem step_undisputed {next : System} {action : Action} (undisputed : Undisputed system)
    (allowed : Uncontested lensnode system action) (taken : step lensnode system action = some next) :
    Undisputed next := by
  cases action with
  | server action published => exact undisputed.server allowed taken
  | handleRunDone index manifestValid now => exact undisputed.handledRunDone taken
  | drain =>
    cases taken
    exact ⟨undisputed.compatible, undisputed.admitted, fun run reason held =>
      ⟨rfl, (undisputed.refused run reason held).2⟩⟩
  | receive index => exact undisputed.received allowed taken
  | grantSlot run =>
    rcases withNode_some taken with ⟨node, made, rfl⟩
    exact undisputed.calm ((grantSlot_calm made).calm rfl (List.Sublist.refl _))
  | finish run status error outcome timedOut =>
    rcases map_eq_some_iff.mp taken with ⟨node, made, rfl⟩
    exact undisputed.calm ((finishExecution_calm made).calm rfl (List.Sublist.refl _))
  | cancel run threaded =>
    rcases map_eq_some_iff.mp taken with ⟨node, made, rfl⟩
    exact undisputed.calm ((cancelExecution_calm made).calm rfl (List.Sublist.refl _))
  | leave run =>
    rcases withNode_some taken with ⟨node, made, rfl⟩
    exact undisputed.calm ((leaveRunningTasks_calm made).calm rfl (List.Sublist.refl _))
  | workerStops worker =>
    rcases withNode_some taken with ⟨node, made, rfl⟩
    exact undisputed.calm ((workerStops_calm made).calm rfl (List.Sublist.refl _))
  | _ => exact undisputed.calm (step_moves rfl taken).calm

theorem Undisputed.harmless {action : Action} (undisputed : Undisputed system)
    (allowed : Uncontested lensnode system action) : Harmless lensnode system action where
  answered := by
    rintro index start next rfl taken found active
    cases refused : RunDispatch.refusal system.node start with
    | none => rfl
    | some reason => exact absurd active (undisputed.refusal allowed found refused).2
  unfailed := by
    rintro index manifestValid now run reason next rfl found _ _
    exact (undisputed.refused run reason
      (.inl (.inr (.inr (mem_of_getElem? found))))).2

theorem Undisputed.new (outboxMax : Nat) (runs : RunTable) (nodes : List RunStatus.LensNode) :
    Undisputed (System.new outboxMax runs nodes) where
  compatible := List.Pairwise.nil
  admitted := nofun
  refused := by
    intro run reason held
    simp [Held, Queued, System.new, Node.new, OrderedDict.values, OrderedDict.empty] at held

/-- In every run whose steps all meet the condition, no command for a run that waits or
executes is answered with a `run_done`, and no such answer makes it FAILED. -/
theorem second_start_harmless (lensnode outboxMax : Nat) (runs : RunTable)
    (nodes : List RunStatus.LensNode) {finish : System} {actions : List Action}
    (run : Steps (step lensnode) (Uncontested lensnode) (System.new outboxMax runs nodes) actions
      finish) :
    Steps (step lensnode) (Harmless lensnode) (System.new outboxMax runs nodes) actions finish := by
  apply run.implied Undisputed
  · exact fun state action next undisputed allowed taken => step_undisputed undisputed allowed taken
  · exact fun state action undisputed allowed => undisputed.harmless allowed
  · exact Undisputed.new outboxMax runs nodes

def advanceTask (index : Nat) : Action :=
  .server (.advance index ⟨0, ⟨none, none, none, none⟩, none⟩) false

/-- Both deliveries read QUEUED before the first of them writes RUNNING and publishes. -/
def deliveredTwice : List Action :=
  [.connect, .server (.call (.executeAnswerRun queuedRun 0 true)) false,
    .server (.call (.executeAnswerRun queuedRun 0 true)) false, advanceTask 0, advanceTask 1,
    advanceTask 0, advanceTask 1, advanceTask 0, advanceTask 0, .receive 0]

def secondWhileExecuting : List Action :=
  deliveredTwice ++ [.grantSlot 0, advanceTask 1, advanceTask 1, .receive 0]

theorem second_start_harmless_run :
    ∃ finish, Steps (step 0) (Harmless 0) queuedSystem secondWhileExecuting finish ∧
      finish.dispatched = 2 ∧ finish.node.phase 0 = some .executing := by
  have outcome : (execGuarded (step 0) (Uncontested 0) queuedSystem secondWhileExecuting).any
      (fun finish => decide (finish.dispatched = 2) &&
        decide (finish.node.phase 0 = some .executing)) = true := by
    decide +kernel
  rcases (any_eq_true _ _).mp outcome with ⟨finish, reached, facts⟩
  rw [Bool.and_eq_true, decide_eq_true_eq, decide_eq_true_eq] at facts
  exact ⟨finish, second_start_harmless 0 100 _ _ (execGuarded_steps reached), facts⟩

/-- The second command arrives while the run waits for its slot, and its refusal is sent. -/
def secondWhileWaiting : List Action :=
  deliveredTwice ++ [advanceTask 1, advanceTask 1, .receive 0, .pop, .sendSucceeds]

theorem second_start_fails_waiting :
    ¬ ∀ (lensnode outboxMax : Nat) (runs : RunTable) (nodes : List RunStatus.LensNode)
      (finish : System) (actions : List Action),
      Steps (step lensnode) Any (System.new outboxMax runs nodes) actions finish →
      Steps (step lensnode) (Harmless lensnode) (System.new outboxMax runs nodes) actions
        finish := by
  intro harmless
  have outcome : (exec (step 0) queuedSystem secondWhileWaiting).any (fun middle =>
      decide (middle.reports[1]? = some (.runDone (.busy 0 .runActive))) &&
        (decide (Active middle.node 0) &&
        (middle.world.runs.get? 0).any (fun row => decide (row.status ≠ .failed)) &&
        (step 0 middle (.handleRunDone 1 true 0)).any fun next =>
          (next.world.runs.get? 0).any fun row => decide (row.status = .failed))) = true := by
    decide +kernel
  rcases (any_eq_true _ _).mp outcome with ⟨middle, reached, facts⟩
  simp only [Bool.and_eq_true, decide_eq_true_eq] at facts
  rcases facts with ⟨refused, ⟨waits, unfailed⟩, fails⟩
  rcases (any_eq_true _ _).mp fails with ⟨next, taken, failed⟩
  have run := (exec_steps reached).append (.single trivial taken)
  rcases (harmless 0 100 _ _ next _ run).split with ⟨same, front, last⟩
  cases front.agree (exec_steps reached)
  cases last with
  | cons safe _ _ =>
    exact safe.unfailed 1 true 0 0 .runActive next rfl refused taken ⟨unfailed, failed⟩ waits

end SourceLens.RunDispatch
