import SourceLens.RunDispatch
import SourceLens.RunStatusRuns

/-! When the node neither repeats a run that it has finished nor loses the files of
one that it executes. -/

namespace SourceLens.RunDispatch

open Transition List OrderedDict
open RunStatus (Status RunTable World Undisturbed blindWriteOf)

variable {run : Nat} {system : System} {node : Node} {frame : RunDone} {worker : Worker}

structure Ended (runs : RunTable) (run : Nat) : Prop where
  known : run < runs.sequence
  ended : ended runs run = true

/-- No writer of an unfinished status meets a run that has ended by then. -/
def KeepsEnds (world : World) (action : RunStatus.Action) : Prop :=
  ∀ write ∈ blindWriteOf world action, write.2.terminal = true ∨
    ∀ key ∈ write.1, ∀ run ∈ world.runs.get? key, run.status.terminal = false

instance (world : World) (action : RunStatus.Action) : Decidable (KeepsEnds world action) :=
  inferInstanceAs (Decidable (∀ write ∈ blindWriteOf world action, write.2.terminal = true ∨
    ∀ key ∈ write.1, ∀ run ∈ world.runs.get? key, run.status.terminal = false))

def EndsCarried (before after : RunTable) : Prop :=
  Table.Carried (fun run => run.status.terminal) (· = true) before after

theorem terminalCarried_ends {before after : RunTable}
    (carried : RunStatus.TerminalCarried before after) : EndsCarried before after :=
  Table.Carried.determines carried (fun _ terminal => terminal)
    fun _ _ same => congrArg Status.terminal same

theorem step_ends {world next : World} {action : RunStatus.Action}
    (allowed : KeepsEnds world action) (taken : RunStatus.step world action = some next) :
    EndsCarried world.runs next.runs := by
  cases blind : blindWriteOf world action with
  | none =>
    have undisturbed : Undisturbed world action := by
      intro write pending
      rw [blind] at pending
      cases pending
    exact terminalCarried_ends (RunStatus.step_carried undisturbed taken)
  | some write =>
    cases action with
    | advance index inputs =>
      rcases Option.bind_eq_some_iff.mp blind with ⟨task, current, writes⟩
      rw [RunStatus.step, current] at taken
      cases taken
      rcases RunStatus.blindWrite_effect writes world.runs world.nodes with
        ⟨set, written, effect⟩
      simp only [effect]
      apply Table.carried_updateWhere
      intro row present listed terminal
      rw [written]
      rcases allowed write blind with ends | unended
      · rw [ends, terminal]
      · rw [unended row.id (of_decide_eq_true listed) row (Table.get?_of_mem present)] at terminal
        cases terminal
    | _ => cases blind

theorem Ended.carried {before after : RunTable} (run_ended : Ended before run)
    (carried : EndsCarried before after) : Ended after run where
  known := Nat.lt_of_lt_of_le run_ended.known carried.sequence_le
  ended := by
    unfold RunDispatch.ended
    cases found : after.get? run with
    | none => rfl
    | some later =>
      rcases carried.origin run later run_ended.known found with ⟨row, stored, same⟩
      have terminal := run_ended.ended
      rw [RunDispatch.ended, stored, Option.all_some] at terminal
      rw [Option.all_some, same terminal, terminal]

def Queued (system : System) (frame : RunDone) : Prop :=
  frame ∈ system.node.outbox ∨ system.node.sending = some frame ∨
    .runDone frame ∈ system.reports

/-- An execution of the run has enqueued its `run_done`, or a `run_done` or its
acknowledgement is still around. -/
def Concluded (system : System) (run : Nat) : Prop :=
  run ∈ system.finished ∨ run ∈ system.node.pendingTerminalFrames.keys ∨
    (∃ frame, Queued system frame ∧ frame.run = run) ∨ .runDoneAck run ∈ system.commands

def Active (node : Node) (run : Nat) : Prop :=
  node.phase run = some .waiting ∨ node.phase run = some .executing

instance (node : Node) (run : Nat) : Decidable (Active node run) :=
  inferInstanceAs (Decidable (_ ∨ _))

def Executing (node : Node) (run : Nat) : Prop :=
  node.phase run = some .executing ∨ ∃ worker ∈ node.workers, worker.run = run

structure Invariant (system : System) : Prop where
  commands_known : ∀ start, .runStart start ∈ system.commands →
    start.run < system.world.runs.sequence
  running_known : ∀ run ∈ system.node.running.keys, run < system.world.runs.sequence
  pending_known : ∀ run ∈ system.node.pendingTerminalFrames.keys,
    run < system.world.runs.sequence
  pending_keyed : ∀ entry ∈ system.node.pendingTerminalFrames.entries, entry.2.run = entry.1
  settled : ∀ run, Concluded system run →
    run ∈ system.node.pendingTerminalFrames.keys ∨ Ended system.world.runs run
  acks_ended : ∀ run, .runDoneAck run ∈ system.commands → Ended system.world.runs run
  fresh : ∀ start, .runStart start ∈ system.commands → system.node.draining = false →
    ¬ Concluded system start.run
  idle : ∀ run, Concluded system run → ¬ Active system.node run
  tracked : ∀ worker ∈ system.node.workers,
    system.node.pendingWorkers worker.run = some worker.number
  left : ∀ worker ∈ system.node.workers, worker.run ∈ system.finished ∨
    ∃ admitted, system.node.phase worker.run = some (.unwinding admitted)
  cleanups : ∀ worker ∈ system.node.pendingCleanups, worker ∈ system.node.workers

theorem Invariant.new (outboxMax : Nat) (runs : RunTable) (nodes : List RunStatus.LensNode) :
    Invariant (System.new outboxMax runs nodes) where
  commands_known := nofun
  running_known := nofun
  pending_known := nofun
  pending_keyed := nofun
  settled := by
    intro run concluded
    simp [Concluded, Queued, System.new, Node.new, OrderedDict.keys, OrderedDict.empty] at concluded
  acks_ended := nofun
  fresh := nofun
  idle := by
    intro run _ active
    simp [Active, Node.phase, System.new, Node.new, OrderedDict.get?, OrderedDict.empty] at active
  tracked := nofun
  left := nofun
  cleanups := nofun

/-- The two nodes agree on all but the outbox, the send loop and the files. -/
structure SameBut (before after : Node) : Prop where
  draining : after.draining = before.draining
  running : after.running = before.running
  pendingTerminalFrames : after.pendingTerminalFrames = before.pendingTerminalFrames
  workers : after.workers = before.workers
  pendingWorkers : after.pendingWorkers = before.pendingWorkers
  pendingCleanups : after.pendingCleanups = before.pendingCleanups

theorem SameBut.phase {before after : Node} (same : SameBut before after) (run : Nat) :
    after.phase run = before.phase run := by
  rw [Node.phase, Node.phase, same.running]

/-- Frames are moved, lost or restored; commands are lost; the writers change nothing. -/
structure Moves (before after : System) : Prop where
  runs : after.world.runs = before.world.runs
  node : SameBut before.node after.node
  finished : after.finished = before.finished
  commands : after.commands.Sublist before.commands
  queued : ∀ frame, Queued after frame →
    Queued before frame ∨ frame ∈ before.node.pendingTerminalFrames.values

theorem Moves.concluded {before after : System} (moves : Moves before after)
    (keyed : ∀ entry ∈ before.node.pendingTerminalFrames.entries, entry.2.run = entry.1)
    (concluded : Concluded after run) : Concluded before run := by
  rcases concluded with reported | pending | ⟨frame, queued, rfl⟩ | ack
  · exact .inl (moves.finished ▸ reported)
  · exact .inr (.inl (moves.node.pendingTerminalFrames ▸ pending))
  · rcases moves.queued frame queued with old | restored
    · exact .inr (.inr (.inl ⟨frame, old, rfl⟩))
    · rcases mem_map.mp restored with ⟨entry, member, rfl⟩
      exact .inr (.inl (keyed entry member ▸ mem_map_of_mem member))
  · exact .inr (.inr (.inr (moves.commands.subset ack)))

theorem Invariant.moved {before after : System} (inv : Invariant before)
    (moves : Moves before after) : Invariant after where
  commands_known := by
    intro start member
    rw [moves.runs]
    exact inv.commands_known start (moves.commands.subset member)
  running_known := by
    rw [moves.node.running, moves.runs]
    exact inv.running_known
  pending_known := by
    rw [moves.node.pendingTerminalFrames, moves.runs]
    exact inv.pending_known
  pending_keyed := by
    rw [moves.node.pendingTerminalFrames]
    exact inv.pending_keyed
  settled := by
    intro run concluded
    rw [moves.node.pendingTerminalFrames, moves.runs]
    exact inv.settled run (moves.concluded inv.pending_keyed concluded)
  acks_ended := by
    intro run member
    rw [moves.runs]
    exact inv.acks_ended run (moves.commands.subset member)
  fresh := by
    intro start member working concluded
    rw [moves.node.draining] at working
    exact inv.fresh start (moves.commands.subset member) working (moves.concluded inv.pending_keyed concluded)
  idle := by
    intro run concluded
    rw [Active, moves.node.phase]
    exact inv.idle run (moves.concluded inv.pending_keyed concluded)
  tracked := by
    rw [moves.node.workers, moves.node.pendingWorkers]
    exact inv.tracked
  left := by
    intro worker member
    rw [moves.node.workers] at member
    rw [moves.finished, moves.node.phase]
    exact inv.left worker member
  cleanups := by
    rw [moves.node.pendingCleanups, moves.node.workers]
    exact inv.cleanups

theorem SameBut.refl (node : Node) : SameBut node node := ⟨rfl, rfl, rfl, rfl, rfl, rfl⟩

theorem Invariant.ran (inv : Invariant system) (world : World)
    (carried : EndsCarried system.world.runs world.runs) :
    Invariant { system with world := world } where
  commands_known := fun start member =>
    Nat.lt_of_lt_of_le (inv.commands_known start member) carried.sequence_le
  running_known := fun run member =>
    Nat.lt_of_lt_of_le (inv.running_known run member) carried.sequence_le
  pending_known := fun run member =>
    Nat.lt_of_lt_of_le (inv.pending_known run member) carried.sequence_le
  pending_keyed := inv.pending_keyed
  settled := by
    intro run concluded
    rcases inv.settled run concluded with pending | run_ended
    · exact .inl pending
    · exact .inr (run_ended.carried carried)
  acks_ended := fun run member => (inv.acks_ended run member).carried carried
  fresh := inv.fresh
  idle := inv.idle
  tracked := inv.tracked
  left := inv.left
  cleanups := inv.cleanups

/-- A command is published for a run that has not ended, of which the node has no
`run_done` left to deliver. -/
theorem Invariant.dispatched (inv : Invariant system) (resume : Bool)
    (known : run < system.world.runs.sequence) (unended : ended system.world.runs run = false)
    (delivered : run ∉ system.node.pendingTerminalFrames.keys) :
    Invariant (dispatchRunToLensnode system run resume) := by
  have untouched : ¬ Concluded system run := by
    intro concluded
    rcases inv.settled run concluded with pending | run_ended
    · exact delivered pending
    · rw [run_ended.ended] at unended
      cases unended
  have commands : ∀ command ∈ (dispatchRunToLensnode system run resume).commands,
      command ∈ system.commands ∨ command = .runStart ⟨run, system.dispatched, resume⟩ := by
    intro command member
    unfold dispatchRunToLensnode post at member
    split at member
    · simpa using member
    · exact .inl member
  have core : (dispatchRunToLensnode system run resume).world = system.world ∧
      (dispatchRunToLensnode system run resume).node = system.node ∧
      (dispatchRunToLensnode system run resume).reports = system.reports ∧
      (dispatchRunToLensnode system run resume).finished = system.finished := by
    unfold dispatchRunToLensnode post
    split <;> exact ⟨rfl, rfl, rfl, rfl⟩
  rcases core with ⟨world, node, reports, finished⟩
  have same : ∀ other, Concluded (dispatchRunToLensnode system run resume) other →
      Concluded system other := by
    intro other concluded
    simp only [Concluded, Queued, node, reports, finished] at concluded
    rcases concluded with reported | pending | frame | ack
    · exact .inl reported
    · exact .inr (.inl pending)
    · exact .inr (.inr (.inl frame))
    · rcases commands _ ack with old | new
      · exact .inr (.inr (.inr old))
      · cases new
  constructor
  · intro start member
    rw [world]
    rcases commands _ member with old | new
    · exact inv.commands_known start old
    · cases new
      exact known
  · rw [node, world]
    exact inv.running_known
  · rw [node, world]
    exact inv.pending_known
  · rw [node]
    exact inv.pending_keyed
  · intro other concluded
    rw [node, world]
    exact inv.settled other (same other concluded)
  · intro other member
    rw [world]
    rcases commands _ member with old | new
    · exact inv.acks_ended other old
    · cases new
  · intro start member working concluded
    rw [node] at working
    rcases commands _ member with old | new
    · exact inv.fresh start old working (same _ concluded)
    · cases new
      exact untouched (same _ concluded)
  · intro other concluded
    rw [node]
    exact inv.idle other (same other concluded)
  · rw [node]
    exact inv.tracked
  · rw [node, finished]
    exact inv.left
  · rw [node]
    exact inv.cleanups

theorem Invariant.acknowledged (inv : Invariant system) (concluded : Concluded system run)
    (run_ended : Ended system.world.runs run) :
    Invariant { system with commands := system.commands ++ [.runDoneAck run] } := by
  have commands : ∀ command ∈ system.commands ++ [.runDoneAck run],
      command ∈ system.commands ∨ command = .runDoneAck run := by
    intro command member
    simpa using member
  have same : ∀ other,
      Concluded { system with commands := system.commands ++ [.runDoneAck run] } other →
      Concluded system other := by
    intro other held
    rcases held with reported | pending | frame | ack
    · exact .inl reported
    · exact .inr (.inl pending)
    · exact .inr (.inr (.inl frame))
    · rcases commands _ ack with old | new
      · exact .inr (.inr (.inr old))
      · cases new
        exact concluded
  constructor
  · intro start member
    rcases commands _ member with old | new
    · exact inv.commands_known start old
    · cases new
  · exact inv.running_known
  · exact inv.pending_known
  · exact inv.pending_keyed
  · exact fun other held => inv.settled other (same other held)
  · intro other member
    rcases commands _ member with old | new
    · exact inv.acks_ended other old
    · cases new
      exact run_ended
  · intro start member working held
    rcases commands _ member with old | new
    · exact inv.fresh start old working (same _ held)
    · cases new
  · exact fun other held => inv.idle other (same other held)
  · exact inv.tracked
  · exact inv.left
  · exact inv.cleanups

def Fits (node : Node) (frame : RunDone) : Prop :=
  (node.pendingTerminalFrames.set frame.run frame).length ≤ node.outboxMax

instance (node : Node) (frame : RunDone) : Decidable (Fits node frame) :=
  inferInstanceAs (Decidable (_ ≤ _))

theorem enqueueRunDone_pending (fits : Fits node frame) (run : Nat) :
    run ∈ (enqueueRunDone node frame).pendingTerminalFrames.keys ↔
      run = frame.run ∨ run ∈ node.pendingTerminalFrames.keys := by
  have within : ((node.pendingTerminalFrames.set frame.run frame).moveToEnd frame.run).length ≤
      node.outboxMax := by
    rwa [length_moveToEnd]
  have whole := trim_within within
  calc run ∈ (enqueueRunDone node frame).pendingTerminalFrames.keys
      ↔ run ∈ ((node.pendingTerminalFrames.set frame.run frame).moveToEnd frame.run).keys := by
        simp only [enqueueRunDone, OrderedDict.keys, whole]
    _ ↔ run ∈ (node.pendingTerminalFrames.set frame.run frame).keys :=
        mem_keys_moveToEnd
    _ ↔ run = frame.run ∨ run ∈ node.pendingTerminalFrames.keys := mem_keys_set

theorem enqueueRunDone_keyed
    (keyed : ∀ entry ∈ node.pendingTerminalFrames.entries, entry.2.run = entry.1) :
    ∀ entry ∈ (enqueueRunDone node frame).pendingTerminalFrames.entries,
      entry.2.run = entry.1 := by
  intro entry member
  rcases mem_set.mp (mem_moveToEnd.mp (trim_subset member)) with
    rfl | ⟨old, _⟩
  · rfl
  · exact keyed entry old

theorem enqueueRunDone_outbox {queued : RunDone}
    (member : queued ∈ (enqueueRunDone node frame).outbox) :
    queued = frame ∨ queued ∈ node.outbox := by
  rcases mem_append.mp member with old | new
  · exact .inr (mem_of_mem_drop old)
  · exact .inl (mem_singleton.mp new)

theorem Invariant.enqueued (inv : Invariant system) (fits : Fits system.node frame)
    (known : frame.run < system.world.runs.sequence) (idle : ¬ Active system.node frame.run)
    (alone : system.node.draining = false → ∀ start, .runStart start ∈ system.commands →
      start.run ≠ frame.run) :
    Invariant { system with node := enqueueRunDone system.node frame } := by
  have same : ∀ run, Concluded { system with node := enqueueRunDone system.node frame } run →
      run = frame.run ∨ Concluded system run := by
    intro run concluded
    rcases concluded with reported | pending | ⟨queued, held, rfl⟩ | ack
    · exact .inr (.inl reported)
    · rcases (enqueueRunDone_pending fits run).mp pending with new | old
      · exact .inl new
      · exact .inr (.inr (.inl old))
    · rcases held with outbox | later
      · rcases enqueueRunDone_outbox outbox with rfl | old
        · exact .inl rfl
        · exact .inr (.inr (.inr (.inl ⟨queued, .inl old, rfl⟩)))
      · exact .inr (.inr (.inr (.inl ⟨queued, .inr later, rfl⟩)))
    · exact .inr (.inr (.inr (.inr ack)))
  constructor
  · exact inv.commands_known
  · exact inv.running_known
  · intro run pending
    rcases (enqueueRunDone_pending fits run).mp pending with rfl | old
    · exact known
    · exact inv.pending_known run old
  · exact enqueueRunDone_keyed inv.pending_keyed
  · intro run concluded
    rw [enqueueRunDone_pending fits]
    rcases same run concluded with new | old
    · exact .inl (.inl new)
    · rcases inv.settled run old with pending | run_ended
      · exact .inl (.inr pending)
      · exact .inr run_ended
  · exact inv.acks_ended
  · intro start member working concluded
    rcases same start.run concluded with new | old
    · exact alone working start member new
    · exact inv.fresh start member working old
  · intro run concluded
    rcases same run concluded with rfl | old
    · exact idle
    · exact inv.idle run old
  · exact inv.tracked
  · exact inv.left
  · exact inv.cleanups

theorem phase_setPhase (node : Node) (run other : Nat) (running : Running) (phase : Phase) :
    (node.setPhase run running phase).phase other =
      if other = run then some phase else node.phase other := by
  unfold Node.setPhase Node.phase
  rw [get?_set]
  split <;> rfl

theorem Invariant.threadless (inv : Invariant system) (active : Active system.node run) :
    ∀ worker ∈ system.node.workers, worker.run ≠ run := by
  rintro worker member rfl
  rcases inv.left worker member with finished | ⟨admitted, unwinding⟩
  · exact inv.idle worker.run (.inl finished) active
  · rcases active with waiting | executing
    · rw [unwinding] at waiting
      cases waiting
    · rw [unwinding] at executing
      cases executing

theorem Invariant.phased (inv : Invariant system) {running : Running}
    (present : system.node.running.get? run = some running) (active : Active system.node run)
    (phase : Phase) : Invariant { system with node := system.node.setPhase run running phase } where
  commands_known := inv.commands_known
  running_known := by
    intro other member
    rcases mem_keys_set.mp member with rfl | old
    · exact inv.running_known other (mem_map_of_mem (mem_of_get? present))
    · exact inv.running_known other old
  pending_known := inv.pending_known
  pending_keyed := inv.pending_keyed
  settled := inv.settled
  acks_ended := inv.acks_ended
  fresh := inv.fresh
  idle := by
    intro other concluded nowActive
    have apart : other ≠ run := by
      rintro rfl
      exact inv.idle other concluded active
    rw [Active, phase_setPhase, if_neg apart] at nowActive
    exact inv.idle other concluded nowActive
  tracked := inv.tracked
  left := by
    intro worker member
    rw [phase_setPhase, if_neg (inv.threadless active worker member)]
    exact inv.left worker member
  cleanups := inv.cleanups

theorem Invariant.leftWorker (inv : Invariant system) (worker : Option Nat)
    (threadless : ∀ worker ∈ system.node.workers, worker.run ≠ run)
    (gone : run ∈ system.finished ∨ ∃ admitted, system.node.phase run = some (.unwinding admitted)) :
    Invariant { system with node := leaveWorker system.node run worker } := by
  cases worker with
  | none => exact inv
  | some number =>
    constructor
    · exact inv.commands_known
    · exact inv.running_known
    · exact inv.pending_known
    · exact inv.pending_keyed
    · exact inv.settled
    · exact inv.acks_ended
    · exact inv.fresh
    · exact inv.idle
    · intro worker member
      simp only [leaveWorker, mem_append, mem_singleton] at member ⊢
      rcases member with old | rfl
      · rw [Function.update_of_ne (threadless worker old)]
        exact inv.tracked worker old
      · exact Function.update_self ..
    · intro worker member
      simp only [leaveWorker, mem_append, mem_singleton] at member
      rcases member with old | rfl
      · exact inv.left worker old
      · exact gone
    · intro worker member
      exact mem_append_left _ (inv.cleanups worker member)

/-- The run's `run_done` is already noted as unacknowledged. -/
theorem Invariant.recorded (inv : Invariant system)
    (pending : run ∈ system.node.pendingTerminalFrames.keys) :
    Invariant { system with finished := system.finished ++ [run] } := by
  have same : ∀ other, Concluded { system with finished := system.finished ++ [run] } other →
      Concluded system other := by
    intro other concluded
    rcases concluded with reported | later
    · rcases mem_append.mp reported with old | new
      · exact .inl old
      · rw [mem_singleton.mp new]
        exact .inr (.inl pending)
    · exact .inr later
  constructor
  · exact inv.commands_known
  · exact inv.running_known
  · exact inv.pending_known
  · exact inv.pending_keyed
  · exact fun other held => inv.settled other (same other held)
  · exact inv.acks_ended
  · exact fun start member working held => inv.fresh start member working (same _ held)
  · exact fun other held => inv.idle other (same other held)
  · exact inv.tracked
  · intro worker member
    rcases inv.left worker member with finished | unwinding
    · exact .inl (mem_append_left _ finished)
    · exact .inr unwinding
  · exact inv.cleanups

theorem Invariant.started (inv : Invariant system) {start : RunStart}
    (absent : system.node.running.get? start.run = none)
    (known : start.run < system.world.runs.sequence) (untouched : ¬ Concluded system start.run) :
    Invariant { system with node := { system.node with
      running := system.node.running.set start.run ⟨start.dispatchId, start.resume, .waiting⟩ } } := by
  have phase : ∀ run, run ≠ start.run → Node.phase { system.node with
      running := system.node.running.set start.run ⟨start.dispatchId, start.resume, .waiting⟩ } run =
        system.node.phase run := by
    intro run apart
    simp only [Node.phase]
    rw [get?_set, if_neg apart]
  constructor
  · exact inv.commands_known
  · intro run member
    rcases mem_keys_set.mp member with rfl | old
    · exact known
    · exact inv.running_known run old
  · exact inv.pending_known
  · exact inv.pending_keyed
  · exact inv.settled
  · exact inv.acks_ended
  · exact inv.fresh
  · intro run concluded
    have apart : run ≠ start.run := by
      rintro rfl
      exact untouched concluded
    rw [Active, phase run apart]
    exact inv.idle run concluded
  · exact inv.tracked
  · intro worker member
    have apart : worker.run ≠ start.run := by
      intro same
      rcases inv.left worker member with finished | ⟨admitted, unwinding⟩
      · exact untouched (same ▸ .inl finished)
      · rw [same, Node.phase, absent] at unwinding
        cases unwinding
    rw [phase worker.run apart]
    exact inv.left worker member
  · exact inv.cleanups

/-- An execution leaves `running_tasks`; one that unwinds has no thread left. -/
theorem Invariant.popped (inv : Invariant system)
    (unwound : ∀ admitted, system.node.phase run = some (.unwinding admitted) →
      ∀ worker ∈ system.node.workers, worker.run ≠ run) :
    Invariant { system with node := { system.node with
      running := system.node.running.pop run } } := by
  have phase : ∀ other, Node.phase { system.node with
      running := system.node.running.pop run } other =
        if other = run then none else system.node.phase other := by
    intro other
    simp only [Node.phase]
    rw [get?_pop]
    split <;> rfl
  constructor
  · exact inv.commands_known
  · exact fun other member => inv.running_known other (mem_keys_pop.mp member).1
  · exact inv.pending_known
  · exact inv.pending_keyed
  · exact inv.settled
  · exact inv.acks_ended
  · exact inv.fresh
  · intro other concluded
    rw [Active, phase]
    split
    · simp
    · exact inv.idle other concluded
  · exact inv.tracked
  · intro worker member
    rw [phase]
    split
    · rename_i same
      rcases inv.left worker member with finished | ⟨admitted, unwinding⟩
      · exact .inl finished
      · exact absurd same (unwound admitted (same ▸ unwinding) worker member)
    · exact inv.left worker member
  · exact inv.cleanups

theorem deferredTo_worker (deferred : deferredTo node run = some worker) :
    worker ∈ node.workers ∧ worker.run = run := by
  unfold deferredTo at deferred
  split at deferred
  · cases deferred
  · split at deferred
    · rename_i member
      cases deferred
      exact ⟨member, rfl⟩
    · cases deferred

theorem deferredTo_none (immediate : deferredTo node run = none)
    (tracked : ∀ worker ∈ node.workers, node.pendingWorkers worker.run = some worker.number) :
    ∀ worker ∈ node.workers, worker.run ≠ run := by
  rintro worker member rfl
  rw [deferredTo, tracked worker member] at immediate
  simp only [if_pos member] at immediate
  cases immediate

theorem handleRunDoneAck_parts (node : Node) (run : Nat) :
    (handleRunDoneAck node run).draining = node.draining ∧
      (handleRunDoneAck node run).running = node.running ∧
      (handleRunDoneAck node run).sending = node.sending ∧
      (handleRunDoneAck node run).workers = node.workers ∧
      (handleRunDoneAck node run).pendingWorkers = node.pendingWorkers ∧
      (handleRunDoneAck node run).pendingTerminalFrames = node.pendingTerminalFrames.pop run ∧
      (handleRunDoneAck node run).outbox = node.outbox.filter (fun frame => frame.run ≠ run) := by
  unfold handleRunDoneAck removeFiles
  dsimp only
  split
  · exact ⟨rfl, rfl, rfl, rfl, rfl, rfl, rfl⟩
  · split <;> exact ⟨rfl, rfl, rfl, rfl, rfl, rfl, rfl⟩

theorem handleRunDoneAck_cleanups (member : worker ∈ (handleRunDoneAck node run).pendingCleanups) :
    worker ∈ node.pendingCleanups ∨ deferredTo node run = some worker := by
  unfold handleRunDoneAck removeFiles at member
  dsimp only at member
  split at member
  · exact .inl member
  · rename_i other deferred
    split at member
    · exact .inl member
    · rcases mem_append.mp member with old | new
      · exact .inl old
      · rw [mem_singleton.mp new]
        exact .inr deferred

theorem Invariant.acked (inv : Invariant system) (run_ended : Ended system.world.runs run) :
    Invariant { system with node := handleRunDoneAck system.node run } := by
  rcases handleRunDoneAck_parts system.node run with
    ⟨draining, running, sending, workers, pendingWorkers, pending, outbox⟩
  have same : ∀ other, Concluded { system with node := handleRunDoneAck system.node run } other →
      Concluded system other := by
    intro other concluded
    simp only [Concluded, Queued, pending, outbox, sending] at concluded
    rcases concluded with reported | noted | ⟨frame, queued | later, named⟩ | ack
    · exact .inl reported
    · exact .inr (.inl (mem_keys_pop.mp noted).1)
    · exact .inr (.inr (.inl ⟨frame, .inl (mem_of_mem_filter queued), named⟩))
    · exact .inr (.inr (.inl ⟨frame, .inr later, named⟩))
    · exact .inr (.inr (.inr ack))
  have phase : ∀ other, (handleRunDoneAck system.node run).phase other =
      system.node.phase other := by
    intro other
    rw [Node.phase, Node.phase, running]
  constructor
  · exact inv.commands_known
  · simp only [running]
    exact inv.running_known
  · simp only [pending]
    exact fun other member => inv.pending_known other (mem_keys_pop.mp member).1
  · simp only [pending]
    exact fun entry member => inv.pending_keyed entry (mem_filterKeys.mp member).1
  · intro other concluded
    simp only [pending, mem_keys_pop]
    by_cases named : other = run
    · exact .inr (named ▸ run_ended)
    · rcases inv.settled other (same other concluded) with noted | ended
      · exact .inl ⟨noted, named⟩
      · exact .inr ended
  · exact inv.acks_ended
  · simp only [draining]
    exact fun start member working held => inv.fresh start member working (same _ held)
  · intro other concluded
    rw [Active, phase]
    exact inv.idle other (same other concluded)
  · simp only [workers, pendingWorkers]
    exact inv.tracked
  · simp only [workers, phase]
    exact inv.left
  · intro worker member
    simp only [workers]
    rcases handleRunDoneAck_cleanups member with old | deferred
    · exact inv.cleanups worker old
    · exact (deferredTo_worker deferred).1

theorem workerStops_parts {next : Node} (taken : workerStops node worker = some next) :
    worker ∈ node.workers ∧ next.draining = node.draining ∧ next.running = node.running ∧
      next.outbox = node.outbox ∧ next.sending = node.sending ∧
      next.pendingTerminalFrames = node.pendingTerminalFrames ∧
      next.workers = node.workers.filter (· ≠ worker) ∧
      (∀ other ∈ next.pendingCleanups, other ∈ node.pendingCleanups ∧ other ≠ worker) ∧
      next.pendingWorkers =
        if workerTracked node worker then Function.update node.pendingWorkers worker.run none
        else node.pendingWorkers := by
  unfold workerStops removeFiles at taken
  split at taken
  · rename_i member
    dsimp only at taken
    split at taken
    · cases taken
      refine ⟨member, rfl, rfl, rfl, rfl, rfl, rfl, ?_, rfl⟩
      intro other kept
      simpa using kept
    · rename_i unasked
      cases taken
      refine ⟨member, rfl, rfl, rfl, rfl, rfl, rfl, ?_, rfl⟩
      rintro other kept
      refine ⟨kept, ?_⟩
      rintro rfl
      exact unasked kept
  · cases taken

theorem Invariant.stopped (inv : Invariant system)
    (taken : workerStops system.node worker = some node) :
    Invariant { system with node := node } := by
  rcases workerStops_parts taken with
    ⟨member, draining, running, outbox, sending, pending, workers, cleanups, pendingWorkers⟩
  have same : ∀ run, Concluded { system with node := node } run → Concluded system run := by
    intro run concluded
    simpa only [Concluded, Queued, outbox, sending, pending] using concluded
  have phase : ∀ run, node.phase run = system.node.phase run := by
    intro run
    rw [Node.phase, Node.phase, running]
  constructor
  · exact inv.commands_known
  · simp only [running]
    exact inv.running_known
  · simp only [pending]
    exact inv.pending_known
  · simp only [pending]
    exact inv.pending_keyed
  · intro run concluded
    simp only [pending]
    exact inv.settled run (same run concluded)
  · exact inv.acks_ended
  · simp only [draining]
    exact fun start queued working held => inv.fresh start queued working (same _ held)
  · intro run concluded
    rw [Active, phase]
    exact inv.idle run (same run concluded)
  · intro other kept
    rw [workers, mem_filter, decide_eq_true_eq] at kept
    have number := inv.tracked other kept.1
    rw [pendingWorkers]
    split
    · rename_i named
      rw [Function.update_of_ne, number]
      intro sameRun
      rw [workerTracked, decide_eq_true_eq, ← sameRun, number] at named
      apply kept.2
      cases other
      cases worker
      simp_all
    · exact number
  · intro other kept
    rw [workers, mem_filter] at kept
    rw [phase]
    exact inv.left other kept.1
  · intro other kept
    rw [workers, mem_filter, decide_eq_true_eq]
    exact ⟨inv.cleanups other (cleanups other kept).1, (cleanups other kept).2⟩

end SourceLens.RunDispatch
