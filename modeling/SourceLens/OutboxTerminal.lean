import SourceLens.OutboxDelivery

/-! The terminal frames of Runs and datasource tasks: their pending maps, the
acknowledgements and the steps of a connection between them. -/

namespace SourceLens.Outbox

open Transition

variable {payload : Payload} {client : Client} {frame : Frame}

inductive TerminalKey
  | run (runUuid : String)
  | task (taskId : String)
  deriving DecidableEq

def TerminalKey.isRun : TerminalKey → Bool
  | .run _ => true
  | .task _ => false

/-- The Run or task that the frame concludes, where the frame names one. -/
def terminalKey (frame : Frame) : Option TerminalKey :=
  if frame.type = "run_done" then if frame.run = "" then none else some (.run frame.run)
  else if frame.type ∈ datasourceTerminalTypes ∧ frame.task ≠ "" then some (.task frame.task)
  else none

def pendingOf (client : Client) : TerminalKey → Option Payload
  | .run runUuid => client.pendingTerminalFrames.get? runUuid
  | .task taskId => client.pendingDatasourceTerminalFrames.get? taskId

/-- The `run_done_ack` branch of `_handle_message`. -/
def handleRunDoneAck (client : Client) (runUuid : String) : Client :=
  { client with
    pendingTerminalFrames := client.pendingTerminalFrames.pop runUuid
    outbox := client.outbox.filter fun payload =>
      ¬ (payload.frame.type = "run_done" ∧ payload.frame.run = runUuid) }

def acknowledgeDatasourceTerminalFrame (client : Client) (payload : Payload) : Client :=
  if payload.frame.type ∈ datasourceTerminalTypes ∧ payload.frame.task ≠ "" ∧
      client.pendingDatasourceTerminalFrames.get? payload.frame.task = some payload then
    { client with
      pendingDatasourceTerminalFrames :=
        client.pendingDatasourceTerminalFrames.pop payload.frame.task }
  else client

/-- The `datasource_terminal_ack` branch: without a pending frame it does nothing. -/
def handleDatasourceTerminalAck (client : Client) (taskId : String) : Client :=
  match client.pendingDatasourceTerminalFrames.get? taskId with
  | none => client
  | some payload =>
    { acknowledgeDatasourceTerminalFrame client payload with
      outbox := client.outbox.filter fun item =>
        ¬ (item.frame.type ∈ datasourceTerminalTypes ∧ item.frame.task = taskId) }

/-- `enqueued`, `settledTo` and `flown` are history: the terminal frames by the number
of their hand-over, how many hand-overs there had been at the last acknowledgement of a
key, and the frames that were being sent when they were acknowledged. -/
structure TerminalSystem where
  system : System
  enqueued : List (Nat × TerminalKey)
  settledTo : TerminalKey → Nat
  flown : List Nat

inductive TerminalAction
  | client (action : Action)
  | runDoneAck (runUuid : String)
  | datasourceTerminalAck (taskId : String)

def TerminalSystem.new (outboxMax outboxSoftLimit : Nat) : TerminalSystem :=
  ⟨.new outboxMax outboxSoftLimit, [], fun _ => 0, []⟩

def handedTerminal (system : System) : Action → List (Nat × TerminalKey)
  | .enqueue _ frame => (terminalKey frame).toList.map fun key => (system.handed, key)
  | _ => []

/-- The acknowledgement settles every frame of the key that was handed over so far. -/
def settle (state : TerminalSystem) (client : Client) (key : TerminalKey) : TerminalSystem :=
  { state with
    system := { state.system with client := client }
    settledTo := Function.update state.settledTo key state.system.handed
    flown := state.flown ++
      carried (state.system.sendLoop.inFlight.filter fun payload =>
        decide (terminalKey payload.frame = some key)) }

def terminalStep (state : TerminalSystem) : TerminalAction → Option TerminalSystem
  | .client action =>
    (step state.system action).map fun next =>
      { state with
        system := next
        enqueued := state.enqueued ++ handedTerminal state.system action }
  | .runDoneAck runUuid =>
    if state.system.connected then
      some (settle state (handleRunDoneAck state.system.client runUuid) (.run runUuid))
    else none
  | .datasourceTerminalAck taskId =>
    if state.system.connected then
      some (settle state (handleDatasourceTerminalAck state.system.client taskId)
        (.task taskId))
    else none

def unacknowledged (state : TerminalSystem) : List (Nat × TerminalKey) :=
  state.enqueued.filter fun entry => decide (state.settledTo entry.2 ≤ entry.1)

def unacknowledgedKeys (state : TerminalSystem) (kind : TerminalKey → Bool) : List TerminalKey :=
  (((unacknowledged state).map Prod.snd).filter kind).dedup

/-- At most `outboxMax` distinct Runs, and as many tasks, are unacknowledged. -/
def Within (state : TerminalSystem) : Prop :=
  (unacknowledgedKeys state TerminalKey.isRun).length ≤ state.system.client.outboxMax ∧
    (unacknowledgedKeys state fun key => !key.isRun).length ≤ state.system.client.outboxMax

instance (state : TerminalSystem) : Decidable (Within state) := inferInstanceAs (Decidable (_ ∧ _))

/-- What `_enqueue_frame` does to the two pending maps. -/
inductive Notes (client next : Client) (payload : Payload) : Prop
  | other (key : terminalKey payload.frame = none)
      (terminal : next.pendingTerminalFrames = client.pendingTerminalFrames)
      (datasource : next.pendingDatasourceTerminalFrames = client.pendingDatasourceTerminalFrames)
  | run (runUuid : String) (stamped : Payload)
      (key : terminalKey payload.frame = some (.run runUuid))
      (carries : stamped.carries = payload.carries)
      (named : terminalKey stamped.frame = some (.run runUuid))
      (terminal : next.pendingTerminalFrames =
        ((client.pendingTerminalFrames.set runUuid stamped).moveToEnd runUuid).trim
          client.outboxMax)
      (datasource : next.pendingDatasourceTerminalFrames = client.pendingDatasourceTerminalFrames)
  | task (taskId : String) (key : terminalKey payload.frame = some (.task taskId))
      (terminal : next.pendingTerminalFrames = client.pendingTerminalFrames)
      (datasource : next.pendingDatasourceTerminalFrames =
        ((client.pendingDatasourceTerminalFrames.set taskId payload).moveToEnd taskId).trim
          client.outboxMax)

theorem run_done_not_datasource : "run_done" ∉ datasourceTerminalTypes := by decide

theorem notePendingTrace_terminal (client : Client) (payload : Payload) :
    (notePendingTrace client payload).pendingTerminalFrames = client.pendingTerminalFrames ∧
      (notePendingTrace client payload).pendingDatasourceTerminalFrames =
        client.pendingDatasourceTerminalFrames := by
  unfold notePendingTrace
  split <;> exact ⟨rfl, rfl⟩

theorem notePendingTerminal_other (now : String)
    (other : ¬ (payload.frame.type = "run_done" ∧ payload.frame.run ≠ "")) :
    notePendingTerminal now client payload = (client, payload) := if_neg other

theorem notePendingTerminal_run (now : String) (client : Client)
    (run : payload.frame.type = "run_done" ∧ payload.frame.run ≠ "") :
    ∃ stamped : Payload, notePendingTerminal now client payload =
        ({ client with
          pendingTerminalFrames :=
            ((client.pendingTerminalFrames.set payload.frame.run stamped).moveToEnd
              payload.frame.run).trim client.outboxMax }, stamped) ∧
      stamped.carries = payload.carries ∧ stamped.frame.type = payload.frame.type ∧
      stamped.frame.run = payload.frame.run := by
  unfold notePendingTerminal
  rw [if_pos run]
  exact ⟨_, rfl, rfl, rfl, rfl⟩

theorem notePendingDatasourceTerminal_other
    (other : ¬ (payload.frame.type ∈ datasourceTerminalTypes ∧ payload.frame.task ≠ "")) :
    notePendingDatasourceTerminal client payload = client := if_neg other

theorem terminalKey_run (type : frame.type = "run_done") (named : frame.run ≠ "") :
    terminalKey frame = some (.run frame.run) := by
  rw [terminalKey, if_pos type, if_neg named]

theorem terminalKey_task (type : frame.type ∈ datasourceTerminalTypes) (named : frame.task ≠ "") :
    terminalKey frame = some (.task frame.task) := by
  have other : frame.type ≠ "run_done" := fun run => run_done_not_datasource (run ▸ type)
  rw [terminalKey, if_neg other, if_pos ⟨type, named⟩]

theorem terminalKey_none (noRun : ¬ (frame.type = "run_done" ∧ frame.run ≠ ""))
    (noTask : ¬ (frame.type ∈ datasourceTerminalTypes ∧ frame.task ≠ "")) :
    terminalKey frame = none := by
  rw [terminalKey, if_neg noTask]
  by_cases run : frame.type = "run_done"
  · have unnamed : frame.run = "" := not_not.mp fun named => noRun ⟨run, named⟩
    rw [if_pos run, if_pos unnamed]
  · rw [if_neg run]

theorem notePending_notes (now : String) (client : Client) (payload : Payload) :
    Notes client (notePending now client payload).1 payload ∧
      terminalKey (notePending now client payload).2.frame = terminalKey payload.frame := by
  rcases notePendingTrace_terminal client payload with ⟨terminal, datasource⟩
  have limit := (notePendingTrace_queues client payload).limit
  unfold notePending
  dsimp only
  generalize notePendingTrace client payload = traced at terminal datasource limit
  by_cases run : payload.frame.type = "run_done" ∧ payload.frame.run ≠ ""
  · rcases notePendingTerminal_run now traced run with
      ⟨stamped, noted, carries, type, runUuid⟩
    have outside : ¬ (stamped.frame.type ∈ datasourceTerminalTypes ∧ stamped.frame.task ≠ "") := by
      intro datasource
      rw [type, run.1] at datasource
      exact run_done_not_datasource datasource.1
    have named := terminalKey_run run.1 run.2
    have same : terminalKey stamped.frame = some (.run payload.frame.run) := by
      rw [← runUuid]
      exact terminalKey_run (type.trans run.1) (runUuid ▸ run.2)
    rw [noted]
    dsimp only
    rw [notePendingDatasourceTerminal_other outside]
    refine ⟨.run payload.frame.run stamped named carries same ?_ datasource, same.trans named.symm⟩
    dsimp only
    rw [terminal, limit]
  · rw [notePendingTerminal_other now run]
    dsimp only
    by_cases task : payload.frame.type ∈ datasourceTerminalTypes ∧ payload.frame.task ≠ ""
    · unfold notePendingDatasourceTerminal
      rw [if_pos task]
      dsimp only
      refine ⟨.task payload.frame.task (terminalKey_task task.1 task.2) terminal ?_, rfl⟩
      dsimp only
      rw [datasource, limit]
    · rw [notePendingDatasourceTerminal_other task]
      exact ⟨.other (terminalKey_none run task) terminal datasource, rfl⟩

theorem get?_noted {Key Value : Type} [DecidableEq Key] {dict : OrderedDict Key Value}
    {key : Key} {value : Value} {limit : Nat} (room : (dict.set key value).length ≤ limit)
    (other : Key) :
    (((dict.set key value).moveToEnd key).trim limit).get? other =
      if other = key then some value else dict.get? other := by
  rw [OrderedDict.get?_trim_within (by rwa [OrderedDict.length_moveToEnd]),
    OrderedDict.get?_moveToEnd, OrderedDict.get?_set]

def RoomFor (client : Client) (payload : Payload) : TerminalKey → Prop
  | .run runUuid => (client.pendingTerminalFrames.set runUuid payload).length ≤ client.outboxMax
  | .task taskId =>
    (client.pendingDatasourceTerminalFrames.set taskId payload).length ≤ client.outboxMax

theorem Notes.pendingOf_key {next : Client} {key : TerminalKey} (notes : Notes client next payload)
    (named : terminalKey payload.frame = some key) (room : ∀ stamped, RoomFor client stamped key) :
    ∃ stamped, stamped.carries = payload.carries ∧ terminalKey stamped.frame = some key ∧
      ∀ other, pendingOf next other = if other = key then some stamped else pendingOf client other := by
  cases notes with
  | other plain =>
    rw [plain] at named
    cases named
  | run runUuid stamped found carries same terminal datasource =>
    rw [found] at named
    cases named
    refine ⟨stamped, carries, same, ?_⟩
    intro other
    cases other with
    | run otherUuid => simp [pendingOf, terminal, get?_noted (room stamped)]
    | task taskId => simp [pendingOf, datasource]
  | task taskId found terminal datasource =>
    rw [found] at named
    cases named
    refine ⟨payload, rfl, found, ?_⟩
    intro other
    cases other with
    | run otherUuid => simp [pendingOf, terminal]
    | task otherId => simp [pendingOf, datasource, get?_noted (room payload)]

end SourceLens.Outbox
