import SourceLens.RunTraceLog
import SourceLens.Trajectory
import SourceLens.Library.Transition

/-! One run across LensNode processes: the live trajectory, the checkpointed one
and the server's persisted cursor, over crashes and resume dispatches. -/

namespace SourceLens.TraceResume

open Transition RunTrace Trajectory Option

variable {system : System} {runtime : Runtime} {event : Json}

/-- The entries of a `run_start` command that the executor reads before the run. -/
structure Command where
  resume : Bool
  task : Json
  question : String
  history : List Json
  targetDirs : List Json
  agentModelRef : Json
  settings : Json
  imageCount : Nat
  traceAttempt : Nat

/-- The live process: `undelivered` are the recorded events that the server has
not taken, in order; `persists` once the runtime saves the trajectory state. -/
structure Session where
  trajectory : RunTrajectory
  undelivered : List Json
  persists : Bool

/-- What the checkpoint store holds for a run; the trajectory state may be missing. -/
structure Checkpoint where
  checkpointStep : Int
  checkpointId : String
  traceState : Option TraceState

structure System where
  runUuid : String
  session : Option Session
  checkpoint : Option Checkpoint
  log : List TraceRow

def System.new (runUuid : String) : System := ⟨runUuid, none, none, []⟩

inductive Action
  | dispatch (runtime : Runtime) (command : Command)
  | checkpointReady (checkpointStep : Int) (checkpointId : String)
  | operate (runtime : Runtime) (operation : Operation)
  | persistState (runtime : Runtime)
  | deliver (run : Option RunRow) (lensnodeUuid : String)
  | crash

/-- The `run.started` event that `execute` records. -/
def runStarted (runUuid : String) (command : Command) : RecordArgs where
  eventType := "run.started"
  payload := [("name", .str "run"), ("task", command.task), ("question", .str command.question),
    ("history", .arr command.history), ("target_dirs", .arr command.targetDirs),
    ("model_ref", command.agentModelRef), ("settings", command.settings),
    ("resume", .bool command.resume)]
  callId := some s!"run:{runUuid}"

def contextMessages (command : Command) : List RecordArgs :=
  command.history.map (fun message =>
      { eventType := "context.message", payload := [("message", message)] }) ++
    [{ eventType := "user.message"
       payload := [("content", .str command.question), ("image_count", .int command.imageCount)] }]

/-- `push_span` on the calling context. -/
def pushSpan (runtime : Runtime) (callId : String) : Runtime :=
  if runtime.spans.getLast? = some callId then runtime
  else { runtime with spans := runtime.spans ++ [callId] }

/-- What `execute` records before the runtime is prepared. -/
def executePrelude (runtime : Runtime) (runUuid : String) (command : Command)
    (traceCursor : Nat) : Recorded :=
  let first := record runtime (.new runUuid traceCursor command.traceAttempt)
    (runStarted runUuid command)
  let later := recordAll (pushSpan runtime s!"run:{runUuid}") first.trajectory
    (contextMessages command)
  ⟨later.trajectory, first.events ++ later.events, later.offered <|> first.offered⟩

/-- `_validated_trace_state`: a checkpoint without one resumes from zero. -/
def validatedTraceState (state : Option TraceState) : TraceState :=
  state.getD ⟨traceSchemaVersion, 0, 1, [], [], .empty, [], .empty, .empty⟩

/-- `_prepare_runtime` of a resumed run: merge, record the restore, close what was open. -/
def prepareRuntime (runtime : Runtime) (checkpoint : Checkpoint) (before : Recorded) :
    Option Recorded :=
  (mergeResumeState before.trajectory (validatedTraceState checkpoint.traceState)).map fun merged =>
    let restored := record runtime merged
      { eventType := "checkpoint.restored"
        payload := [("checkpoint_step", .int checkpoint.checkpointStep)]
        checkpointId := some checkpoint.checkpointId }
    let closed := interruptOpenCalls runtime restored.trajectory "checkpoint_resume"
    ⟨closed.trajectory, before.events ++ (restored.events ++ closed.events),
      closed.offered <|> restored.offered⟩

/-- The process starts with the trace cursor the server dispatched. -/
def dispatch (runtime : Runtime) (command : Command) (system : System) : System :=
  let before := executePrelude runtime system.runUuid command (lastPersistedSequence system.log)
  let started := match command.resume, system.checkpoint with
    | true, some checkpoint =>
      (prepareRuntime (pushSpan runtime s!"run:{system.runUuid}") checkpoint before).getD before
    | _, _ => before
  { system with session := some ⟨started.trajectory, started.events, false⟩ }

def withSession (system : System) (change : Session → System) : Option System :=
  system.session.map change

/-- `save_runtime_state` with a trajectory state, once there is a checkpoint. -/
def saveTraceState (system : System) (session : Session) (state : TraceState) :
    Option Checkpoint :=
  if session.persists then
    system.checkpoint.map fun checkpoint => { checkpoint with traceState := some state }
  else system.checkpoint

def step (backend : Backend) (system : System) : Action → Option System
  | .dispatch runtime command =>
    if system.session.isSome then none else some (dispatch runtime command system)
  | .checkpointReady checkpointStep checkpointId =>
    withSession system fun session => { system with
      session := some { session with persists := true }
      checkpoint := some
        ⟨checkpointStep, checkpointId, system.checkpoint.bind (·.traceState)⟩ }
  | .operate runtime operation =>
    withSession system fun session =>
      let recorded := perform runtime session.trajectory operation
      { system with
        session := some { session with
          trajectory := recorded.trajectory
          undelivered := session.undelivered ++ recorded.events }
        checkpoint := match recorded.offered with
          | some state => saveTraceState system session state
          | none => system.checkpoint }
  | .persistState runtime =>
    withSession system fun session => { system with
      checkpoint := saveTraceState system session (snapshot runtime session.trajectory) }
  | .deliver run lensnodeUuid =>
    match system.session with
    | none => none
    | some session =>
      match session.undelivered with
      | [] => none
      | event :: rest =>
        match appendRunTraceEvents backend run lensnodeUuid (.arr [event]) system.log with
        | .ok (log, _) =>
          some { system with
            session := some { session with undelivered := rest }
            log := log }
        -- A rejected event stays unacknowledged and is sent again.
        | .error _ => some system
  | .crash => some { system with session := none }

/-- The checkpoint of a resume is not ahead of what the prelude numbers. -/
def checkpointCovered (system : System) : Action → Bool
  | .dispatch _ command =>
    match command.resume, system.checkpoint with
    | true, some checkpoint =>
      (validatedTraceState checkpoint.traceState).lastTraceSeq ≤
        lastPersistedSequence system.log + 2 + command.history.length
    | _, _ => true
  | _ => true

def CheckpointCovered (system : System) (action : Action) : Prop :=
  checkpointCovered system action = true

instance (system : System) (action : Action) : Decidable (CheckpointCovered system action) :=
  inferInstanceAs (Decidable (_ = _))

/-- The undelivered events continue the persisted cursor without a gap. -/
def Continues (system : System) : Prop :=
  ∀ session ∈ system.session,
    sequences session.undelivered =
        numbered (lastPersistedSequence system.log + 1) session.undelivered.length ∧
      session.trajectory.sequence =
        lastPersistedSequence system.log + session.undelivered.length

/-- The server takes the next undelivered event when its fields are valid, its ID
is unseen, it can be stored and the run is assigned to the node. -/
def Acceptable (backend : Backend) (system : System) : Prop :=
  ∀ session ∈ system.session, ∀ event rest, session.undelivered = event :: rest →
    ∀ normalized, normalizeEvent backend event 0 = .ok normalized →
      (∀ row ∈ system.log, row.eventId ≠ normalized.eventId) →
      backend.storable normalized.toTraceEvent = true →
      ∀ lensnodeUuid, appendRunTraceEvents backend (some ⟨some lensnodeUuid⟩) lensnodeUuid
          (.arr [event]) system.log =
        .ok (system.log ++ [{ normalized.toTraceEvent with pk := system.log.length }],
          ⟨1, 0, normalized.sequence⟩)

theorem executePrelude_numbers (runtime : Runtime) (runUuid : String) (command : Command)
    (traceCursor : Nat) :
    Numbers (.new runUuid traceCursor command.traceAttempt)
        (executePrelude runtime runUuid command traceCursor) ∧
      (executePrelude runtime runUuid command traceCursor).events.length =
        2 + command.history.length := by
  have first := record_numbers runtime (.new runUuid traceCursor command.traceAttempt)
    (runStarted runUuid command)
  rcases recordAll_numbers (pushSpan runtime s!"run:{runUuid}") (record runtime (.new runUuid
      traceCursor command.traceAttempt) (runStarted runUuid command)).trajectory (contextMessages
      command) with
    ⟨later, count⟩
  refine ⟨first.append later, ?_⟩
  have messages : (contextMessages command).length = command.history.length + 1 := by
    simp [contextMessages]
  simp only [executePrelude, List.length_append, count, messages, record_length]
  omega

theorem prepareRuntime_some (runtime : Runtime) {checkpoint : Checkpoint} {before after : Recorded}
    (prepared : prepareRuntime runtime checkpoint before = some after) :
    ∃ merged restored closed,
      mergeResumeState before.trajectory (validatedTraceState checkpoint.traceState) = some merged ∧
      Numbers merged restored ∧ restored.events.length = 1 ∧
      Numbers restored.trajectory closed ∧
      after = ⟨closed.trajectory, before.events ++ (restored.events ++ closed.events),
        closed.offered <|> restored.offered⟩ := by
  obtain ⟨merged, merges, rfl⟩ := map_eq_some_iff.mp prepared
  exact ⟨merged, _, _, merges, record_numbers runtime merged _, rfl,
    interruptCalls_numbers runtime _ _ _, rfl⟩

theorem mergeResumeState_some {trajectory merged : RunTrajectory} {state : TraceState}
    (merges : mergeResumeState trajectory state = some merged) :
    merged.sequence = max trajectory.sequence state.lastTraceSeq ∧
      merged.runUuid = trajectory.runUuid := by
  unfold mergeResumeState at merges
  split at merges
  · cases merges
  · cases merges
    exact ⟨rfl, rfl⟩

theorem prepareRuntime_numbers {start : RunTrajectory} {checkpoint : Checkpoint}
    {before after : Recorded} (numbers : Numbers start before)
    (covered : (validatedTraceState checkpoint.traceState).lastTraceSeq ≤ before.trajectory.sequence)
    (prepared : prepareRuntime runtime checkpoint before = some after) :
    sequences after.events = numbered (start.sequence + 1) after.events.length ∧
      after.trajectory.sequence = start.sequence + after.events.length := by
  obtain ⟨merged, restored, closed, merges, one, -, two, rfl⟩ :=
    prepareRuntime_some runtime prepared
  obtain ⟨cursor, run⟩ := mergeResumeState_some merges
  rw [Nat.max_eq_left covered] at cursor
  have whole := numbers.append ((one.append two).of_same cursor.symm run.symm)
  exact ⟨whole.events, whole.cursor⟩

theorem dispatch_continues {command : Command}
    (covered : CheckpointCovered system (.dispatch runtime command)) :
    Continues (dispatch runtime command system) := by
  obtain ⟨numbers, count⟩ :=
    executePrelude_numbers runtime system.runUuid command (lastPersistedSequence system.log)
  have reached := numbers.cursor
  intro session same
  cases same
  simp only [dispatch]
  simp only [CheckpointCovered, checkpointCovered] at covered
  split
  · rename_i checkpoint resume stored
    simp only [resume, stored, decide_eq_true_eq] at covered
    cases prepared : prepareRuntime (pushSpan runtime s!"run:{system.runUuid}") checkpoint
        (executePrelude runtime system.runUuid command (lastPersistedSequence system.log)) with
    | none => exact ⟨numbers.events, reached⟩
    | some after =>
      refine prepareRuntime_numbers numbers ?_ prepared
      rw [reached, count]
      simp only [RunTrajectory.new]
      omega
  · exact ⟨numbers.events, reached⟩

theorem sequences_cons {rest : List Json} {first : Nat}
    (numbering : sequences (event :: rest) = numbered first (rest.length + 1)) :
    event.intField "sequence" = some (first : Int) ∧
      sequences rest = numbered (first + 1) rest.length := by
  simp only [sequences, numbered, List.range'_succ, List.map_cons, List.cons.injEq] at numbering
  exact numbering

variable (backend : Backend)

theorem deliver_next {after : List TraceRow} {result : AppendResult} {run : Option RunRow}
    {lensnodeUuid : String} (contiguous : Contiguous system.log)
    (next : event.intField "sequence" = some ((system.log.length + 1 : Nat) : Int))
    (accepted : appendRunTraceEvents backend run lensnodeUuid (.arr [event]) system.log =
      .ok (after, result)) : after.length = system.log.length + 1 := by
  obtain ⟨normalized, valid, appended, -⟩ := appendRunTraceEvents_ok accepted
  rw [validateBatch_single] at valid
  cases normalizes : normalizeEvent backend event 0 with
  | error error => simp [normalizes, Except.map] at valid
  | ok only =>
    simp only [normalizes, Except.map, Except.ok.injEq] at valid
    subst valid
    have sequence := (normalizeEvent_ok normalizes).2 _ next
    rcases (append_single contiguous appended).2 with ⟨-, row, member, matched⟩ | ⟨-, rfl⟩
    · have bound := contiguous.sequence_le member
      rw [eventMatches_sequence matched] at bound
      omega
    · rw [List.length_append, List.length_singleton]

theorem operate_continues {operation : Operation} {session : Session} (continues : Continues system)
    (live : session ∈ system.session) (checkpoint : Option Checkpoint) :
    let recorded := perform runtime session.trajectory operation
    Continues { system with
      session := some { session with
        trajectory := recorded.trajectory
        undelivered := session.undelivered ++ recorded.events }
      checkpoint := checkpoint } := by
  intro recorded other same
  cases same
  obtain ⟨numbering, cursor⟩ := continues session live
  have numbers := perform_numbers runtime session.trajectory operation
  constructor
  · simp only [sequences_append, List.length_append, numbered_append]
    rw [numbering, numbers.events, cursor, Nat.add_right_comm]
  · simp only [recorded, numbers.cursor, cursor, List.length_append, Nat.add_assoc]

theorem deliver_continues {session : Session} {rest : List Json} {after : List TraceRow}
    {result : AppendResult} {run : Option RunRow} {lensnodeUuid : String}
    (contiguous : Contiguous system.log) (continues : Continues system)
    (live : session ∈ system.session) (queue : session.undelivered = event :: rest)
    (accepted : appendRunTraceEvents backend run lensnodeUuid (.arr [event]) system.log =
      .ok (after, result)) : Contiguous after ∧ Continues { system with
      session := some { session with undelivered := rest }
      log := after } := by
  obtain ⟨numbering, cursor⟩ := continues session live
  rw [contiguous.lastPersistedSequence, queue] at numbering cursor
  obtain ⟨here, later⟩ := sequences_cons numbering
  have kept := (appendRunTraceEvents_contiguous contiguous accepted).1
  have longer := deliver_next backend contiguous here accepted
  refine ⟨kept, ?_⟩
  intro other same
  cases same
  simp only [kept.lastPersistedSequence, longer]
  refine ⟨later, ?_⟩
  rw [cursor, List.length_cons]
  omega

theorem step_continues {next : System} {action : Action} (contiguous : Contiguous system.log)
    (continues : Continues system) (covered : CheckpointCovered system action)
    (taken : step backend system action = some next) : Contiguous next.log ∧ Continues next := by
  cases action with
  | dispatch runtime command =>
    simp only [step] at taken
    split at taken
    · cases taken
    · cases taken
      exact ⟨contiguous, dispatch_continues covered⟩
  | checkpointReady checkpointStep checkpointId =>
    obtain ⟨session, live, rfl⟩ := map_eq_some_iff.mp taken
    refine ⟨contiguous, ?_⟩
    intro other same
    cases same
    exact continues session live
  | operate runtime operation =>
    obtain ⟨session, live, rfl⟩ := map_eq_some_iff.mp taken
    exact ⟨contiguous, operate_continues continues live _⟩
  | persistState runtime =>
    obtain ⟨session, live, rfl⟩ := map_eq_some_iff.mp taken
    exact ⟨contiguous, continues⟩
  | deliver run lensnodeUuid =>
    simp only [step] at taken
    split at taken
    · cases taken
    · rename_i session live
      split at taken
      · cases taken
      · rename_i event rest queue
        split at taken
        · rename_i after result accepted
          cases taken
          exact deliver_continues backend contiguous continues live queue accepted
        · cases taken
          exact ⟨contiguous, continues⟩
  | crash =>
    cases taken
    exact ⟨contiguous, fun session member => by cases member⟩

theorem continues_acceptable (contiguous : Contiguous system.log) (continues : Continues system) :
    Acceptable backend system := by
  intro session live event rest queue normalized normalizes fresh storable lensnodeUuid
  obtain ⟨numbering, -⟩ := continues session live
  rw [contiguous.lastPersistedSequence, queue] at numbering
  have sequence := (normalizeEvent_ok normalizes).2 _ (sequences_cons numbering).1
  simp only [appendRunTraceEvents, validateBatch_single, normalizes, Except.map, bind, Except.bind,
    checkAssignment, if_true]
  exact append_next contiguous (by omega) fresh storable

/-- Over every run of records, deliveries, crashes and dispatches in which no
resumed checkpoint is ahead of the prelude, the node's events continue the
server's cursor, and the server takes the next one. -/
theorem resume_continues (runUuid : String) (actions : List Action) (finish : System)
    (run : Steps (step backend) CheckpointCovered (.new runUuid) actions finish) :
    Continues finish ∧ Acceptable backend finish := by
  have invariant := run.invariant (fun system => Contiguous system.log ∧ Continues system)
    (fun system action next holds covered taken =>
      step_continues backend holds.1 holds.2 covered taken)
    ⟨Contiguous.empty, fun session member => by cases member⟩
  exact ⟨invariant.2, continues_acceptable backend invariant.1 invariant.2⟩

def sessionRuntime (prefixDigits : String) : Runtime where
  uuid4 := fun sequence => prefixDigits ++ String.ofList ((List.range 31).map fun index =>
    if index < sequence then '1' else '0')
  utcNow := fun _ => "2026-01-01T00:00:00Z"
  describe := fun _ => ""
  spans := []

def commandOf (resume : Bool) : Command :=
  ⟨resume, .str "answer", "q", [], [], .str "m", .obj [], 0, 1⟩

/-- Two events of the prelude reach the server before the crash, the third and
the checkpoint of it do not get ahead of the next prelude. -/
def coveredRun : List Action :=
  [.dispatch (sessionRuntime "a") (commandOf false), .checkpointReady 0 "c",
    .operate (sessionRuntime "a") (.record { eventType := "model.started" }),
    .deliver (some ⟨some "n"⟩) "n", .deliver (some ⟨some "n"⟩) "n", .crash,
    .dispatch (sessionRuntime "b") (commandOf true), .deliver (some ⟨some "n"⟩) "n"]

theorem resume_continues_run :
    ∃ finish, Steps (step sampleBackend) CheckpointCovered (.new "r") coveredRun finish ∧
      finish.log.length = 3 ∧ Continues finish ∧ Acceptable sampleBackend finish := by
  have executed : (execGuarded (step sampleBackend) CheckpointCovered (.new "r") coveredRun).any
      (fun finish => finish.log.length == 3) = true := by decide +kernel
  obtain ⟨finish, reached, stored⟩ := (any_eq_true _ _).mp executed
  have run := execGuarded_steps reached
  exact ⟨finish, run, by simpa using stored, resume_continues sampleBackend "r" coveredRun finish run⟩

/-- A checkpoint of the third event, none of the three delivered: the resumed
prelude fills 1 and 2, the next event is numbered 4, and the server, which has
taken both, rejects it. -/
def staleRun : List Action :=
  [.dispatch (sessionRuntime "a") (commandOf false), .checkpointReady 0 "c",
    .operate (sessionRuntime "a") (.record { eventType := "model.started" }), .crash,
    .dispatch (sessionRuntime "b") (commandOf true), .deliver (some ⟨some "n"⟩) "n",
    .deliver (some ⟨some "n"⟩) "n", .deliver (some ⟨some "n"⟩) "n"]

theorem stale_checkpoint_leaves_gap :
    ¬ ∀ (backend : Backend) (runUuid : String) (actions : List Action) (finish : System),
      Steps (step backend) Any (.new runUuid) actions finish → Continues finish := by
  intro always
  have executed : (exec (step sampleBackend) (.new "r") staleRun).any (fun finish =>
      lastPersistedSequence finish.log == 2 && finish.session.any fun session =>
        session.undelivered.length == 1 && session.trajectory.sequence == 4) = true := by
    decide +kernel
  obtain ⟨finish, reached, gap⟩ := (any_eq_true _ _).mp executed
  simp only [Bool.and_eq_true, beq_iff_eq] at gap
  obtain ⟨stored, live⟩ := gap
  obtain ⟨session, present, behind⟩ := (any_eq_true _ _).mp live
  simp only [Bool.and_eq_true, beq_iff_eq] at behind
  have reachedCursor := (always sampleBackend "r" staleRun finish (exec_steps reached) session present).2
  omega

end SourceLens.TraceResume
