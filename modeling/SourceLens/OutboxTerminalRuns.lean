import SourceLens.OutboxTerminalSteps
import Mathlib.Data.List.Perm.Subperm

/-! The newest unacknowledged terminal frame of every Run and task is remembered, and
is queued after every connect. -/

namespace SourceLens.Outbox

open Transition Option List

variable {state next : TerminalSystem} {key : TerminalKey} {client : Client}

/-- The frame is unacknowledged, and no later one was enqueued under its key. -/
def Newest (state : TerminalSystem) (number : Nat) (key : TerminalKey) : Prop :=
  (number, key) ∈ unacknowledged state ∧ ∀ other, (other, key) ∈ state.enqueued → other ≤ number

/-- The terminal frame was enqueued, and is unacknowledged unless it was being sent when
it was acknowledged. -/
def Accounted (state : TerminalSystem) (payload : Payload) : Prop :=
  ∀ key, terminalKey payload.frame = some key → ∃ number, payload.carries = [number] ∧
    (number, key) ∈ state.enqueued ∧ (state.settledTo key ≤ number ∨ number ∈ state.flown)

theorem mem_unacknowledged {number : Nat} : (number, key) ∈ unacknowledged state ↔
      (number, key) ∈ state.enqueued ∧ state.settledTo key ≤ number := by
  simp [unacknowledged]

theorem Accounted.of_plain {payload : Payload} (plain : Plain payload) :
    Accounted state payload := by
  intro key named
  rw [plain] at named
  cases named

structure Sound (state : TerminalSystem) : Prop where
  earlier : ∀ entry ∈ state.enqueued, entry.1 < state.system.handed
  settled : ∀ key, state.settledTo key ≤ state.system.handed
  remembered : ∀ key payload, pendingOf state.system.client key = some payload →
    terminalKey payload.frame = some key ∧
      ∃ number, payload.carries = [number] ∧ Newest state number key
  pending : ∀ number key, (number, key) ∈ unacknowledged state →
    pendingOf state.system.client key ≠ none
  accounted : ∀ payload ∈ state.system.client.outbox ++ state.system.sendLoop.inFlight,
    Accounted state payload
  held : PlainHeld state.system.client

theorem Sound.new (outboxMax outboxSoftLimit : Nat) :
    Sound (.new outboxMax outboxSoftLimit) where
  earlier := by rintro _ ⟨⟩
  settled := fun _ => Nat.zero_le _
  remembered := by
    intro key payload found
    cases key <;> cases found
  pending := by rintro _ _ ⟨⟩
  accounted := by rintro _ ⟨⟩
  held := ⟨by rintro _ ⟨⟩, by rintro _ ⟨⟩⟩

theorem Sound.named (sound : Sound state) :
    ∀ key payload, pendingOf state.system.client key = some payload →
      terminalKey payload.frame = some key :=
  fun key payload found => (sound.remembered key payload found).1

theorem Sound.pending_accounted (sound : Sound state) {payload : Payload}
    (found : pendingOf state.system.client key = some payload) : Accounted state payload := by
  rcases sound.remembered key payload found with ⟨named, number, carries, newest, -⟩
  intro other again
  rw [named, Option.some.injEq] at again
  subst again
  rw [mem_unacknowledged] at newest
  exact ⟨number, carries, newest.1, .inl newest.2⟩

theorem Sound.moves {next : System} (sound : Sound state)
    (handed : state.system.handed ≤ next.handed)
    (pending : ∀ key, pendingOf next.client key = pendingOf state.system.client key)
    (held : PlainHeld next.client)
    (queued : ∀ payload ∈ next.client.outbox ++ next.sendLoop.inFlight,
      payload ∈ state.system.client.outbox ++ state.system.sendLoop.inFlight ∨ Plain payload ∨
        ∃ key, pendingOf state.system.client key = some payload) :
    Sound { state with system := next } where
  earlier := fun entry member => (sound.earlier entry member).trans_le handed
  settled := fun key => (sound.settled key).trans handed
  remembered := by
    intro key payload found
    exact sound.remembered key payload ((pending key).symm.trans found)
  pending := by
    intro number key member
    rw [pending key]
    exact sound.pending number key member
  accounted := by
    intro payload member
    rcases queued payload member with old | plain | ⟨key, found⟩
    · exact sound.accounted payload old
    · exact .of_plain plain
    · exact sound.pending_accounted found
  held := held

theorem Sound.quiet {handed : Nat} (sound : Sound state) (quiet : Quiet state.system.client client)
    (later : state.system.handed ≤ handed) :
    Sound { state with system := { state.system with client := client, handed := handed } } := by
  apply sound.moves later quiet.pendingOf_eq (quiet.held sound.held)
  intro payload member
  rw [mem_append] at member
  rcases member with queued | flight
  · rcases quiet.outbox payload queued with old | plain
    · exact .inl (mem_append_left _ old)
    · exact .inr (.inl plain)
  · exact .inl (mem_append_right _ flight)

theorem length_le_of_keys {Value : Type} {dict : OrderedDict String Value}
    {keys : List TerminalKey} {make : String → TerminalKey} (distinct : Function.Injective make)
    (covered : ∀ name ∈ dict.keys, make name ∈ keys) : dict.length ≤ keys.length := by
  have nodup : (dict.keys.map make).Nodup := dict.distinct.map distinct
  have within : dict.keys.map make ⊆ keys := by
    intro key member
    rcases mem_map.mp member with ⟨name, inside, rfl⟩
    exact covered name inside
  have bound := (subperm_of_subset nodup within).length_le
  rwa [length_map, OrderedDict.keys, length_map] at bound

theorem mem_unacknowledgedKeys {kind : TerminalKey → Bool} : key ∈ unacknowledgedKeys state kind ↔
      (∃ number, (number, key) ∈ unacknowledged state) ∧ kind key = true := by
  simp [unacknowledgedKeys]

def handOver (state : TerminalSystem) (client : Client) (key : TerminalKey) : TerminalSystem :=
  { state with
    system := { state.system with client := client, handed := state.system.handed + 1 }
    enqueued := state.enqueued ++ [(state.system.handed, key)] }

theorem mem_handOver {other : TerminalKey} {number : Nat} (sound : Sound state) :
    (number, other) ∈ unacknowledged (handOver state client key) ↔
      (number, other) ∈ unacknowledged state ∨ (number = state.system.handed ∧ other = key) := by
  simp only [mem_unacknowledged, handOver, mem_append, mem_singleton, Prod.mk.injEq]
  constructor
  · intro both
    rcases both with ⟨old | new, later⟩
    · exact .inl ⟨old, later⟩
    · exact .inr new
  · intro either
    rcases either with ⟨old, later⟩ | ⟨rfl, rfl⟩
    · exact ⟨.inl old, later⟩
    · exact ⟨.inr ⟨rfl, rfl⟩, sound.settled _⟩

theorem Sound.room {flushed : Client} (sound : Sound state)
    (quiet : Quiet state.system.client flushed) (limit : client.outboxMax = flushed.outboxMax)
    (within : Within (handOver state client key)) (stamped : Payload) :
    RoomFor flushed stamped key := by
  have remembered : ∀ other, pendingOf state.system.client other ≠ none →
      ∃ number, (number, other) ∈ unacknowledged (handOver state client key) := by
    intro other present
    rcases ne_none_iff_exists'.mp present with ⟨payload, found⟩
    rcases sound.remembered other payload found with ⟨_, number, _, newest, -⟩
    exact ⟨number, (mem_handOver sound).mpr (.inl newest)⟩
  have fresh : ∃ number, (number, key) ∈ unacknowledged (handOver state client key) :=
    ⟨state.system.handed, (mem_handOver sound).mpr (.inr ⟨rfl, rfl⟩)⟩
  cases key with
  | run runUuid =>
    have room := within.1
    simp only [handOver] at room
    apply le_trans _ (limit ▸ room)
    refine length_le_of_keys (fun one other same => TerminalKey.run.inj same) ?_
    intro name member
    rw [mem_unacknowledgedKeys]
    refine ⟨?_, rfl⟩
    rw [OrderedDict.mem_keys_set, quiet.terminal] at member
    rcases member with rfl | old
    · exact fresh
    · apply remembered
      exact fun missing => OrderedDict.get?_eq_none_iff.mp missing old
  | task taskId =>
    have room := within.2
    simp only [handOver] at room
    apply le_trans _ (limit ▸ room)
    refine length_le_of_keys (fun one other same => TerminalKey.task.inj same) ?_
    intro name member
    rw [mem_unacknowledgedKeys]
    refine ⟨?_, rfl⟩
    rw [OrderedDict.mem_keys_set, quiet.datasource] at member
    rcases member with rfl | old
    · exact fresh
    · apply remembered
      exact fun missing => OrderedDict.get?_eq_none_iff.mp missing old

theorem Sound.handOver {now : String} {frame : Frame} (sound : Sound state)
    (named : terminalKey frame = some key) (within : Within (handOver state
      (enqueue now state.system.client ⟨[state.system.handed], frame⟩) key)) :
    Sound (handOver state (enqueue now state.system.client ⟨[state.system.handed], frame⟩) key) := by
  have handed : terminalKey (Payload.mk [state.system.handed] frame).frame = some key := named
  rcases enqueue_terminal now sound.held handed with ⟨flushed, quiet, queues⟩
  generalize enqueue now state.system.client ⟨[state.system.handed], frame⟩ = client at *
  rcases queues.notes.pendingOf_key named (sound.room quiet queues.limit within) with
    ⟨stamped, carries, same, found⟩
  have newest : Newest (Outbox.handOver state client key) state.system.handed key := by
    refine ⟨(mem_handOver sound).mpr (.inr ⟨rfl, rfl⟩), ?_⟩
    intro other member
    rcases mem_append.mp member with old | new
    · exact (sound.earlier _ old).le
    · exact (congrArg Prod.fst (mem_singleton.mp new)).le
  have kept : ∀ payload, Accounted state payload →
      Accounted (Outbox.handOver state client key) payload := by
    intro payload accounted other known
    rcases accounted other known with ⟨number, alone, member, status⟩
    exact ⟨number, alone, mem_append_left _ member, status⟩
  refine ⟨?_, ?_, ?_, ?_, ?_, queues.held (quiet.held sound.held)⟩
  · intro entry member
    rcases mem_append.mp member with old | new
    · exact (sound.earlier entry old).trans (Nat.lt_succ_self _)
    · rw [mem_singleton.mp new]
      exact Nat.lt_succ_self _
  · exact fun other => (sound.settled other).trans (Nat.le_succ _)
  · intro other payload remembered
    have value := (found other).symm.trans remembered
    split at value
    · rename_i own
      cases value
      exact ⟨own ▸ same, state.system.handed, carries, own ▸ newest⟩
    · rename_i apart
      rw [quiet.pendingOf_eq] at value
      rcases sound.remembered other payload value with ⟨named, number, alone, unsettled, last⟩
      refine ⟨named, number, alone, (mem_handOver sound).mpr (.inl unsettled), ?_⟩
      intro later member
      rcases mem_append.mp member with old | new
      · exact last later old
      · exact absurd (congrArg Prod.snd (mem_singleton.mp new)) apart
  · intro number other member
    show pendingOf client other ≠ none
    rw [found other]
    split
    · exact some_ne_none stamped
    · rename_i apart
      rw [quiet.pendingOf_eq]
      rcases (mem_handOver sound).mp member with old | ⟨_, own⟩
      · exact sound.pending number other old
      · exact absurd own apart
  · intro payload member
    rcases mem_append.mp member with queued | flight
    · rcases queues.outbox payload queued with before | ⟨alone, known⟩
      · rcases quiet.outbox payload before with old | plain
        · exact kept payload (sound.accounted payload (mem_append_left _ old))
        · exact .of_plain plain
      · intro other again
        rw [known, named, Option.some.injEq] at again
        subst again
        rcases mem_unacknowledged.mp newest.1 with ⟨listed, later⟩
        exact ⟨state.system.handed, alone, listed, .inl later⟩
    · exact kept payload (sound.accounted payload (mem_append_right _ flight))

theorem Sound.settle (sound : Sound state) (acks : Acknowledges state.system.client client key) :
    Sound (settle state client key) := by
  have unsettled : ∀ number other, (number, other) ∈ unacknowledged (Outbox.settle state client key) ↔
      (number, other) ∈ unacknowledged state ∧ other ≠ key := by
    intro number other
    simp only [mem_unacknowledged, Outbox.settle, Function.update_apply]
    split
    · rename_i own
      simp only [own, ne_eq, not_true_eq_false, and_false, iff_false, not_and, not_le]
      exact fun member => sound.earlier _ member
    · rename_i apart
      simp [apart]
  refine ⟨sound.earlier, ?_, ?_, ?_, ?_, acks.held sound.held⟩
  · intro other
    simp only [Outbox.settle, Function.update_apply]
    split
    · exact Nat.le_refl _
    · exact sound.settled other
  · intro other payload found
    have value := (acks.pending other).symm.trans found
    split at value
    · cases value
    · rename_i apart
      rcases sound.remembered other payload value with ⟨named, number, alone, newest, last⟩
      exact ⟨named, number, alone, (unsettled number other).mpr ⟨newest, apart⟩, last⟩
  · intro number other member
    rcases (unsettled number other).mp member with ⟨old, apart⟩
    show pendingOf client other ≠ none
    rw [acks.pending other, if_neg apart]
    exact sound.pending number other old
  · intro payload member other named
    have before : payload ∈ state.system.client.outbox ++ state.system.sendLoop.inFlight ∧
        (other = key → pendingOf state.system.client key = none ∨
          payload ∈ state.system.sendLoop.inFlight) := by
      rcases mem_append.mp member with queued | flight
      · rcases acks.outbox payload queued with ⟨old, missing⟩
        exact ⟨mem_append_left _ old, fun own => .inl (missing (own ▸ named))⟩
      · exact ⟨mem_append_right _ flight, fun _ => .inr flight⟩
    rcases sound.accounted payload before.1 other named with ⟨number, alone, listed, either⟩
    refine ⟨number, alone, listed, ?_⟩
    simp only [Outbox.settle, Function.update_apply, mem_append]
    rcases either with later | flown
    · split
      · rename_i own
        rcases before.2 own with missing | flight
        · have member := mem_unacknowledged.mpr ⟨listed, later⟩
          exact absurd (own ▸ missing) (sound.pending number other member)
        · refine .inr (.inr (mem_carried.mpr ⟨payload, ?_, ?_⟩))
          · exact mem_filter.mpr ⟨flight, decide_eq_true (own ▸ named)⟩
          · rw [alone]
            exact mem_singleton_self number
      · exact .inl later
    · exact .inr (.inl flown)
/-- The number of distinct unacknowledged Runs and of tasks stays within `outboxMax`. -/
def WithinNext (state : TerminalSystem) (action : TerminalAction) : Prop :=
  (terminalStep state action).all (fun next => decide (Within next)) = true

instance (state : TerminalSystem) (action : TerminalAction) : Decidable (WithinNext state action) :=
  inferInstanceAs (Decidable (_ = _))

theorem WithinNext.within {action : TerminalAction} (within : WithinNext state action)
    (taken : terminalStep state action = some next) : Within next := by
  rw [WithinNext, taken, all_some, decide_eq_true_eq] at within
  exact within

theorem Sound.connects (sound : Sound state) : Sound { state with
      system := { state.system with
        client := onConnected state.system.client
        connected := true
        sendLoop := .ready } } := by
  refine sound.moves (Nat.le_refl _) ?_ ⟨sound.held.buffered, sound.held.traces⟩ ?_
  · intro key
    cases key <;> rfl
  · intro payload member
    simp only [SendLoop.inFlight, append_nil] at member
    rcases onConnected_outbox sound.held member with old | other
    · exact .inl (mem_append_left _ old)
    · exact .inr other

theorem Sound.carries {outbox : List Payload} {loop : SendLoop} {connected : Bool}
    {sent : List Payload} (sound : Sound state) (moved : ∀ payload ∈ outbox ++ loop.inFlight,
      payload ∈ state.system.client.outbox ++ state.system.sendLoop.inFlight) : Sound { state with
      system := { state.system with
        client := { state.system.client with outbox := outbox }
        connected := connected
        sendLoop := loop
        sent := sent } } := by
  refine sound.moves (Nat.le_refl _) ?_ ⟨sound.held.buffered, sound.held.traces⟩ ?_
  · intro key
    cases key <;> rfl
  · exact fun payload member => .inl (moved payload member)

theorem clientStep_sound {action : Action} (sound : Sound state) (within : Within next)
    (taken : terminalStep state (.client action) = some next) : Sound next := by
  simp only [terminalStep, map_eq_some_iff] at taken
  rcases taken with ⟨system, stepped, rfl⟩
  cases action with
  | enqueue now frame =>
    cases stepped
    cases named : terminalKey frame with
    | none =>
      simp only [handedTerminal, named, toList_none, map_nil, append_nil]
      exact sound.quiet (enqueue_quiet now sound.held named) (Nat.le_succ _)
    | some key =>
      simp only [handedTerminal, named, toList_some, map_cons, map_nil]
        at within ⊢
      exact sound.handOver named within
  | flushTimer now =>
    cases stepped
    simp only [handedTerminal, append_nil]
    exact sound.quiet (flushBufferedOutput_quiet now sound.held) (Nat.le_refl _)
  | connect =>
    simp only [step] at stepped
    split at stepped <;> cases stepped
    simp only [handedTerminal, append_nil]
    exact sound.connects
  | pop =>
    simp only [step] at stepped
    split at stepped <;> cases stepped
    rename_i payload rest loop queue
    simp only [handedTerminal, append_nil]
    apply sound.carries
    intro item member
    rw [queue]
    simp only [SendLoop.inFlight, mem_append, mem_cons, not_mem_nil,
      or_false] at member ⊢
    tauto
  | sendSucceeds now =>
    simp only [step] at stepped
    split at stepped <;> cases stepped
    simp only [handedTerminal, append_nil]
    apply sound.carries
    intro item member
    simp only [SendLoop.inFlight, append_nil] at member
    exact mem_append_left _ member
  | sendRaises =>
    simp only [step] at stepped
    split at stepped <;> cases stepped
    rename_i payload loop
    simp only [handedTerminal, append_nil, requeue]
    apply sound.carries
    intro item member
    rw [loop]
    simp only [SendLoop.inFlight, append_nil, mem_append, mem_cons,
      not_mem_nil, or_false] at member ⊢
    tauto
  | disconnect =>
    simp only [step] at stepped
    split at stepped <;> cases stepped
    simp only [handedTerminal, append_nil]
    apply sound.carries
    intro item member
    simp only [SendLoop.inFlight, append_nil] at member
    exact mem_append_left _ member

theorem terminalStep_sound {action : TerminalAction} (sound : Sound state) (within : Within next)
    (taken : terminalStep state action = some next) : Sound next := by
  cases action with
  | client action => exact clientStep_sound sound within taken
  | runDoneAck runUuid =>
    simp only [terminalStep] at taken
    split at taken <;> cases taken
    exact sound.settle (handleRunDoneAck_acknowledges _ runUuid)
  | datasourceTerminalAck taskId =>
    simp only [terminalStep] at taken
    split at taken <;> cases taken
    exact sound.settle (handleDatasourceTerminalAck_acknowledges (sound.named _))

/-- For every unacknowledged terminal frame, the newest one of its Run or task is in the
pending map. A terminal frame in the outbox is unacknowledged, or it was being sent when
it was acknowledged. -/
structure TerminalsKept (state : TerminalSystem) : Prop where
  remembered : ∀ number key, (number, key) ∈ unacknowledged state →
    ∃ newest payload, Newest state newest key ∧
      pendingOf state.system.client key = some payload ∧ payload.carries = [newest]
  queued : ∀ payload ∈ state.system.client.outbox, Accounted state payload

/-- The newest unacknowledged terminal frame of every Run and task is queued, unless a
terminal frame of the same Run or task was queued before and still is. -/
def TerminalsQueued (state next : TerminalSystem) : Prop :=
  ∀ number key, (number, key) ∈ unacknowledged state →
    (∃ newest, Newest state newest key ∧
      ∃ payload ∈ next.system.client.outbox, payload.carries = [newest]) ∨
    ∃ payload ∈ state.system.client.outbox, terminalKey payload.frame = some key ∧
      payload ∈ next.system.client.outbox

theorem Sound.kept (sound : Sound state) : TerminalsKept state where
  remembered := by
    intro number key member
    rcases ne_none_iff_exists'.mp (sound.pending number key member) with ⟨payload, found⟩
    rcases sound.remembered key payload found with ⟨_, newest, alone, last⟩
    exact ⟨newest, payload, last, found, alone⟩
  queued := fun payload member => sound.accounted payload (mem_append_left _ member)

theorem Sound.queuedAgain (sound : Sound state)
    (taken : terminalStep state (.client .connect) = some next) : TerminalsQueued state next := by
  simp only [terminalStep, step] at taken
  split at taken <;> cases taken
  intro number key member
  rcases sound.kept.remembered number key member with ⟨newest, payload, last, found, alone⟩
  by_cases absent : ∀ other ∈ state.system.client.outbox, terminalKey other.frame ≠ some key
  · exact .inl ⟨newest, last, payload,
      onConnected_restores sound.held sound.named found absent, alone⟩
  · simp only [not_forall, not_not] at absent
    rcases absent with ⟨other, queued, named⟩
    refine .inr ⟨other, queued, named, mem_onConnected ?_⟩
    apply mem_restorePendingTraceFrames.mpr
    refine .inl ⟨queued, Bool.eq_false_iff.mpr ?_⟩
    intro trace
    rw [plain_of_isTrace trace] at named
    cases named

/-- In every run with at most `outboxMax` unacknowledged Runs and tasks, the newest
unacknowledged terminal frame of each is remembered in every state, and queued by every
connect unless an older one of its Run or task still is. No acknowledged terminal frame
is in the outbox but those that were being sent at their acknowledgement. -/
theorem terminal_frames_kept (outboxMax outboxSoftLimit : Nat) (actions : List TerminalAction)
    (finish : TerminalSystem)
    (run : Steps terminalStep WithinNext (.new outboxMax outboxSoftLimit) actions finish) :
    TerminalsKept finish ∧
      Steps terminalStep (fun state action => TerminalsKept state ∧
          ∀ next, action = .client .connect → terminalStep state action = some next →
            TerminalsQueued state next)
        (.new outboxMax outboxSoftLimit) actions finish := by
  have preserved : ∀ state action next, Sound state → WithinNext state action →
      terminalStep state action = some next → Sound next :=
    fun state action next sound within taken =>
      terminalStep_sound sound (within.within taken) taken
  have initial := Sound.new outboxMax outboxSoftLimit
  refine ⟨(run.invariant Sound preserved initial).kept, run.implied Sound preserved ?_ initial⟩
  intro state action sound _
  refine ⟨sound.kept, ?_⟩
  rintro next rfl taken
  exact sound.queuedAgain taken

def runDone (runUuid : String) : Frame := { type := "run_done", runUuid := some runUuid }

/-- Two answers of one Run and the end of a task, a send that raises after the
acknowledgement of the task, and a new connection. -/
def answersRun : List TerminalAction :=
  [.client (.enqueue "t0" (runDone "r")),
    .client (.enqueue "t1" { type := "datasource_sync_done", taskId := some "t" }),
    .client .connect, .client .pop, .client (.sendSucceeds "t2"), .client .pop,
    .datasourceTerminalAck "t", .client .sendRaises, .client (.enqueue "t3" (runDone "r")),
    .client .disconnect, .client .connect]

theorem terminal_frames_kept_run :
    ∃ finish, execGuarded terminalStep WithinNext (.new 1 1) answersRun = some finish ∧
      unacknowledged finish = [(0, .run "r"), (2, .run "r")] ∧ TerminalsKept finish := by
  have executed : (execGuarded terminalStep WithinNext (.new 1 1) answersRun).any
      (fun finish => decide (unacknowledged finish = [(0, .run "r"), (2, .run "r")])) = true := by
    decide +kernel
  rcases (any_eq_true _ _).mp executed with ⟨finish, reached, left⟩
  have kept := terminal_frames_kept 1 1 answersRun finish (execGuarded_steps reached)
  exact ⟨finish, reached, of_decide_eq_true left, kept.1⟩

/-- The first answer of a Run is not remembered after the second. -/
def secondAnswer : List TerminalAction :=
  [.client (.enqueue "t0" (runDone "r")), .client (.enqueue "t1" (runDone "r"))]

/-- The second answer is dropped by an overflow while the first is being sent. The first
is queued again, and the connection restores nothing. -/
def droppedAnswer : List TerminalAction :=
  [.client (.enqueue "t0" (runDone "r")), .client .connect, .client .pop,
    .client (.enqueue "t1" (runDone "r")), .client (.enqueue "t2" { type := "heartbeat" }),
    .client .sendRaises, .client .disconnect, .client .connect]

def lateFailure : List TerminalAction :=
  [.client (.enqueue "t0" (runDone "r")), .client .connect, .client .pop, .runDoneAck "r",
    .client .sendRaises]

def queuedNumbers (state : TerminalSystem) : List Nat := carried state.system.client.outbox

/-- An unacknowledged frame is not in the pending map, the newest one is not queued after
a connect, and an acknowledged one is queued again. -/
theorem terminal_frames_not_as_claimed :
    (∃ finish, execGuarded terminalStep WithinNext (.new 2 2) secondAnswer = some finish ∧
      (0, .run "r") ∈ unacknowledged finish ∧
      (pendingOf finish.system.client (.run "r")).map (·.carries) = some [1]) ∧
    (∃ finish, execGuarded terminalStep WithinNext (.new 1 1) droppedAnswer = some finish ∧
      unacknowledged finish = [(0, .run "r"), (1, .run "r")] ∧ 1 ∉ queuedNumbers finish) ∧
    ∃ finish, execGuarded terminalStep WithinNext (.new 2 2) lateFailure = some finish ∧
      finish.enqueued = [(0, .run "r")] ∧ unacknowledged finish = [] ∧
      0 ∈ queuedNumbers finish := by
  refine ⟨?_, ?_, ?_⟩
  · have executed : (execGuarded terminalStep WithinNext (.new 2 2) secondAnswer).any
        (fun finish => decide ((0, .run "r") ∈ unacknowledged finish ∧
          (pendingOf finish.system.client (.run "r")).map (·.carries) = some [1])) = true := by
      decide +kernel
    rcases (any_eq_true _ _).mp executed with ⟨finish, reached, forgotten⟩
    exact ⟨finish, reached, of_decide_eq_true forgotten⟩
  · have executed : (execGuarded terminalStep WithinNext (.new 1 1) droppedAnswer).any
        (fun finish => decide (unacknowledged finish = [(0, .run "r"), (1, .run "r")] ∧
          1 ∉ queuedNumbers finish)) = true := by
      decide +kernel
    rcases (any_eq_true _ _).mp executed with ⟨finish, reached, dropped⟩
    exact ⟨finish, reached, of_decide_eq_true dropped⟩
  · have executed : (execGuarded terminalStep WithinNext (.new 2 2) lateFailure).any
        (fun finish => decide (finish.enqueued = [(0, .run "r")] ∧ unacknowledged finish = [] ∧
          0 ∈ queuedNumbers finish)) = true := by
      decide +kernel
    rcases (any_eq_true _ _).mp executed with ⟨finish, reached, again⟩
    exact ⟨finish, reached, of_decide_eq_true again⟩

end SourceLens.Outbox
