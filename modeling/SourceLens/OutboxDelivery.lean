import SourceLens.OutboxRestore
import SourceLens.Library.Transition

/-! No frame is lost by the outbox over its connections: the send loop, its
failures, the supervisor that cancels it, and the restore steps. -/

namespace SourceLens.Outbox

open Transition List

variable {system next : System} {number : Nat} {payload : Payload}

def carried (payloads : List Payload) : List Nat := payloads.flatMap (·.carries)

def SendLoop.inFlight : SendLoop → List Payload
  | .awaiting payload => [payload]
  | _ => []

/-- The client with its connection. `sent` are the payloads of completed
`websocket.send` calls, `handed` counts the calls of `_enqueue`. -/
structure System where
  client : Client
  connected : Bool
  sendLoop : SendLoop
  sent : List Payload
  handed : Nat

inductive Action
  | enqueue (now : String) (frame : Frame)
  | flushTimer (now : String)
  | connect
  | pop
  | sendSucceeds (now : String)
  | sendRaises
  /-- Another loop of the connection ended: the supervisor cancels the send loop. -/
  | disconnect

def System.new (outboxMax outboxSoftLimit : Nat) : System :=
  ⟨.new outboxMax outboxSoftLimit, false, .stopped, [], 0⟩

def step (system : System) : Action → Option System
  | .enqueue now frame =>
    some { system with
      client := enqueue now system.client ⟨[system.handed], frame⟩
      handed := system.handed + 1 }
  | .flushTimer now => some { system with client := flushBufferedOutput now system.client }
  | .connect =>
    if system.connected then none
    else some { system with
      client := onConnected system.client
      connected := true
      sendLoop := .ready }
  | .pop =>
    match system.sendLoop, system.client.outbox with
    | .ready, payload :: rest =>
      some { system with
        client := { system.client with outbox := rest }
        sendLoop := .awaiting payload }
    | _, _ => none
  | .sendSucceeds now =>
    match system.sendLoop with
    | .awaiting payload =>
      some { system with sendLoop := .ready, sent := sentFrame now payload :: system.sent }
    | _ => none
  | .sendRaises =>
    match system.sendLoop with
    | .awaiting payload =>
      some { system with client := requeue system.client payload, sendLoop := .stopped }
    | _ => none
  | .disconnect =>
    if system.connected then some { system with connected := false, sendLoop := .stopped }
    else none

def Client.kept (client : Client) : List Nat :=
  carried (client.bufferedOutput.toList ++ client.outbox)

def System.kept (system : System) : List Nat :=
  carried system.sent ++ carried system.sendLoop.inFlight ++ system.client.kept

def Lossless (system : System) : Prop := ∀ number < system.handed, number ∈ system.kept

/-- The outbox stays below its limit and no progress frame is coalesced. -/
def undisturbed (system : System) (action : Action) : Bool :=
  match step system action with
  | some next =>
    next.client.outbox.length < next.client.outboxMax &&
      next.client.outboxCoalesced == system.client.outboxCoalesced
  | none => true

def sameSegment (left right : Payload) : Bool :=
  right.frame.isTrace && right.frame.run == left.frame.run &&
    right.frame.sequences == left.frame.sequences

/-- A queued trace frame names its run, has events, and is the only one with
these sequences; otherwise it has been sent before. -/
def restorable (sent : List Nat) : List Payload → Bool
  | [] => true
  | payload :: rest =>
    (!payload.frame.isTrace ||
      (payload.frame.run != "" && !payload.frame.events.isEmpty &&
        rest.all fun other => !sameSegment payload other) ||
      payload.carries.all fun number => decide (number ∈ sent)) &&
    restorable sent rest

/-- The cancelled send loop has no frame in flight that is not held elsewhere,
and a new connection finds a restorable outbox. -/
def heldAcross (system : System) : Action → Bool
  | .disconnect =>
    (carried system.sendLoop.inFlight).all fun number =>
      decide (number ∈ carried system.sent ++ system.client.kept)
  | .connect => restorable (carried system.sent) system.client.outbox
  | _ => true

def Undisturbed (system : System) (action : Action) : Prop := undisturbed system action = true

def HeldAcross (system : System) (action : Action) : Prop :=
  undisturbed system action = true ∧ heldAcross system action = true

instance (system : System) (action : Action) : Decidable (Undisturbed system action) :=
  inferInstanceAs (Decidable (_ = _))

instance (system : System) (action : Action) : Decidable (HeldAcross system action) :=
  inferInstanceAs (Decidable (_ ∧ _))

theorem mem_carried {payloads : List Payload} :
    number ∈ carried payloads ↔ ∃ payload ∈ payloads, number ∈ payload.carries :=
  mem_flatMap

@[simp] theorem carried_nil : carried [] = [] := rfl

@[simp] theorem carried_cons (payload : Payload) (rest : List Payload) :
    carried (payload :: rest) = payload.carries ++ carried rest := rfl

@[simp] theorem carried_append (front back : List Payload) :
    carried (front ++ back) = carried front ++ carried back :=
  flatMap_append

/-- What an operation that hands over `numbers` does to the client. It keeps
everything unless it coalesces a frame or fills the outbox. -/
structure Keeps (client next : Client) (numbers : List Nat) : Prop where
  limit : next.outboxMax = client.outboxMax
  coalesced : client.outboxCoalesced ≤ next.outboxCoalesced
  grows : client.outbox.length ≤ next.outbox.length ∨ next.outboxMax ≤ next.outbox.length
  kept : next.outboxCoalesced = client.outboxCoalesced → next.outbox.length < next.outboxMax →
    ∀ number, number ∈ client.kept ∨ number ∈ numbers → number ∈ next.kept

variable (now : String) (client : Client)

theorem Keeps.refl : Keeps client client [] :=
  ⟨rfl, Nat.le_refl _, .inl (Nat.le_refl _), fun _ _ number held => by simpa using held⟩

theorem Keeps.trans {first second third : Client} {early late : List Nat}
    (one : Keeps first second early) (two : Keeps second third late) :
    Keeps first third (early ++ late) where
  limit := two.limit.trans one.limit
  coalesced := one.coalesced.trans two.coalesced
  grows := by
    rcases two.grows with longer | full
    · rcases one.grows with first | full
      · exact .inl (first.trans longer)
      · exact .inr (two.limit ▸ full.trans longer)
    · exact .inr full
  kept := by
    intro same room number held
    have below : second.outbox.length < second.outboxMax := by
      rcases two.grows with longer | full
      · exact two.limit ▸ longer.trans_lt room
      · exact absurd room (Nat.not_lt.mpr full)
    have firstSame : second.outboxCoalesced = first.outboxCoalesced := by
      have := one.coalesced
      have := two.coalesced
      omega
    apply two.kept (same.trans firstSame.symm) room
    rw [mem_append] at held
    rcases held with held | held | held
    · exact .inl (one.kept firstSame below number (.inl held))
    · exact .inl (one.kept firstSame below number (.inr held))
    · exact .inr held

theorem appendFrame_keeps (payload : Payload) :
    Keeps client (appendFrame client payload) payload.carries where
  limit := rfl
  coalesced := Nat.le_refl _
  grows := by
    simp only [appendFrame, length_append, length_drop, length_singleton]
    omega
  kept := by
    intro _ room number held
    simp only [appendFrame, length_append, length_drop, length_singleton] at room
    have whole : client.outbox.length + 1 - client.outboxMax = 0 := by omega
    simp only [Client.kept, appendFrame, whole, drop_zero, carried_append, carried_cons,
      carried_nil, append_nil, mem_append] at held ⊢
    tauto

theorem enqueueFrame_keeps (payload : Payload) :
    Keeps client (enqueueFrame now client payload) payload.carries := by
  have same := notePending_queues now client payload
  have carries := notePending_carries now client payload
  simp only [enqueueFrame]
  split
  · rename_i next coalesced
    obtain ⟨-, index, -, rfl⟩ := coalesceProgressFrame_some coalesced
    refine ⟨same.limit, ?_, .inl ?_, ?_⟩
    · exact same.coalesced ▸ Nat.le_succ _
    · rw [length_set, same.outbox]
    · intro count
      exact absurd (count.trans same.coalesced.symm) (Nat.succ_ne_self _)
  · have appended := appendFrame_keeps (notePending now client payload).1
      (notePending now client payload).2
    rw [carries] at appended
    refine ⟨appended.limit.trans same.limit, same.coalesced ▸ appended.coalesced,
      same.outbox ▸ appended.grows, ?_⟩
    have kept : (notePending now client payload).1.kept = client.kept := by
      rw [Client.kept, Client.kept, same.outbox, same.buffered]
    rw [← kept, ← same.coalesced]
    exact appended.kept

theorem flush_keeps :
    Keeps client (flushBufferedOutput now client) [] := by
  unfold flushBufferedOutput
  split
  · exact .refl client
  · rename_i payload buffered
    have flushed := enqueueFrame_keeps now { client with bufferedOutput := none } payload
    refine ⟨flushed.limit, flushed.coalesced, flushed.grows, ?_⟩
    intro same room number held
    apply flushed.kept same room
    simpa [Client.kept, buffered, or_comm] using held

theorem flushOtherRun_keeps (payload : Payload) :
    Keeps client (flushOtherRun now client payload) [] := by
  unfold flushOtherRun
  split
  · split
    · exact .refl client
    · exact flush_keeps now client
  · exact .refl client

theorem bufferDelta_keeps (payload : Payload) :
    Keeps client (bufferDelta client payload) payload.carries := by
  refine ⟨rfl, Nat.le_refl _, .inl (Nat.le_refl _), ?_⟩
  intro _ _ number held
  cases buffered : client.bufferedOutput with
  | none => simpa [Client.kept, bufferDelta, buffered, or_comm] using held
  | some delta =>
    simp only [Client.kept, bufferDelta, buffered, Option.toList_some, carried_append,
      carried_cons, carried_nil, append_nil, mem_append, mergeDelta] at held ⊢
    tauto

theorem enqueue_keeps (payload : Payload) :
    Keeps client (enqueue now client payload) payload.carries := by
  have buffered := (flushOtherRun_keeps now client payload).trans (bufferDelta_keeps _ payload)
  rw [nil_append] at buffered
  simp only [enqueue]
  split
  · split
    · simpa using buffered.trans (flush_keeps now _)
    · exact buffered
  · simpa using (flush_keeps now client).trans (enqueueFrame_keeps now _ payload)

theorem restorable_kept {sent : List Nat} {client : Client} (front outbox : List Payload)
    (queued : client.outbox = front ++ outbox) (accepted : restorable sent outbox = true) :
    ∀ number ∈ carried outbox, number ∈ sent ∨ number ∈ carried (onConnected client).outbox := by
  induction outbox generalizing front with
  | nil =>
    intro number member
    cases member
  | cons payload rest ih =>
    simp only [restorable, Bool.and_eq_true] at accepted
    obtain ⟨here, later⟩ := accepted
    intro number member
    rw [carried_cons, mem_append] at member
    rcases member with own | member
    · have restored : payload ∈ (restorePendingTraceFrames client).outbox →
          number ∈ carried (onConnected client).outbox :=
        fun inside => mem_carried.mpr ⟨payload, mem_onConnected inside, own⟩
      simp only [Bool.or_eq_true, Bool.not_eq_true', Bool.and_eq_true, bne_iff_ne,
        isEmpty_eq_false_iff, all_eq_true, decide_eq_true_eq] at here
      rcases here with (plain | ⟨⟨named, filled⟩, single⟩) | old
      · refine .inr (restored (mem_restorePendingTraceFrames.mpr (.inl ⟨?_, plain⟩)))
        rw [queued]
        exact mem_append_right front (mem_cons_self ..)
      · cases trace : payload.frame.isTrace with
        | false =>
          refine .inr (restored (mem_restorePendingTraceFrames.mpr (.inl ⟨?_, trace⟩)))
          rw [queued]
          exact mem_append_right front (mem_cons_self ..)
        | true =>
          refine .inr (restored (restore_last queued ⟨trace, named, filled⟩ ?_))
          intro other inside otherTrace same
          have different := single other inside
          simp only [segmentKey, Prod.mk.injEq] at same
          simp [sameSegment, otherTrace, same.1, same.2] at different
      · exact .inl (old number own)
    · exact ih (front ++ [payload]) (by rw [queued, append_assoc]; rfl) later number member

theorem connect_kept (accepted : restorable (carried system.sent) system.client.outbox = true) :
    ∀ number ∈ system.client.kept,
      number ∈ carried system.sent ∨ number ∈ (onConnected system.client).kept := by
  intro number member
  rw [Client.kept, carried_append, mem_append] at member
  rw [Client.kept, carried_append, mem_append]
  rcases member with buffered | queued
  · exact .inr (.inl buffered)
  · rcases restorable_kept [] system.client.outbox rfl accepted number queued with sent | restored
    · exact .inl sent
    · exact .inr (.inr restored)

theorem requeue_kept (payload : Payload) (number : Nat) :
    number ∈ (requeue client payload).kept ↔ number ∈ payload.carries ∨ number ∈ client.kept := by
  simp only [Client.kept, requeue, carried_append, carried_cons, mem_append]
  tauto

theorem sentFrame_carries (payload : Payload) :
    (sentFrame now payload).carries = payload.carries := by
  unfold sentFrame
  split <;> rfl

theorem mem_kept : number ∈ system.kept ↔ number ∈ carried system.sent ∨
      number ∈ carried system.sendLoop.inFlight ∨ number ∈ system.client.kept := by
  simp only [System.kept, mem_append, or_assoc]

theorem Lossless.moves (lossless : Lossless system) (handed : next.handed = system.handed)
    (kept : ∀ number ∈ system.kept, number ∈ next.kept) : Lossless next := by
  intro number earlier
  exact kept number (lossless number (handed ▸ earlier))

theorem client_kept {client : Client} (held : number ∈ system.kept)
    (kept : number ∈ system.client.kept → number ∈ client.kept) :
    number ∈ { system with client := client }.kept := by
  rw [mem_kept] at held ⊢
  rcases held with sent | flight | queued
  · exact .inl sent
  · exact .inr (.inl flight)
  · exact .inr (.inr (kept queued))

theorem enqueue_lossless {now : String} {frame : Frame} (lossless : Lossless system)
    (kept : ∀ number, number ∈ system.client.kept ∨ number ∈ [system.handed] →
      number ∈ (enqueue now system.client ⟨[system.handed], frame⟩).kept) : Lossless { system with
      client := enqueue now system.client ⟨[system.handed], frame⟩
      handed := system.handed + 1 } := by
  intro number handed
  rcases Nat.lt_succ_iff_lt_or_eq.mp handed with earlier | rfl
  · exact client_kept (lossless number earlier) fun queued => kept number (.inl queued)
  · rw [mem_kept]
    exact .inr (.inr (kept _ (.inr (mem_singleton_self _))))

theorem connect_lossless (idle : system.sendLoop = .stopped) (lossless : Lossless system)
    (accepted : restorable (carried system.sent) system.client.outbox = true) :
    Lossless { system with
      client := onConnected system.client
      connected := true
      sendLoop := .ready } := by
  refine lossless.moves rfl ?_
  intro number held
  rw [mem_kept] at held ⊢
  rcases held with sent | flight | kept
  · exact .inl sent
  · rw [idle] at flight
    cases flight
  · rcases connect_kept accepted number kept with sent | restored
    · exact .inl sent
    · exact .inr (.inr restored)

theorem pop_lossless {rest : List Payload} (lossless : Lossless system)
    (loop : system.sendLoop = .ready) (queue : system.client.outbox = payload :: rest) :
    Lossless { system with
      client := { system.client with outbox := rest }
      sendLoop := .awaiting payload } := by
  refine lossless.moves rfl ?_
  intro number held
  rw [mem_kept, loop] at held
  simp only [Client.kept, queue, carried_append, carried_cons, mem_append,
    SendLoop.inFlight, carried_nil, not_mem_nil, false_or] at held
  simp only [mem_kept, Client.kept, SendLoop.inFlight, carried_append, carried_cons,
    carried_nil, mem_append, append_nil]
  tauto

theorem send_lossless (lossless : Lossless system)
    (loop : system.sendLoop = .awaiting payload) : Lossless { system with
      sendLoop := .ready
      sent := sentFrame now payload :: system.sent } := by
  refine lossless.moves rfl ?_
  intro number held
  rw [mem_kept, loop] at held
  simp only [SendLoop.inFlight, carried_cons, carried_nil, append_nil] at held
  simp only [mem_kept, SendLoop.inFlight, carried_cons, sentFrame_carries, mem_append,
    carried_nil, not_mem_nil, false_or]
  tauto

theorem requeue_lossless (lossless : Lossless system) (loop : system.sendLoop = .awaiting payload) :
    Lossless { system with
      client := requeue system.client payload
      sendLoop := .stopped } := by
  refine lossless.moves rfl ?_
  intro number held
  rw [mem_kept, loop] at held
  simp only [SendLoop.inFlight, carried_cons, carried_nil, append_nil] at held
  simp only [mem_kept, SendLoop.inFlight, requeue_kept, carried_nil, not_mem_nil,
    false_or]
  exact held

theorem disconnect_lossless (lossless : Lossless system)
    (across : ∀ number ∈ carried system.sendLoop.inFlight,
      number ∈ carried system.sent ++ system.client.kept) :
    Lossless { system with connected := false, sendLoop := .stopped } := by
  refine lossless.moves rfl ?_
  intro number held
  rw [mem_kept] at held ⊢
  rcases held with sent | flight | kept
  · exact .inl sent
  · rcases mem_append.mp (across number flight) with sent | kept
    · exact .inl sent
    · exact .inr (.inr kept)
  · exact .inr (.inr kept)

theorem step_lossless {action : Action}
    (stopped : system.connected = false → system.sendLoop = .stopped) (lossless : Lossless system)
    (held : HeldAcross system action) (taken : step system action = some next) : Lossless next := by
  obtain ⟨calm, across⟩ := held
  simp only [undisturbed, taken, Bool.and_eq_true, decide_eq_true_eq, beq_iff_eq] at calm
  obtain ⟨room, count⟩ := calm
  cases action with
  | enqueue now frame =>
    cases taken
    exact enqueue_lossless lossless
      ((enqueue_keeps now system.client ⟨[system.handed], frame⟩).kept count room)
  | flushTimer now =>
    cases taken
    refine lossless.moves rfl ?_
    intro number held
    exact client_kept held fun queued =>
      (flush_keeps now system.client).kept count room number (.inl queued)
  | connect =>
    simp only [step] at taken
    split at taken
    · cases taken
    · rename_i offline
      cases taken
      exact connect_lossless (stopped (Bool.eq_false_iff.mpr offline)) lossless across
  | pop =>
    simp only [step] at taken
    split at taken
    · rename_i payload rest loop queue
      cases taken
      exact pop_lossless lossless loop queue
    · cases taken
  | sendSucceeds now =>
    simp only [step] at taken
    split at taken
    · rename_i payload loop
      cases taken
      exact send_lossless now lossless loop
    · cases taken
  | sendRaises =>
    simp only [step] at taken
    split at taken
    · rename_i payload loop
      cases taken
      exact requeue_lossless lossless loop
    · cases taken
  | disconnect =>
    simp only [step] at taken
    split at taken
    · cases taken
      apply disconnect_lossless lossless
      intro number flight
      exact of_decide_eq_true (all_eq_true.mp across number flight)
    · cases taken

theorem step_stopped {action : Action}
    (stopped : system.connected = false → system.sendLoop = .stopped)
    (taken : step system action = some next) :
    next.connected = false → next.sendLoop = .stopped := by
  cases action with
  | enqueue | flushTimer =>
    cases taken
    exact stopped
  | connect | disconnect =>
    simp only [step] at taken
    split at taken <;> cases taken
    simp
  | pop | sendSucceeds | sendRaises =>
    simp only [step] at taken
    split at taken <;> cases taken
    intro offline
    have := stopped offline
    simp_all

/-- Over every run in which no send loop is cancelled with a frame in flight that
is held nowhere else, and every new connection finds a restorable outbox, each
frame handed over is sent, buffered, in flight or queued. -/
theorem outbox_lossless (outboxMax outboxSoftLimit : Nat) (actions : List Action)
    (finish : System)
    (run : Steps step HeldAcross (.new outboxMax outboxSoftLimit) actions finish) :
    Lossless finish := by
  have invariant := run.invariant
    (fun system => (system.connected = false → system.sendLoop = .stopped) ∧ Lossless system)
    (fun system action next holds held taken =>
      ⟨step_stopped holds.1 taken, step_lossless holds.1 holds.2 held taken⟩)
    ⟨fun _ => rfl, fun number handed => absurd handed (Nat.not_lt_zero number)⟩
  exact invariant.2

/-- A trace frame and a heartbeat, a send that raises, a lost connection with an
idle send loop, and the delivery of the restored outbox. -/
def lossRun : List Action :=
  [.connect, .enqueue "t0" { type := "run_trace_events", runUuid := some "r", events :=
      [.obj [("sequence", .int 1)]] },
    .enqueue "t1" { type := "heartbeat" }, .pop, .sendRaises, .disconnect, .connect, .pop,
    .sendSucceeds "t2", .pop, .sendSucceeds "t3", .disconnect]

theorem outbox_lossless_run :
    ∃ finish, execGuarded step HeldAcross (.new 10000 1000) lossRun = some finish ∧
      finish.handed = 2 ∧ Lossless finish := by
  have executed : (execGuarded step HeldAcross (.new 10000 1000) lossRun).any
      (fun finish => finish.handed == 2) = true := by decide
  obtain ⟨finish, reached, handed⟩ := (Option.any_eq_true _ _).mp executed
  exact ⟨finish, reached, by simpa using handed,
    outbox_lossless 10000 1000 lossRun finish (execGuarded_steps reached)⟩

/-- A frame popped by a send loop that is cancelled while it awaits the send is
in no queue of the next connection. -/
theorem cancelled_send_loses_frame :
    ¬ ∀ actions finish, Steps step Undisturbed (.new 10000 1000) actions finish →
      Lossless finish := by
  intro always
  have executed : (execGuarded step Undisturbed (.new 10000 1000)
      [.connect, .enqueue "t0" { type := "heartbeat" }, .pop, .disconnect, .connect]).any
      (fun finish => decide (0 < finish.handed ∧ 0 ∉ finish.kept)) = true := by decide
  obtain ⟨finish, reached, lost⟩ := (Option.any_eq_true _ _).mp executed
  obtain ⟨handed, missing⟩ := of_decide_eq_true lost
  exact missing (always _ finish (execGuarded_steps reached) 0 handed)

end SourceLens.Outbox
