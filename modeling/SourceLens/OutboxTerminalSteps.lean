import SourceLens.OutboxTerminal

/-! What each operation of the client does to the terminal frames: enqueueing,
acknowledging and connecting. -/

namespace SourceLens.Outbox

open List

variable {client next : Client} {payload : Payload}

def Plain (payload : Payload) : Prop := terminalKey payload.frame = none

theorem plain_type (noRun : payload.frame.type ≠ "run_done")
    (noTask : payload.frame.type ∉ datasourceTerminalTypes) : Plain payload :=
  terminalKey_none (fun run => noRun run.1) fun task => noTask task.1

theorem plain_of_isTrace (trace : payload.frame.isTrace = true) : Plain payload := by
  have type : payload.frame.type = "run_trace_events" := by simpa [Frame.isTrace] using trace
  apply plain_type
  · rw [type]
    decide
  · rw [type]
    decide

theorem plain_of_isDelta (delta : isDelta payload.frame = true) : Plain payload := by
  have type : payload.frame.type = "run_output" := by
    simp only [isDelta, Bool.and_eq_true, decide_eq_true_eq] at delta
    exact delta.1.1.1.1
  apply plain_type
  · rw [type]
    decide
  · rw [type]
    decide

/-- The buffered output and the remembered trace frames conclude nothing. -/
structure PlainHeld (client : Client) : Prop where
  buffered : ∀ payload, client.bufferedOutput = some payload → Plain payload
  traces : ∀ entry ∈ client.pendingTraceFrames.entries, Plain entry.2

structure Quiet (client next : Client) : Prop where
  limit : next.outboxMax = client.outboxMax
  terminal : next.pendingTerminalFrames = client.pendingTerminalFrames
  datasource : next.pendingDatasourceTerminalFrames = client.pendingDatasourceTerminalFrames
  outbox : ∀ payload ∈ next.outbox, payload ∈ client.outbox ∨ Plain payload
  held : PlainHeld client → PlainHeld next

theorem Quiet.refl (client : Client) : Quiet client client :=
  ⟨rfl, rfl, rfl, fun _ queued => .inl queued, id⟩

theorem Quiet.trans {first second third : Client} (one : Quiet first second)
    (two : Quiet second third) : Quiet first third where
  limit := two.limit.trans one.limit
  terminal := two.terminal.trans one.terminal
  datasource := two.datasource.trans one.datasource
  outbox := by
    intro payload queued
    rcases two.outbox payload queued with before | plain
    · exact one.outbox payload before
    · exact .inr plain
  held := fun held => two.held (one.held held)

theorem Quiet.pendingOf_eq (quiet : Quiet client next) (key : TerminalKey) :
    pendingOf next key = pendingOf client key := by
  cases key with
  | run runUuid => exact congrArg (·.get? runUuid) quiet.terminal
  | task taskId => exact congrArg (·.get? taskId) quiet.datasource

theorem notePendingTrace_traces (held : ∀ entry ∈ client.pendingTraceFrames.entries, Plain entry.2) :
    ∀ entry ∈ (notePendingTrace client payload).pendingTraceFrames.entries, Plain entry.2 := by
  unfold notePendingTrace
  split
  · rename_i trace
    intro entry member
    replace member := OrderedDict.trim_subset member
    revert entry
    generalize client.pendingTraceFrames = pending at held
    induction payload.frame.events generalizing pending with
    | nil => exact held
    | cons event rest ih =>
      apply ih
      intro entry member
      cases numbered : eventSequence event with
      | none =>
        simp only [numbered] at member
        exact held entry member
      | some sequence =>
        simp only [numbered, OrderedDict.mem_moveToEnd, OrderedDict.mem_set] at member
        rcases member with rfl | ⟨old, -⟩
        · exact plain_of_isTrace trace
        · exact held entry old
  · exact held

variable (now : String)

theorem notePendingTerminal_traces (client : Client) (payload : Payload) :
    (notePendingTerminal now client payload).1.pendingTraceFrames = client.pendingTraceFrames := by
  unfold notePendingTerminal
  split <;> rfl

theorem notePendingDatasourceTerminal_traces (client : Client) (payload : Payload) :
    (notePendingDatasourceTerminal client payload).pendingTraceFrames =
      client.pendingTraceFrames := by
  unfold notePendingDatasourceTerminal
  split <;> rfl

theorem notePending_held (held : PlainHeld client) :
    PlainHeld (notePending now client payload).1 := by
  have traces : ∀ entry ∈ (notePendingTrace client payload).pendingTraceFrames.entries,
      Plain entry.2 := notePendingTrace_traces held.traces
  have buffered := (notePending_queues now client payload).buffered
  have same : (notePending now client payload).1.pendingTraceFrames =
      (notePendingTrace client payload).pendingTraceFrames :=
    (notePendingDatasourceTerminal_traces _ _).trans (notePendingTerminal_traces now _ payload)
  exact ⟨buffered ▸ held.buffered, same ▸ traces⟩

/-- What `_enqueue_frame` does, seen from the terminal frames. -/
structure Queues (client next : Client) (payload : Payload) : Prop where
  limit : next.outboxMax = client.outboxMax
  notes : Notes client next payload
  outbox : ∀ item ∈ next.outbox, item ∈ client.outbox ∨
    (item.carries = payload.carries ∧ terminalKey item.frame = terminalKey payload.frame)
  held : PlainHeld client → PlainHeld next

theorem Notes.moves {noted : Client} (notes : Notes client noted payload)
    (terminal : next.pendingTerminalFrames = noted.pendingTerminalFrames)
    (datasource : next.pendingDatasourceTerminalFrames = noted.pendingDatasourceTerminalFrames) :
    Notes client next payload := by
  cases notes with
  | other key before other => exact .other key (terminal.trans before) (datasource.trans other)
  | run runUuid stamped key carries named before other =>
    exact .run runUuid stamped key carries named (terminal.trans before) (datasource.trans other)
  | task taskId key before other =>
    exact .task taskId key (terminal.trans before) (datasource.trans other)

theorem enqueueFrame_queues (client : Client) (payload : Payload) :
    Queues client (enqueueFrame now client payload) payload := by
  rcases notePending_notes now client payload with ⟨notes, named⟩
  have queues := notePending_queues now client payload
  have carries := notePending_carries now client payload
  have held : PlainHeld client → PlainHeld (notePending now client payload).1 :=
    notePending_held now
  unfold enqueueFrame
  generalize notePending now client payload = noted at notes named queues carries held
  dsimp only
  split
  · rename_i next coalesced
    rcases coalesceProgressFrame_some coalesced with ⟨_, index, _, rfl⟩
    refine ⟨queues.limit, notes.moves rfl rfl, ?_, fun plain =>
      ⟨(held plain).buffered, (held plain).traces⟩⟩
    intro item queued
    rcases mem_or_eq_of_mem_set queued with old | rfl
    · exact .inl (queues.outbox ▸ old)
    · exact .inr ⟨carries, named⟩
  · refine ⟨queues.limit, notes.moves rfl rfl, ?_, fun plain =>
      ⟨(held plain).buffered, (held plain).traces⟩⟩
    intro item queued
    simp only [appendFrame, mem_append, mem_singleton] at queued
    rcases queued with old | rfl
    · exact .inl (queues.outbox ▸ mem_of_mem_drop old)
    · exact .inr ⟨carries, named⟩

theorem Queues.quiet (queues : Queues client next payload) (plain : Plain payload) :
    Quiet client next := by
  cases queues.notes with
  | other key terminal datasource =>
    refine ⟨queues.limit, terminal, datasource, ?_, queues.held⟩
    intro item queued
    rcases queues.outbox item queued with old | ⟨_, named⟩
    · exact .inl old
    · exact .inr (named.trans plain)
  | run runUuid stamped key =>
    rw [plain] at key
    cases key
  | task taskId key =>
    rw [plain] at key
    cases key

theorem flushBufferedOutput_quiet (held : PlainHeld client) :
    Quiet client (flushBufferedOutput now client) := by
  unfold flushBufferedOutput
  split
  · exact .refl client
  · rename_i payload buffered
    have emptied : Quiet client { client with bufferedOutput := none } :=
      ⟨rfl, rfl, rfl, fun _ queued => .inl queued, fun held => ⟨by rintro _ ⟨⟩, held.traces⟩⟩
    exact emptied.trans
      ((enqueueFrame_queues now _ payload).quiet (held.buffered payload buffered))

theorem flushOtherRun_quiet (payload : Payload) (held : PlainHeld client) :
    Quiet client (flushOtherRun now client payload) := by
  unfold flushOtherRun
  split
  · split
    · exact .refl client
    · exact flushBufferedOutput_quiet now held
  · exact .refl client

theorem bufferDelta_quiet (delta : isDelta payload.frame = true) :
    Quiet client (bufferDelta client payload) := by
  refine ⟨rfl, rfl, rfl, fun _ queued => .inl queued, fun held => ⟨?_, held.traces⟩⟩
  intro buffered present
  simp only [bufferDelta, Option.some.injEq] at present
  split at present
  · rename_i before found
    rw [← present]
    exact held.buffered before found
  · exact present ▸ plain_of_isDelta delta

theorem enqueue_quiet (held : PlainHeld client) (plain : Plain payload) :
    Quiet client (enqueue now client payload) := by
  simp only [enqueue]
  split
  · rename_i delta
    have flushed := flushOtherRun_quiet now payload held
    have buffered := flushed.trans (bufferDelta_quiet delta)
    split
    · exact buffered.trans (flushBufferedOutput_quiet now (buffered.held held))
    · exact buffered
  · exact (flushBufferedOutput_quiet now held).trans ((enqueueFrame_queues now _ payload).quiet plain)

theorem enqueue_terminal {key : TerminalKey} (held : PlainHeld client)
    (named : terminalKey payload.frame = some key) :
    ∃ flushed, Quiet client flushed ∧ Queues flushed (enqueue now client payload) payload := by
  have other : ¬ isDelta payload.frame = true := by
    intro delta
    rw [plain_of_isDelta delta] at named
    cases named
  refine ⟨flushBufferedOutput now client, flushBufferedOutput_quiet now held, ?_⟩
  rw [enqueue, if_neg other]
  exact enqueueFrame_queues now _ payload

theorem terminalKey_eq_run {frame : Frame} {runUuid : String} :
    terminalKey frame = some (.run runUuid) ↔
      frame.type = "run_done" ∧ frame.run = runUuid ∧ runUuid ≠ "" := by
  unfold terminalKey
  split
  · rename_i type
    split
    · rename_i unnamed
      simp [type, unnamed, eq_comm]
    · rename_i named
      simp only [type, Option.some.injEq, TerminalKey.run.injEq, true_and]
      exact ⟨fun same => ⟨same, same ▸ named⟩, fun both => both.1⟩
  · rename_i type
    simp only [type, false_and, iff_false]
    split <;> simp

theorem terminalKey_eq_task {frame : Frame} {taskId : String} :
    terminalKey frame = some (.task taskId) ↔
      frame.type ∈ datasourceTerminalTypes ∧ frame.task = taskId ∧ taskId ≠ "" := by
  constructor
  · intro key
    by_cases task : frame.type ∈ datasourceTerminalTypes ∧ frame.task ≠ ""
    · rw [terminalKey_task task.1 task.2, Option.some.injEq, TerminalKey.task.injEq] at key
      exact ⟨task.1, key, key ▸ task.2⟩
    · rw [terminalKey, if_neg task] at key
      split at key
      · split at key <;> cases key
      · cases key
  · intro named
    rcases named with ⟨type, rfl, named⟩
    exact terminalKey_task type named

/-- What an acknowledgement of the key does. Only where no frame of it was
remembered may one stay queued. -/
structure Acknowledges (client next : Client) (key : TerminalKey) : Prop where
  limit : next.outboxMax = client.outboxMax
  pending : ∀ other, pendingOf next other = if other = key then none else pendingOf client other
  outbox : ∀ payload ∈ next.outbox, payload ∈ client.outbox ∧
    (terminalKey payload.frame = some key → pendingOf client key = none)
  held : PlainHeld client → PlainHeld next

theorem handleRunDoneAck_acknowledges (client : Client) (runUuid : String) :
    Acknowledges client (handleRunDoneAck client runUuid) (.run runUuid) where
  limit := rfl
  pending := by
    intro other
    cases other with
    | run otherUuid => simp [pendingOf, handleRunDoneAck, OrderedDict.get?_pop]
    | task taskId => simp [pendingOf, handleRunDoneAck]
  outbox := by
    intro payload queued
    simp only [handleRunDoneAck, mem_filter, decide_eq_true_eq] at queued
    refine ⟨queued.1, ?_⟩
    intro key
    rw [terminalKey_eq_run] at key
    exact absurd ⟨key.1, key.2.1⟩ queued.2
  held := fun held => ⟨held.buffered, held.traces⟩

theorem handleDatasourceTerminalAck_acknowledges {taskId : String}
    (named : ∀ payload, pendingOf client (.task taskId) = some payload →
      terminalKey payload.frame = some (.task taskId)) :
    Acknowledges client (handleDatasourceTerminalAck client taskId) (.task taskId) := by
  unfold handleDatasourceTerminalAck
  cases found : client.pendingDatasourceTerminalFrames.get? taskId with
  | none =>
    dsimp only
    refine ⟨rfl, ?_, fun payload queued => ⟨queued, fun _ => found⟩, id⟩
    intro other
    split
    · rename_i same
      rw [same]
      exact found
    · rfl
  | some payload =>
    rcases terminalKey_eq_task.mp (named payload found) with ⟨type, task, filled⟩
    dsimp only
    unfold acknowledgeDatasourceTerminalFrame
    rw [task, if_pos ⟨type, filled, found⟩]
    refine ⟨rfl, ?_, ?_, fun held => ⟨held.buffered, held.traces⟩⟩
    · intro other
      cases other with
      | run runUuid => simp [pendingOf]
      | task otherId => simp [pendingOf, OrderedDict.get?_pop]
    · intro item queued
      simp only [mem_filter, decide_eq_true_eq] at queued
      refine ⟨queued.1, ?_⟩
      intro key
      rw [terminalKey_eq_task] at key
      exact absurd ⟨key.1, key.2.1⟩ queued.2

theorem collectQueued_plain {collected : TraceFrames}
    (held : ∀ entry ∈ collected.frames.entries, Plain entry.2) :
    ∀ entry ∈ (collectQueued collected payload).frames.entries, Plain entry.2 := by
  unfold collectQueued
  split
  · rename_i collectable
    intro entry member
    rcases OrderedDict.mem_set.mp member with rfl | ⟨old, -⟩
    · exact plain_of_isTrace collectable.1
    · exact held entry old
  · exact held

theorem collectPending_plain {collected : TraceFrames} {pending : (String × Int) × Payload}
    (held : ∀ entry ∈ collected.frames.entries, Plain entry.2) (plain : Plain pending.2) :
    ∀ entry ∈ (collectPending collected pending).frames.entries, Plain entry.2 := by
  unfold collectPending
  dsimp only
  split
  · exact held
  · intro entry member
    simp only [OrderedDict.setDefault] at member
    split at member
    · exact held entry member
    · rcases OrderedDict.mem_set.mp member with rfl | ⟨old, -⟩
      · exact plain
      · exact held entry old

theorem collectTraceFrames_plain (held : PlainHeld client) :
    ∀ entry ∈ (collectTraceFrames client).frames.entries, Plain entry.2 := by
  have queued : ∀ (outbox : List Payload) (collected : TraceFrames),
      (∀ entry ∈ collected.frames.entries, Plain entry.2) →
        ∀ entry ∈ (outbox.foldl collectQueued collected).frames.entries, Plain entry.2 := by
    intro outbox
    induction outbox with
    | nil => exact fun collected plain => plain
    | cons payload rest ih => exact fun collected plain => ih _ (collectQueued_plain plain)
  have start := queued client.outbox ⟨.empty, [], []⟩ (by rintro _ ⟨⟩)
  have traces := held.traces
  unfold collectTraceFrames
  generalize client.outbox.foldl collectQueued ⟨.empty, [], []⟩ = collected at start
  generalize client.pendingTraceFrames.entries = pending at traces
  induction pending generalizing collected with
  | nil => exact start
  | cons entry rest ih =>
    apply ih
    · exact collectPending_plain start (traces entry (mem_cons_self ..))
    · exact fun other later => traces other (mem_cons_of_mem _ later)

theorem restorePendingTraceFrames_quiet (held : PlainHeld client) :
    Quiet client (restorePendingTraceFrames client) := by
  refine ⟨rfl, rfl, rfl, ?_, fun _ => ⟨held.buffered, held.traces⟩⟩
  intro payload restored
  rcases mem_restorePendingTraceFrames.mp restored with ⟨old, -⟩ | ⟨key, collected⟩
  · exact .inl old
  · exact .inr (collectTraceFrames_plain held _ collected)

theorem mem_restorePendingTerminalFrames :
    payload ∈ (restorePendingTerminalFrames client).outbox ↔ payload ∈ client.outbox ∨
      ∃ runUuid, client.pendingTerminalFrames.get? runUuid = some payload ∧
        ∀ other ∈ client.outbox, other.frame.type = "run_done" → other.frame.run ≠ runUuid := by
  simp only [restorePendingTerminalFrames, mem_append, mem_map, mem_filter,
    decide_eq_true_eq, Prod.exists, exists_eq_right, OrderedDict.get?_eq_some_iff]
  apply or_congr_right
  apply exists_congr
  intro runUuid
  apply and_congr_right
  intro _
  constructor
  · intro missing other queued type same
    exact missing ⟨other, ⟨queued, type⟩, same⟩
  · intro apart named
    rcases named with ⟨other, ⟨queued, type⟩, same⟩
    exact apart other queued type same

theorem mem_restorePendingDatasourceTerminalFrames :
    payload ∈ (restorePendingDatasourceTerminalFrames client).outbox ↔ payload ∈ client.outbox ∨
      ∃ taskId, client.pendingDatasourceTerminalFrames.get? taskId = some payload ∧
        ∀ other ∈ client.outbox, other.frame.type ∈ datasourceTerminalTypes →
          other.frame.task ≠ taskId := by
  simp only [restorePendingDatasourceTerminalFrames, mem_append, mem_map,
    mem_filter, decide_eq_true_eq, Prod.exists, exists_eq_right, OrderedDict.get?_eq_some_iff]
  apply or_congr_right
  apply exists_congr
  intro taskId
  apply and_congr_right
  intro _
  constructor
  · intro missing other queued type same
    exact missing ⟨other, ⟨queued, type⟩, same⟩
  · intro apart named
    rcases named with ⟨other, ⟨queued, type⟩, same⟩
    exact apart other queued type same

theorem onConnected_outbox (held : PlainHeld client)
    (queued : payload ∈ (onConnected client).outbox) :
    payload ∈ client.outbox ∨ Plain payload ∨ ∃ key, pendingOf client key = some payload := by
  rcases mem_restorePendingDatasourceTerminalFrames.mp queued with before | ⟨taskId, found, -⟩
  · rcases mem_restorePendingTerminalFrames.mp before with traced | ⟨runUuid, found, -⟩
    · rcases (restorePendingTraceFrames_quiet held).outbox payload traced with old | plain
      · exact .inl old
      · exact .inr (.inl plain)
    · exact .inr (.inr ⟨.run runUuid, found⟩)
  · exact .inr (.inr ⟨.task taskId, found⟩)

theorem onConnected_restores {key : TerminalKey} (held : PlainHeld client)
    (named : ∀ other item, pendingOf client other = some item → terminalKey item.frame = some other)
    (found : pendingOf client key = some payload)
    (absent : ∀ other ∈ client.outbox, terminalKey other.frame ≠ some key) :
    payload ∈ (onConnected client).outbox := by
  have traced : ∀ other ∈ (restorePendingTraceFrames client).outbox,
      terminalKey other.frame ≠ some key := by
    intro other queued same
    rcases (restorePendingTraceFrames_quiet held).outbox other queued with old | plain
    · exact absent other old same
    · rw [plain] at same
      cases same
  cases key with
  | run runUuid =>
    have filled := (terminalKey_eq_run.mp (named _ _ found)).2.2
    apply mem_restorePendingDatasourceTerminalFrames.mpr
    refine .inl (mem_restorePendingTerminalFrames.mpr (.inr ⟨runUuid, found, ?_⟩))
    intro other queued type same
    exact traced other queued (terminalKey_eq_run.mpr ⟨type, same, filled⟩)
  | task taskId =>
    have filled := (terminalKey_eq_task.mp (named _ _ found)).2.2
    apply mem_restorePendingDatasourceTerminalFrames.mpr
    refine .inr ⟨taskId, found, ?_⟩
    intro other queued type same
    have task := terminalKey_eq_task.mpr ⟨type, same, filled⟩
    rcases mem_restorePendingTerminalFrames.mp queued with before | ⟨runUuid, restored, -⟩
    · exact traced other before task
    · rw [named (.run runUuid) other restored] at task
      cases task

end SourceLens.Outbox
