import SourceLens.OutboxRestore

/-! What the operations of the client do to its trace frames. -/

namespace SourceLens.Outbox

open List OrderedDict

variable {client : Client} {handed : List Frame} {payload : Payload} {event : Json}
  {collected : TraceFrames} {number : Int}

structure OthersPlain (client : Client) : Prop where
  buffered : ∀ payload ∈ client.bufferedOutput, payload.frame.isTrace = false
  terminal : ∀ entry ∈ client.pendingTerminalFrames.entries, entry.2.frame.isTrace = false
  datasource : ∀ entry ∈ client.pendingDatasourceTerminalFrames.entries,
    entry.2.frame.isTrace = false

/-- An operation on other frames: no trace frame is added, and none of the
unacknowledged ones is touched. -/
structure TraceKept (client next : Client) : Prop where
  limit : next.outboxMax = client.outboxMax
  pending : next.pendingTraceFrames = client.pendingTraceFrames
  queued : ∀ payload ∈ next.outbox, payload.frame.isTrace = true → payload ∈ client.outbox
  plain : OthersPlain next

theorem TraceKept.trans {first second third : Client} (one : TraceKept first second)
    (two : TraceKept second third) : TraceKept first third where
  limit := two.limit.trans one.limit
  pending := two.pending.trans one.pending
  queued := fun payload member trace => one.queued payload (two.queued payload member trace) trace
  plain := two.plain

theorem TraceKept.refl (plain : OthersPlain client) : TraceKept client client :=
  ⟨rfl, rfl, fun _ member _ => member, plain⟩

theorem isTrace_type {frame : Frame} (trace : frame.isTrace = true) :
    frame.type = "run_trace_events" := by
  simpa [Frame.isTrace] using trace

theorem notePendingTrace_plain (other : payload.frame.isTrace = false) :
    notePendingTrace client payload = client := by
  simp [notePendingTrace, other]

theorem notePendingTerminal_kept (now : String) (other : payload.frame.isTrace = false)
    (plain : OthersPlain client) : TraceKept client (notePendingTerminal now client payload).1 ∧
      (notePendingTerminal now client payload).2.frame.isTrace = false := by
  unfold notePendingTerminal
  split
  · refine ⟨⟨rfl, rfl, fun _ member _ => member, plain.buffered, ?_, plain.datasource⟩, other⟩
    intro entry member
    have noted := OrderedDict.trim_subset member
    rw [OrderedDict.mem_moveToEnd, OrderedDict.mem_set] at noted
    rcases noted with rfl | ⟨old, -⟩
    · exact other
    · exact plain.terminal entry old
  · exact ⟨.refl plain, other⟩

theorem notePendingDatasourceTerminal_kept (other : payload.frame.isTrace = false)
    (plain : OthersPlain client) :
    TraceKept client (notePendingDatasourceTerminal client payload) := by
  unfold notePendingDatasourceTerminal
  split
  · refine ⟨rfl, rfl, fun _ member _ => member, plain.buffered, plain.terminal, ?_⟩
    intro entry member
    have noted := OrderedDict.trim_subset member
    rw [OrderedDict.mem_moveToEnd, OrderedDict.mem_set] at noted
    rcases noted with rfl | ⟨old, -⟩
    · exact other
    · exact plain.datasource entry old
  · exact .refl plain

theorem enqueueFrame_kept (now : String) (other : payload.frame.isTrace = false)
    (plain : OthersPlain client) : TraceKept client (enqueueFrame now client payload) := by
  obtain ⟨first, stamped⟩ := notePendingTerminal_kept now other plain
  have noted := first.trans (notePendingDatasourceTerminal_kept stamped first.plain)
  simp only [enqueueFrame, notePending, notePendingTrace_plain other]
  split
  · rename_i next coalesced
    obtain ⟨-, index, -, rfl⟩ := coalesceProgressFrame_some coalesced
    refine noted.trans ⟨rfl, rfl, ?_, ⟨noted.plain.buffered, noted.plain.terminal,
      noted.plain.datasource⟩⟩
    intro queued member trace
    rcases mem_or_eq_of_mem_set member with old | rfl
    · exact old
    · rw [stamped] at trace
      cases trace
  · refine noted.trans ⟨rfl, rfl, ?_, ⟨noted.plain.buffered, noted.plain.terminal,
      noted.plain.datasource⟩⟩
    intro queued member trace
    rcases mem_append.mp member with old | new
    · exact mem_of_mem_drop old
    · rw [mem_singleton.mp new, stamped] at trace
      cases trace

theorem flushBufferedOutput_kept (now : String) (plain : OthersPlain client) :
    TraceKept client (flushBufferedOutput now client) := by
  unfold flushBufferedOutput
  split
  · exact .refl plain
  · rename_i payload buffered
    have emptied : TraceKept client { client with bufferedOutput := none } :=
      ⟨rfl, rfl, fun _ member _ => member, ⟨(by rintro _ ⟨⟩), plain.terminal, plain.datasource⟩⟩
    exact emptied.trans (enqueueFrame_kept now (plain.buffered payload buffered) emptied.plain)

theorem bufferDelta_kept (other : payload.frame.isTrace = false) (plain : OthersPlain client) :
    TraceKept client (bufferDelta client payload) := by
  refine ⟨rfl, rfl, fun _ member _ => member, ?_, plain.terminal, plain.datasource⟩
  rintro buffered ⟨⟩
  split
  · rename_i delta present
    exact plain.buffered delta present
  · exact other

theorem enqueue_kept (now : String) (other : payload.frame.isTrace = false)
    (plain : OthersPlain client) : TraceKept client (enqueue now client payload) := by
  simp only [enqueue]
  split
  · have first : TraceKept client (flushOtherRun now client payload) := by
      unfold flushOtherRun
      split
      · split
        · exact .refl plain
        · exact flushBufferedOutput_kept now plain
      · exact .refl plain
    have buffered := first.trans (bufferDelta_kept other first.plain)
    split
    · exact buffered.trans (flushBufferedOutput_kept now buffered.plain)
    · exact buffered
  · have first := flushBufferedOutput_kept now plain
    exact first.trans (enqueueFrame_kept now other first.plain)

structure Single (frame : Frame) (event : Json) (number : Int) : Prop where
  trace : frame.isTrace = true
  run : frame.run ≠ ""
  events : frame.events = [event]
  sequence : event.intField "sequence" = some number

theorem Single.sequences {frame : Frame} (single : Single frame event number) :
    frame.sequences = [some number] := by
  simp [Frame.sequences, single.events, eventSequence, single.sequence]

theorem enqueue_trace (now : String) (single : Single payload.frame event number)
    (plain : OthersPlain client) (room : client.pendingTraceFrames.length < client.outboxMax) :
    (enqueue now client payload).outboxMax = client.outboxMax ∧
      OthersPlain (enqueue now client payload) ∧
      (∀ queued ∈ (enqueue now client payload).outbox, queued.frame.isTrace = true →
        queued = payload ∨ queued ∈ client.outbox) ∧
      ∀ entry, entry ∈ (enqueue now client payload).pendingTraceFrames.entries ↔
        entry = ((payload.frame.run, number), payload) ∨
          (entry ∈ client.pendingTraceFrames.entries ∧ entry.1 ≠ (payload.frame.run, number)) := by
  have type := isTrace_type single.trace
  have flushed := flushBufferedOutput_kept now plain
  have result : enqueue now client payload =
      appendFrame (notePendingTrace (flushBufferedOutput now client) payload) payload := by
    simp [enqueue, isDelta, enqueueFrame, notePending, notePendingTerminal,
      notePendingDatasourceTerminal, datasourceTerminalTypes, coalesceProgressFrame, type]
  rw [result]
  generalize flushBufferedOutput now client = before at flushed
  have noted : notePendingTrace before payload = { before with
      pendingTraceFrames := ((before.pendingTraceFrames.set (payload.frame.run, number)
        payload).moveToEnd (payload.frame.run, number)).trim before.outboxMax } := by
    simp [notePendingTrace, single.trace, single.events, eventSequence, single.sequence]
  have within : ((before.pendingTraceFrames.set (payload.frame.run, number) payload).moveToEnd
      (payload.frame.run, number)).length ≤ before.outboxMax := by
    rw [length_moveToEnd, flushed.pending, flushed.limit]
    exact (length_set_le ..).trans room
  rw [noted]
  refine ⟨flushed.limit, ⟨flushed.plain.buffered, flushed.plain.terminal,
    flushed.plain.datasource⟩, ?_, ?_⟩
  · intro queued member trace
    rcases mem_append.mp member with old | new
    · exact .inr (flushed.queued queued (mem_of_mem_drop old) trace)
    · exact .inl (mem_singleton.mp new)
  · intro entry
    rw [← flushed.pending]
    simp only [appendFrame, OrderedDict.trim_within within, OrderedDict.mem_moveToEnd,
      OrderedDict.mem_set]

def Genuine (handed : List Frame) (payload : Payload) : Prop :=
  ∃ index, payload.carries = [index] ∧ handed[index]? = some payload.frame

theorem Genuine.grow (genuine : Genuine handed payload) (more : List Frame) :
    Genuine (handed ++ more) payload := by
  obtain ⟨index, carries, object⟩ := genuine
  refine ⟨index, carries, ?_⟩
  obtain ⟨inside, -⟩ := List.getElem?_eq_some_iff.mp object
  rwa [List.getElem?_append_left inside]

theorem Genuine.same_frame {left right : Payload} (one : Genuine handed left)
    (other : Genuine handed right) (same : left.carries = right.carries) :
    left.frame = right.frame := by
  obtain ⟨index, carries, frame⟩ := one
  obtain ⟨second, carries', frame'⟩ := other
  rw [carries, carries', List.cons.injEq] at same
  rw [same.1, frame', Option.some.injEq] at frame
  exact frame.symm

/-- Every queued or unacknowledged trace frame was handed over and carries one event. -/
structure TraceSound (handed : List Frame) (client : Client) : Prop where
  queued : ∀ payload ∈ client.outbox, payload.frame.isTrace = true →
    Genuine handed payload ∧ ∃ event number, Single payload.frame event number
  pending : ∀ entry ∈ client.pendingTraceFrames.entries, Genuine handed entry.2 ∧
    entry.2.frame.run = entry.1.1 ∧ ∃ event, Single entry.2.frame event entry.1.2

/-- What the restore loops keep true of the dict and the two sets. -/
structure CollectedSound (handed : List Frame) (collected : TraceFrames) : Prop where
  entries : ∀ entry ∈ collected.frames.entries, entry.1 = segmentKey entry.2 ∧
    Genuine handed entry.2 ∧ ∃ event number, Single entry.2.frame event number
  covered : ∀ runUuid sequence, (runUuid, sequence) ∈ collected.covered →
    (runUuid, [sequence]) ∈ collected.frames.keys
  known : ∀ carries ∈ collected.known, ∃ payload : Payload, payload.carries = carries ∧
    Genuine handed payload ∧ segmentKey payload ∈ collected.frames.keys

theorem CollectedSound.empty (handed : List Frame) :
    CollectedSound handed ⟨.empty, [], []⟩ :=
  ⟨(by rintro _ ⟨⟩), (by rintro _ _ ⟨⟩), (by rintro _ ⟨⟩)⟩

theorem Single.segmentKey (single : Single payload.frame event number) :
    Outbox.segmentKey payload = (payload.frame.run, [some number]) := by
  rw [Outbox.segmentKey, single.sequences]

theorem CollectedSound.add (sound : CollectedSound handed collected)
    (genuine : Genuine handed payload) (single : Single payload.frame event number) :
    CollectedSound handed
      { frames := collected.frames.set (segmentKey payload) payload
        known := payload.carries :: collected.known
        covered := (payload.frame.run, some number) :: collected.covered } where
  entries := by
    intro entry member
    rcases mem_set.mp member with rfl | ⟨old, -⟩
    · exact ⟨rfl, genuine, event, number, single⟩
    · exact sound.entries entry old
  covered := by
    intro runUuid sequence member
    rw [mem_keys_set]
    rcases mem_cons.mp member with same | old
    · cases same
      exact .inl single.segmentKey.symm
    · exact .inr (sound.covered runUuid sequence old)
  known := by
    intro carries member
    rcases mem_cons.mp member with rfl | old
    · exact ⟨payload, rfl, genuine, mem_keys_set.mpr (.inl rfl)⟩
    · obtain ⟨other, same, otherGenuine, present⟩ := sound.known carries old
      exact ⟨other, same, otherGenuine, mem_keys_set.mpr (.inr present)⟩

theorem collectQueued_sound (sound : CollectedSound handed collected)
    (queued : payload.frame.isTrace = true →
      Genuine handed payload ∧ ∃ event number, Single payload.frame event number) :
    CollectedSound handed (collectQueued collected payload) := by
  simp only [collectQueued]
  split
  · rename_i collectable
    obtain ⟨genuine, event, number, single⟩ := queued collectable.1
    rw [single.sequences]
    have added := sound.add genuine single
    rw [single.segmentKey] at added
    exact added
  · exact sound

theorem foldl_collectQueued_sound (outbox : List Payload) (sound : CollectedSound handed collected)
    (queued : ∀ payload ∈ outbox, payload.frame.isTrace = true →
      Genuine handed payload ∧ ∃ event number, Single payload.frame event number) :
    CollectedSound handed (outbox.foldl collectQueued collected) := by
  induction outbox generalizing collected with
  | nil => exact sound
  | cons head rest ih =>
    exact ih (collectQueued_sound sound (queued head (mem_cons_self ..)))
      fun payload later => queued payload (mem_cons_of_mem _ later)

theorem collectPending_sound {entry : (String × Int) × Payload}
    (sound : CollectedSound handed collected) (genuine : Genuine handed entry.2)
    (run : entry.2.frame.run = entry.1.1) (single : Single entry.2.frame event entry.1.2) :
    CollectedSound handed (collectPending collected entry) ∧
      (∀ key ∈ collected.frames.keys, key ∈ (collectPending collected entry).frames.keys) ∧
      (entry.1.1, [some entry.1.2]) ∈ (collectPending collected entry).frames.keys := by
  obtain ⟨⟨runUuid, sequence⟩, payload⟩ := entry
  simp only at run single genuine
  subst run
  have key := single.segmentKey
  simp only [collectPending]
  split
  · rename_i seen
    refine ⟨sound, fun key member => member, ?_⟩
    rcases seen with known | covered
    · obtain ⟨other, same, otherGenuine, present⟩ := sound.known _ known
      have frame := otherGenuine.same_frame genuine same
      rwa [segmentKey, frame, single.sequences] at present
    · exact sound.covered _ _ covered
  · simp only [OrderedDict.setDefault]
    split
    · rename_i present
      refine ⟨⟨sound.entries, ?_, ?_⟩, fun key member => member, present⟩
      · intro other number member
        rcases mem_cons.mp member with same | old
        · cases same
          exact present
        · exact sound.covered other number old
      · intro carries member
        rcases mem_cons.mp member with rfl | old
        · exact ⟨payload, rfl, genuine, key ▸ present⟩
        · exact sound.known carries old
    · have added := sound.add genuine single
      rw [key] at added
      refine ⟨added, fun key member => mem_keys_set.mpr (.inr member),
        mem_keys_set.mpr (.inl rfl)⟩

theorem foldl_collectPending_sound (pending : List ((String × Int) × Payload))
    (sound : CollectedSound handed collected)
    (entries : ∀ entry ∈ pending, Genuine handed entry.2 ∧ entry.2.frame.run = entry.1.1 ∧
      ∃ event, Single entry.2.frame event entry.1.2) :
    CollectedSound handed (pending.foldl collectPending collected) ∧
      (∀ key ∈ collected.frames.keys, key ∈ (pending.foldl collectPending collected).frames.keys) ∧
      ∀ entry ∈ pending,
        (entry.1.1, [some entry.1.2]) ∈ (pending.foldl collectPending collected).frames.keys := by
  induction pending generalizing collected with
  | nil => exact ⟨sound, fun key member => member, by rintro _ ⟨⟩⟩
  | cons head rest ih =>
    obtain ⟨genuine, run, event, single⟩ := entries head (mem_cons_self ..)
    obtain ⟨next, kept, own⟩ := collectPending_sound sound genuine run single
    obtain ⟨last, later, all⟩ := ih next fun entry member =>
      entries entry (mem_cons_of_mem _ member)
    refine ⟨last, fun key member => later key (kept key member), ?_⟩
    intro entry member
    rcases mem_cons.mp member with rfl | member
    · exact later _ own
    · exact all entry member

theorem collectTraceFrames_sound (sound : TraceSound handed client) :
    CollectedSound handed (collectTraceFrames client) ∧
      ∀ entry ∈ client.pendingTraceFrames.entries,
        (entry.1.1, [some entry.1.2]) ∈ (collectTraceFrames client).frames.keys := by
  rcases foldl_collectPending_sound client.pendingTraceFrames.entries (foldl_collectQueued_sound
      client.outbox (.empty handed) sound.queued) sound.pending with
    ⟨whole, -, all⟩
  exact ⟨whole, all⟩

def traceOf (runUuid : String) (payload : Payload) : Bool :=
  payload.frame.isTrace && payload.frame.run == runUuid

theorem nodup_eraseDups : ∀ items : List String, items.eraseDups.Nodup
  | [] => nodup_nil
  | head :: rest => by
    rw [eraseDups_cons, nodup_cons]
    refine ⟨?_, nodup_eraseDups _⟩
    simp [mem_eraseDups]
  termination_by items => items.length
  decreasing_by
    simp only [length_cons]
    exact Nat.lt_succ_of_le (length_filter_le _ _)

theorem flatMap_only {segment : String → List Payload} {runUuid : String} (runs : List String)
    (distinct : runs.Nodup) :
    (runs.flatMap fun other => if other = runUuid then segment other else []) =
      if runUuid ∈ runs then segment runUuid else [] := by
  induction runs with
  | nil => rfl
  | cons head rest ih =>
    obtain ⟨apart, later⟩ := nodup_cons.mp distinct
    rw [flatMap_cons, ih later]
    by_cases same : head = runUuid
    · subst same
      simp [apart]
    · simp [same, Ne.symm same]

theorem rebuild_filter {runs : List String} {segment : String → List Payload}
    (runUuid : String) (distinct : runs.Nodup)
    (own : ∀ other ∈ runs, ∀ payload ∈ segment other, traceOf other payload = true)
    (outbox : List Payload) (emitted : List String) :
    (rebuild runs segment outbox emitted).filter (traceOf runUuid) =
      if runUuid ∈ runs ∧ runUuid ∉ emitted then segment runUuid else [] := by
  have only : ∀ other ∈ runs, (segment other).filter (traceOf runUuid) =
      if other = runUuid then segment other else [] := by
    intro other known
    by_cases same : other = runUuid
    · subst same
      rw [if_pos rfl, filter_eq_self]
      exact own other known
    · rw [if_neg same, filter_eq_nil_iff]
      intro payload member trace
      have mine := own other known payload member
      simp only [traceOf, Bool.and_eq_true, beq_iff_eq] at mine trace
      exact same (mine.2.symm.trans trace.2)
  have plain : ∀ head : Payload,
      (if head.frame.isTrace then [] else [head]).filter (traceOf runUuid) = [] := by
    intro head
    cases trace : head.frame.isTrace <;> simp [traceOf, trace]
  induction outbox generalizing emitted with
  | nil =>
    simp only [rebuild, filter_flatMap]
    have step : ((runs.filter (· ∉ emitted)).flatMap fun other =>
        (segment other).filter (traceOf runUuid)) =
          (runs.filter (· ∉ emitted)).flatMap fun other =>
            if other = runUuid then segment other else [] :=
      flatMap_congr fun other member => only other (mem_filter.mp member).1
    rw [step, flatMap_only _ (distinct.filter _)]
    simp [mem_filter]
  | cons head rest ih =>
    simp only [rebuild]
    split
    · rename_i fresh
      rw [filter_append, filter_append, plain, ih, only _ fresh.1, append_nil]
      by_cases same : head.frame.run = runUuid
      · subst same
        simp [fresh.1, fresh.2]
      · simp [same, Ne.symm same]
    · rw [filter_append, plain, ih, nil_append]

theorem orderedFrames_traceOf (sound : CollectedSound handed collected) (runUuid : String) :
    ∀ payload ∈ orderedFrames collected runUuid, traceOf runUuid payload = true := by
  intro payload member
  obtain ⟨sequences, inside⟩ := mem_orderedFrames.mp member
  obtain ⟨key, -, event, number, single⟩ := sound.entries _ inside
  have run : runUuid = payload.frame.run := congrArg Prod.fst key
  simp [traceOf, single.trace, run]

theorem onConnected_plain (plain : OthersPlain client) : OthersPlain (onConnected client) :=
  ⟨plain.buffered, plain.terminal, plain.datasource⟩

theorem onConnected_filter (plain : OthersPlain client) (runUuid : String) :
    (onConnected client).outbox.filter (traceOf runUuid) =
      (restorePendingTraceFrames client).outbox.filter (traceOf runUuid) := by
  have others : ∀ payloads : List Payload, (∀ payload ∈ payloads, payload.frame.isTrace = false) →
      payloads.filter (traceOf runUuid) = [] := by
    intro payloads all
    rw [filter_eq_nil_iff]
    intro payload member
    simp [traceOf, all payload member]
  have terminal : ∀ keep : String × Payload → Bool,
      ((client.pendingTerminalFrames.entries.filter keep).map Prod.snd).filter
        (traceOf runUuid) = [] := by
    intro keep
    apply others
    intro payload member
    obtain ⟨entry, inside, rfl⟩ := mem_map.mp member
    exact plain.terminal entry (mem_filter.mp inside).1
  have datasource : ∀ keep : String × Payload → Bool,
      ((client.pendingDatasourceTerminalFrames.entries.filter keep).map Prod.snd).filter
        (traceOf runUuid) = [] := by
    intro keep
    apply others
    intro payload member
    obtain ⟨entry, inside, rfl⟩ := mem_map.mp member
    exact plain.datasource entry (mem_filter.mp inside).1
  simp only [onConnected, restorePendingDatasourceTerminalFrames, restorePendingTerminalFrames,
    filter_append]
  rw [restorePendingTraceFrames, terminal, datasource, append_nil, append_nil]

theorem onConnected_segment (sound : TraceSound handed client) (plain : OthersPlain client)
    (runUuid : String) : (onConnected client).outbox.filter (traceOf runUuid) =
      if runUuid ∈ tracedRuns (collectTraceFrames client) then
        orderedFrames (collectTraceFrames client) runUuid
      else [] := by
  have collected := (collectTraceFrames_sound sound).1
  rw [onConnected_filter plain]
  have rebuilt := rebuild_filter runUuid (nodup_eraseDups _)
    (fun other (_ : other ∈ tracedRuns (collectTraceFrames client)) =>
      orderedFrames_traceOf collected other) client.outbox []
  simp only [not_mem_nil, not_false_eq_true, and_true] at rebuilt
  exact rebuilt

theorem Single.firstSequence (single : Single payload.frame event number) :
    Outbox.firstSequence payload = number := by
  simp [Outbox.firstSequence, single.sequences]

theorem onConnected_ascending (sound : TraceSound handed client) (plain : OthersPlain client)
    (runUuid : String) :
    (((onConnected client).outbox.filter (traceOf runUuid)).map firstSequence).Pairwise
      (· ≤ ·) := by
  rw [onConnected_segment sound plain]
  split
  · rw [pairwise_map]
    have : Std.Total fun left right : Payload => firstSequence left ≤ firstSequence right :=
      ⟨fun left right => Int.le_total _ _⟩
    have : IsTrans Payload fun left right => firstSequence left ≤ firstSequence right :=
      ⟨fun _ _ _ => Int.le_trans⟩
    exact pairwise_insertionSort _ _
  · exact List.Pairwise.nil

theorem onConnected_covers (sound : TraceSound handed client) (plain : OthersPlain client)
    {entry : (String × Int) × Payload} (pending : entry ∈ client.pendingTraceFrames.entries) :
    entry.1.2 ∈ ((onConnected client).outbox.filter (traceOf entry.1.1)).map firstSequence := by
  obtain ⟨collected, all⟩ := collectTraceFrames_sound sound
  obtain ⟨found, inside, key⟩ := mem_map.mp (all entry pending)
  obtain ⟨own, -, event, number, single⟩ := collected.entries found inside
  have segment : found.2 ∈ orderedFrames (collectTraceFrames client) entry.1.1 :=
    mem_orderedFrames.mpr ⟨[some entry.1.2], by rw [← key]; exact inside⟩
  have traced : entry.1.1 ∈ tracedRuns (collectTraceFrames client) :=
    mem_tracedRuns.mpr ⟨[some entry.1.2], found.2, by rw [← key]; exact inside⟩
  rw [onConnected_segment sound plain, if_pos traced]
  refine mem_map.mpr ⟨found.2, segment, ?_⟩
  rw [own, single.segmentKey] at key
  simp only [Prod.mk.injEq, List.cons.injEq, Option.some.injEq, and_true] at key
  rw [single.firstSequence, key.2]

theorem onConnected_sound (sound : TraceSound handed client) (plain : OthersPlain client) :
    TraceSound handed (onConnected client) where
  queued := by
    intro payload member trace
    have inside : payload ∈ (onConnected client).outbox.filter (traceOf payload.frame.run) :=
      mem_filter.mpr ⟨member, by simp [traceOf, trace]⟩
    rw [onConnected_filter plain] at inside
    rcases mem_restorePendingTraceFrames.mp (mem_filter.mp inside).1 with ⟨-, other⟩ | ⟨key, found⟩
    · rw [trace] at other
      cases other
    · exact ((collectTraceFrames_sound sound).1.entries _ found).2
  pending := sound.pending

end SourceLens.Outbox
