import SourceLens.TraceDelivery

/-! What holds of trajectories in every reachable state of their delivery. -/

namespace SourceLens.TraceDelivery

open Transition Outbox List Function

variable {system : System} {payload : Payload} {frame : Frame} {runUuid now : String} {event : Json}
  {number : Int} {index : Nat} {log : List RunTrace.TraceRow}

variable (server : Server)

/-- The events of a run are numbered from one, and handed over in their order. -/
structure Recording (trajectories : String → Trajectory.RunTrajectory) (scheduled : List Frame)
    (recorded : String → List Json) (handed : List Frame) : Prop where
  frames : ∀ frame ∈ handed ++ scheduled, frame.isTrace = true →
    server.parseUuid frame.run = some frame.run ∧ ∃ event number, Single frame event number
  scheduledTrace : ∀ frame ∈ scheduled, frame.isTrace = true
  order : ∀ runUuid, recorded runUuid = eventsOf runUuid (handed ++ scheduled)
  numbering : ∀ runUuid, Trajectory.sequences (recorded runUuid) =
    Trajectory.numbered 1 (recorded runUuid).length
  cursor : ∀ runUuid, (trajectories runUuid).sequence = (recorded runUuid).length

/-- Trace frames anywhere are objects handed over, and what is not stored is
unacknowledged. -/
structure Held (client : Client) (flight : List Payload)
    (logs : String → List RunTrace.TraceRow) (handed : List Frame) : Prop where
  plain : OthersPlain client
  sound : TraceSound handed client
  flying : ∀ payload ∈ flight, payload.frame.isTrace = true →
    Genuine handed payload ∧ ∃ event number, Single payload.frame event number
  unacked : ∀ runUuid (number : Nat), (logs runUuid).length < number →
    number ≤ (eventsOf runUuid handed).length →
    ∃ payload, ((runUuid, (number : Int)), payload) ∈ client.pendingTraceFrames.entries

structure Stored (logs : String → List RunTrace.TraceRow) (recorded : String → List Json)
    (handed : List Frame) (acks : List (String × Int)) : Prop where
  contiguous : ∀ runUuid, RunTrace.Contiguous (logs runUuid)
  mirrors : ∀ runUuid, Mirrors server.backend (logs runUuid) (recorded runUuid)
  within : ∀ runUuid, (logs runUuid).length ≤ (eventsOf runUuid handed).length
  acked : ∀ ack ∈ acks, ack.2 ≤ (logs ack.1).length

/-- The restored outbox holds, in order, what was not stored at the connection. -/
structure Restored (restored : List Payload) (restoredFrom restoredCount : String → Nat) :
    Prop where
  ascending : ∀ runUuid,
    ((restored.filter (traceOf runUuid)).map firstSequence).Pairwise (· ≤ ·)
  covers : ∀ runUuid (number : Nat), restoredFrom runUuid < number →
    number ≤ restoredCount runUuid →
    (number : Int) ∈ (restored.filter (traceOf runUuid)).map firstSequence

/-- Since the last connection the log of a storable run has moved exactly as a
cursor over the handled frames. -/
def Progress (logs : String → List RunTrace.TraceRow) (recorded : String → List Json)
    (restoredFrom : String → Nat) (processed : List Payload) : Prop :=
  ∀ runUuid, Storable server runUuid (recorded runUuid) →
    (logs runUuid).length =
      ((processed.filter (traceOf runUuid)).map firstSequence).foldl Cursor.advance
        (restoredFrom runUuid)

structure Sound (system : System) : Prop where
  recording : Recording server system.trajectories system.scheduled system.recorded system.handed
  held : Held system.client (system.sendLoop.inFlight ++ system.network) system.logs system.handed
  stored : Stored server system.logs system.recorded system.handed system.acks
  restored : Restored system.restored system.restoredFrom system.restoredCount
  progress : Progress server system.logs system.recorded system.restoredFrom system.processed

theorem new_sound (outboxMax outboxSoftLimit : Nat) :
    Sound server (.new outboxMax outboxSoftLimit) where
  recording := by
    refine ⟨?_, ?_, fun _ => rfl, fun _ => rfl, fun _ => rfl⟩
    · nofun
    · nofun
  held := by
    refine ⟨⟨?_, ?_, ?_⟩, ⟨?_, ?_⟩, ?_, ?_⟩
    iterate 6 rintro _ ⟨⟩
    intro runUuid number above below
    have : number ≤ 0 := below
    omega
  stored := by
    refine ⟨fun _ => .empty, ?_, fun _ => Nat.le_refl _, ?_⟩
    · intro runUuid index row located
      cases located
    · nofun
  restored := by
    refine ⟨fun _ => .nil, ?_⟩
    intro runUuid number above below
    have : number ≤ 0 := below
    omega
  progress := fun _ _ => rfl

variable {server}

theorem eventsOf_append (runUuid : String) (front back : List Frame) :
    eventsOf runUuid (front ++ back) = eventsOf runUuid front ++ eventsOf runUuid back := by
  rw [eventsOf, filter_append, flatMap_append]
  rfl

theorem eventsOf_other (other : tracesRun runUuid frame = false) :
    eventsOf runUuid [frame] = [] := by
  simp [eventsOf, other]

theorem eventsOf_single (single : Single frame event number) :
    eventsOf frame.run [frame] = [event] := by
  simp [eventsOf, tracesRun, single.trace, single.events]

theorem traceFrame_single (named : runUuid ≠ "")
    (sequence : event.intField "sequence" = some number) :
    Single (traceFrame runUuid event) event number :=
  ⟨rfl, named, rfl, sequence⟩

theorem eventsOf_traceFrames (runUuid other : String) (events : List Json) :
    eventsOf other (events.map (traceFrame runUuid)) = if runUuid = other then events else [] := by
  induction events with
  | nil => simp [eventsOf]
  | cons event rest ih =>
    rw [map_cons, ← singleton_append, eventsOf_append, ih]
    by_cases same : runUuid = other
    · subst same
      simp [eventsOf, tracesRun, traceFrame, Frame.isTrace, Frame.run, textOrEmpty]
    · simp [eventsOf, tracesRun, traceFrame, Frame.run, textOrEmpty, same]

theorem sequences_at {events : List Json}
    (numbering : Trajectory.sequences events = Trajectory.numbered 1 events.length)
    (located : events[index]? = some event) (sequence : event.intField "sequence" = some number) :
    number = ((index + 1 : Nat) : Int) := by
  obtain ⟨inside, -⟩ := List.getElem?_eq_some_iff.mp located
  have here : (Trajectory.sequences events)[index]? = some (some number) := by
    rw [Trajectory.sequences, List.getElem?_map, located, Option.map_some, sequence]
  rw [numbering, Trajectory.numbered, getElem?_map, getElem?_range' inside,
    Option.map_some] at here
  have same := Option.some.inj (Option.some.inj here)
  omega

theorem genuine_position {trajectories : String → Trajectory.RunTrajectory}
    {scheduled handed : List Frame} {recorded : String → List Json}
    (recording : Recording server trajectories scheduled recorded handed)
    (genuine : Genuine handed payload) (single : Single payload.frame event number) :
    ∃ index : Nat, number = ((index + 1 : Nat) : Int) ∧
      index < (eventsOf payload.frame.run handed).length ∧
      (recorded payload.frame.run)[index]? = some event := by
  obtain ⟨index, -, object⟩ := genuine
  obtain ⟨front, back, split⟩ := append_of_mem (mem_of_getElem? object)
  have events : eventsOf payload.frame.run handed =
      eventsOf payload.frame.run front ++ event :: eventsOf payload.frame.run back := by
    rw [split, eventsOf_append, ← singleton_append, eventsOf_append, eventsOf_single single,
      singleton_append]
  have located : (recorded payload.frame.run)[(eventsOf payload.frame.run front).length]? =
      some event := by
    rw [recording.order, eventsOf_append, events, append_assoc, cons_append]
    simp
  refine ⟨_, sequences_at (recording.numbering _) located single.sequence, ?_, located⟩
  rw [events, length_append, length_cons]
  omega

/-- How the server handles a frame of one event: it rejects it, it has it already, or
it is the next one. -/
inductive Handled (server : Server) (logs : String → List RunTrace.TraceRow) (runUuid : String)
    (event : Json) (number : Int) :
    (String → List RunTrace.TraceRow) × Option (String × Int) → Prop
  | rejected (error : RunTrace.AppendError)
      (refused : RunTrace.appendRunTraceEvents server.backend (server.runRow runUuid)
        server.lensnodeUuid (.arr [event]) (logs runUuid) = .error error) :
      Handled server logs runUuid event number (logs, none)
  | duplicate (known : number ≤ (logs runUuid).length) :
      Handled server logs runUuid event number (logs, some (runUuid, number))
  | appended (normalized : RunTrace.NormalizedEvent)
      (valid : RunTrace.normalizeEvent server.backend event 0 = .ok normalized)
      (next : number = (logs runUuid).length + 1)
      (kept : RunTrace.Contiguous (logs runUuid ++
        [{ normalized.toTraceEvent with pk := (logs runUuid).length }])) :
      Handled server logs runUuid event number
        (Function.update logs runUuid (logs runUuid ++
          [{ normalized.toTraceEvent with pk := (logs runUuid).length }]),
          some (runUuid, number))

theorem handle_cases {logs : String → List RunTrace.TraceRow}
    (contiguous : RunTrace.Contiguous (logs frame.run))
    (known : server.parseUuid frame.run = some frame.run) (single : Single frame event number) :
    Handled server logs frame.run event number (handleRunTraceEvents server logs frame) := by
  simp only [handleRunTraceEvents, known, single.events]
  split
  · rename_i after result accepted
    have kept := (RunTrace.appendRunTraceEvents_contiguous contiguous accepted).1
    obtain ⟨batch, valid, appended, -⟩ := RunTrace.appendRunTraceEvents_ok accepted
    rw [RunTrace.validateBatch_single] at valid
    cases normalizes : RunTrace.normalizeEvent server.backend event 0 with
    | error error => simp [normalizes, Except.map] at valid
    | ok normalized =>
      simp only [normalizes, Except.map, Except.ok.injEq] at valid
      subst valid
      have sequence := (RunTrace.normalizeEvent_ok normalizes).2 _ single.sequence
      obtain ⟨last, outcome⟩ := RunTrace.append_single contiguous appended
      rw [last, sequence]
      rcases outcome with ⟨rfl, row, member, matched⟩ | ⟨next, rfl⟩
      · rw [update_eq_self]
        refine .duplicate ?_
        have bound := contiguous.sequence_le member
        rw [RunTrace.eventMatches_sequence matched] at bound
        omega
      · exact .appended normalized normalizes (by omega) kept
  · rename_i error refused
    exact .rejected error refused

theorem storable_accepted {recorded : List Json} (storable : Storable server runUuid recorded)
    (contiguous : RunTrace.Contiguous log) (mirrors : Mirrors server.backend log recorded)
    (located : recorded[log.length]? = some event)
    (sequence : event.intField "sequence" = some ((log.length + 1 : Nat) : Int)) :
    ∃ accepted, RunTrace.appendRunTraceEvents server.backend (server.runRow runUuid)
      server.lensnodeUuid (.arr [event]) log = .ok accepted := by
  have member := mem_of_getElem? located
  obtain ⟨normalized, normalizes, writable⟩ := storable.valid event member
  have numbered := (RunTrace.normalizeEvent_ok normalizes).2 _ sequence
  have fresh : ∀ row ∈ log, row.eventId ≠ normalized.eventId := by
    intro row stored same
    obtain ⟨index, inside, found⟩ := getElem_of_mem stored
    have place : log[index]? = some row := List.getElem?_eq_some_iff.mpr ⟨inside, found⟩
    obtain ⟨other, earlier, recordedAt, valid, rfl⟩ := mirrors index row place
    have position := contiguous.sequence_at place
    have equal := storable.ownId other (mem_of_getElem? recordedAt) event member earlier
      normalized valid normalizes same
    simp only at position
    omega
  have opened : RunTrace.appendRunTraceEvents server.backend (server.runRow runUuid)
      server.lensnodeUuid (.arr [event]) log =
        RunTrace.appendNormalized server.backend log [normalized] := by
    simp only [RunTrace.appendRunTraceEvents, RunTrace.validateBatch_single, normalizes,
      Except.map, bind, Except.bind, storable.assigned, RunTrace.checkAssignment, if_true]
  exact ⟨_, opened.trans (RunTrace.append_next contiguous (by omega) fresh writable)⟩

theorem mirrors_append {backend : RunTrace.Backend} {recorded : List Json}
    {normalized : RunTrace.NormalizedEvent} (mirrors : Mirrors backend log recorded)
    (located : recorded[log.length]? = some event)
    (valid : RunTrace.normalizeEvent backend event 0 = .ok normalized) :
    Mirrors backend (log ++ [{ normalized.toTraceEvent with pk := log.length }]) recorded := by
  intro index row found
  rcases Nat.lt_or_ge index log.length with earlier | later
  · rw [getElem?_append_left earlier] at found
    exact mirrors index row found
  · rw [getElem?_append_right later] at found
    have last : index = log.length := by
      have := (List.getElem?_eq_some_iff.mp found).1
      simp only [length_singleton] at this
      omega
    subst last
    simp only [Nat.sub_self, getElem?_cons_zero, Option.some.injEq] at found
    exact ⟨event, normalized, located, valid, found.symm⟩

/-- What the handling of one frame does to the logs: every log stays a mirror and
grows at most within what was handed over, and a storable run's log moves as a cursor. -/
structure Advances (server : Server) (system : System) (payload : Payload)
    (logs : String → List RunTrace.TraceRow) : Prop where
  contiguous : ∀ runUuid, RunTrace.Contiguous (logs runUuid)
  mirrors : ∀ runUuid, Mirrors server.backend (logs runUuid) (system.recorded runUuid)
  grows : ∀ runUuid, (system.logs runUuid).length ≤ (logs runUuid).length
  within : ∀ runUuid, (logs runUuid).length ≤ (eventsOf runUuid system.handed).length
  moves : ∀ runUuid, Storable server runUuid (system.recorded runUuid) →
    (logs runUuid).length =
      (([payload].filter (traceOf runUuid)).map firstSequence).foldl Cursor.advance
        (system.logs runUuid).length

theorem foldl_advance_payload (trace : payload.frame.isTrace = true) (runUuid : String)
    (cursor : Nat) :
    (([payload].filter (traceOf runUuid)).map firstSequence).foldl Cursor.advance cursor =
      if payload.frame.run = runUuid then Cursor.advance cursor (firstSequence payload)
      else cursor := by
  by_cases mine : payload.frame.run = runUuid
  · simp [traceOf, trace, mine]
  · simp [traceOf, mine]

theorem advances_unchanged (sound : Sound server system) (trace : payload.frame.isTrace = true)
    (stays : Storable server payload.frame.run (system.recorded payload.frame.run) →
      firstSequence payload ≠ (system.logs payload.frame.run).length + 1) :
    Advances server system payload system.logs where
  contiguous := sound.stored.contiguous
  mirrors := sound.stored.mirrors
  grows := fun _ => Nat.le_refl _
  within := sound.stored.within
  moves := by
    intro runUuid storable
    rw [foldl_advance_payload trace]
    split
    · rename_i mine
      subst mine
      rw [Cursor.advance, if_neg (stays storable)]
    · rfl

theorem advances_appended (sound : Sound server system) (trace : payload.frame.isTrace = true)
    {row : RunTrace.TraceRow} (kept : RunTrace.Contiguous (system.logs payload.frame.run ++ [row]))
    (mirrors : Mirrors server.backend (system.logs payload.frame.run ++ [row])
      (system.recorded payload.frame.run)) (within : (system.logs payload.frame.run).length <
      (eventsOf payload.frame.run system.handed).length)
    (next : firstSequence payload = (system.logs payload.frame.run).length + 1) :
    Advances server system payload (Function.update system.logs payload.frame.run
      (system.logs payload.frame.run ++ [row])) where
  contiguous := by
    apply (forall_update_iff system.logs fun _ log => RunTrace.Contiguous log).mpr
    exact ⟨kept, fun runUuid _ => sound.stored.contiguous runUuid⟩
  mirrors := by
    apply (forall_update_iff system.logs fun runUuid log =>
      Mirrors server.backend log (system.recorded runUuid)).mpr
    exact ⟨mirrors, fun runUuid _ => sound.stored.mirrors runUuid⟩
  grows := by
    apply (forall_update_iff system.logs fun runUuid log =>
      (system.logs runUuid).length ≤ log.length).mpr
    exact ⟨by simp, fun runUuid _ => Nat.le_refl _⟩
  within := by
    apply (forall_update_iff system.logs fun runUuid log =>
      log.length ≤ (eventsOf runUuid system.handed).length).mpr
    refine ⟨?_, fun runUuid _ => sound.stored.within runUuid⟩
    rw [length_append, length_singleton]
    exact within
  moves := by
    intro runUuid storable
    rw [foldl_advance_payload trace]
    split
    · rename_i mine
      subst mine
      rw [update_self, Cursor.advance, if_pos next, length_append,
        length_singleton]
    · rename_i other
      rw [update_of_ne (Ne.symm other)]

theorem receive_advances (sound : Sound server system) (trace : payload.frame.isTrace = true)
    (genuine : Genuine system.handed payload) :
    ∃ logs ack, handleRunTraceEvents server system.logs payload.frame = (logs, ack) ∧
      Advances server system payload logs ∧ ∀ acked ∈ ack, acked.2 ≤ (logs acked.1).length := by
  have stored := sound.stored
  obtain ⟨index, carries, handed⟩ := genuine
  rcases sound.recording.frames payload.frame
    (mem_append_left _ (mem_of_getElem? handed)) trace with ⟨known, event, number, single⟩
  obtain ⟨position, numbered, inside, located⟩ :=
    genuine_position sound.recording ⟨index, carries, handed⟩ single
  have first := single.firstSequence
  have handled := handle_cases (stored.contiguous payload.frame.run) known single
  generalize result : handleRunTraceEvents server system.logs payload.frame = outcome at handled
  cases handled with
  | rejected error refused =>
    refine ⟨_, _, rfl, advances_unchanged sound trace ?_, fun acked none => by cases none⟩
    intro storable next
    -- The next event of a storable run is accepted.
    have place : position = (system.logs payload.frame.run).length := by omega
    rcases storable_accepted storable (stored.contiguous _) (stored.mirrors _)
      (place ▸ located) (by rw [single.sequence, ← first, next]; rfl) with ⟨accepted, taken⟩
    rw [taken] at refused
    cases refused
  | duplicate stale =>
    refine ⟨_, _, rfl, advances_unchanged sound trace fun _ => by omega, ?_⟩
    intro acked own
    cases own
    exact stale
  | appended normalized valid next kept =>
    have place : position = (system.logs payload.frame.run).length := by omega
    have mirrors := mirrors_append (stored.mirrors payload.frame.run) (place ▸ located) valid
    refine ⟨_, _, rfl, advances_appended sound trace kept mirrors (by omega) (by omega), ?_⟩
    intro acked own
    cases own
    rw [update_self, length_append, length_singleton]
    omega

variable {trajectories : String → Trajectory.RunTrajectory} {scheduled handed : List Frame}
  {recorded : String → List Json} {client next : Client} {flight : List Payload}
  {logs : String → List RunTrace.TraceRow}

theorem Recording.record (recording : Recording server trajectories scheduled recorded handed)
    (named : runUuid ≠ "") (known : server.parseUuid runUuid = some runUuid)
    {result : Trajectory.Recorded} (numbers : Trajectory.Numbers (trajectories runUuid) result) :
    Recording server (Function.update trajectories runUuid result.trajectory)
      (scheduled ++ result.events.map (traceFrame runUuid))
      (Function.update recorded runUuid (recorded runUuid ++ result.events)) handed where
  frames := by
    intro frame member trace
    rw [← append_assoc] at member
    rcases mem_append.mp member with old | new
    · exact recording.frames frame old trace
    · obtain ⟨event, emitted, rfl⟩ := mem_map.mp new
      obtain ⟨number, sequence⟩ := numbers.event_sequence event emitted
      exact ⟨known, event, number, traceFrame_single named sequence⟩
  scheduledTrace := by
    intro frame member
    rcases mem_append.mp member with old | new
    · exact recording.scheduledTrace frame old
    · obtain ⟨event, -, rfl⟩ := mem_map.mp new
      rfl
  order := by
    intro other
    rw [← append_assoc, eventsOf_append, ← recording.order, eventsOf_traceFrames]
    by_cases same : runUuid = other
    · subst same
      rw [update_self, if_pos rfl]
    · rw [update_of_ne (Ne.symm same), if_neg same, append_nil]
  numbering := by
    intro other
    by_cases same : other = runUuid
    · subst same
      rw [update_self, Trajectory.sequences_append, recording.numbering, numbers.events,
        recording.cursor, length_append, Trajectory.numbered_append, Nat.add_comm 1]
    · rw [update_of_ne same]
      exact recording.numbering other
  cursor := by
    intro other
    by_cases same : other = runUuid
    · subst same
      rw [update_self, update_self, numbers.cursor, recording.cursor,
        length_append]
    · rw [update_of_ne same, update_of_ne same]
      exact recording.cursor other

theorem Recording.callback {rest : List Frame}
    (recording : Recording server trajectories (frame :: rest) recorded handed) :
    Recording server trajectories rest recorded (handed ++ [frame]) where
  frames := by
    intro other member trace
    rw [append_assoc] at member
    exact recording.frames other member trace
  scheduledTrace := fun other member =>
    recording.scheduledTrace other (mem_cons_of_mem _ member)
  order := by
    intro runUuid
    rw [append_assoc]
    exact recording.order runUuid
  numbering := recording.numbering
  cursor := recording.cursor

theorem eventsOf_plain (plain : frame.isTrace = false) (runUuid : String) :
    eventsOf runUuid (handed ++ [frame]) = eventsOf runUuid handed := by
  rw [eventsOf_append, eventsOf_other (by simp [tracesRun, plain]), append_nil]

theorem Recording.other (plain : frame.isTrace = false)
    (recording : Recording server trajectories scheduled recorded handed) :
    Recording server trajectories scheduled recorded (handed ++ [frame]) where
  frames := by
    intro other member trace
    rcases mem_append.mp member with old | later
    · rcases mem_append.mp old with old | new
      · exact recording.frames other (mem_append_left _ old) trace
      · rw [mem_singleton.mp new, plain] at trace
        cases trace
    · exact recording.frames other (mem_append_right _ later) trace
  scheduledTrace := recording.scheduledTrace
  order := by
    intro runUuid
    rw [eventsOf_append, eventsOf_plain plain, ← eventsOf_append]
    exact recording.order runUuid
  numbering := recording.numbering
  cursor := recording.cursor

theorem Held.kept (held : Held client flight logs handed) (kept : TraceKept client next) :
    Held next flight logs handed where
  plain := kept.plain
  sound := ⟨fun payload member trace =>
      held.sound.queued payload (kept.queued payload member trace) trace,
    kept.pending ▸ held.sound.pending⟩
  flying := held.flying
  unacked := kept.pending ▸ held.unacked

theorem Held.other (plain : frame.isTrace = false) (held : Held client flight logs handed) :
    Held client flight logs (handed ++ [frame]) where
  plain := held.plain
  sound := by
    refine ⟨?_, ?_⟩
    · intro payload member trace
      obtain ⟨genuine, single⟩ := held.sound.queued payload member trace
      exact ⟨genuine.grow _, single⟩
    · intro entry member
      obtain ⟨genuine, single⟩ := held.sound.pending entry member
      exact ⟨genuine.grow _, single⟩
  flying := by
    intro payload member trace
    obtain ⟨genuine, single⟩ := held.flying payload member trace
    exact ⟨genuine.grow _, single⟩
  unacked := by
    intro runUuid number above below
    rw [eventsOf_plain plain] at below
    exact held.unacked runUuid number above below

theorem Held.trace (now : String) (held : Held client flight logs handed)
    (single : Single frame event (((eventsOf frame.run handed).length + 1 : Nat) : Int))
    (room : client.pendingTraceFrames.length < client.outboxMax) :
    Held (enqueue now client ⟨[handed.length], frame⟩) flight logs (handed ++ [frame]) := by
  rcases enqueue_trace now (show Single (Payload.mk [handed.length] frame).frame event _ from
      single) held.plain room with
    ⟨-, plain, queued, pending⟩
  have own : Genuine (handed ++ [frame]) ⟨[handed.length], frame⟩ :=
    ⟨handed.length, rfl, by simp⟩
  refine ⟨plain, ⟨?_, ?_⟩, ?_, ?_⟩
  · intro payload member trace
    rcases queued payload member trace with rfl | old
    · exact ⟨own, event, _, single⟩
    · obtain ⟨genuine, carried⟩ := held.sound.queued payload old trace
      exact ⟨genuine.grow _, carried⟩
  · intro entry member
    rcases (pending entry).mp member with rfl | ⟨old, -⟩
    · exact ⟨own, rfl, event, single⟩
    · obtain ⟨genuine, carried⟩ := held.sound.pending entry old
      exact ⟨genuine.grow _, carried⟩
  · intro payload member trace
    obtain ⟨genuine, carried⟩ := held.flying payload member trace
    exact ⟨genuine.grow _, carried⟩
  · intro runUuid number above below
    by_cases newest : runUuid = frame.run ∧ number = (eventsOf frame.run handed).length + 1
    · obtain ⟨rfl, rfl⟩ := newest
      exact ⟨_, (pending _).mpr (.inl rfl)⟩
    · have earlier : number ≤ (eventsOf runUuid handed).length := by
        rw [eventsOf_append, length_append] at below
        by_cases same : runUuid = frame.run
        · subst same
          rw [eventsOf_single single, length_singleton] at below
          have apart : number ≠ (eventsOf frame.run handed).length + 1 :=
            fun equal => newest ⟨rfl, equal⟩
          omega
        · rw [eventsOf_other (by simp [tracesRun, Ne.symm same])] at below
          exact below
      obtain ⟨payload, member⟩ := held.unacked runUuid number above earlier
      refine ⟨payload, (pending _).mpr (.inr ⟨member, ?_⟩)⟩
      intro same
      simp only [Prod.mk.injEq] at same
      exact newest ⟨same.1, by omega⟩

theorem sentFrame_trace (trace : (sentFrame now payload).frame.isTrace = true) :
    sentFrame now payload = payload := by
  unfold sentFrame at trace ⊢
  split
  · rename_i terminal
    rw [if_pos terminal] at trace
    have type := isTrace_type trace
    simp only [terminal] at type
    exact absurd type (by decide)
  · rfl

theorem mem_transmit {reached : Bool} {other : Payload}
    (member : other ∈ transmit system reached payload) :
    other = payload ∨ other ∈ system.network := by
  unfold transmit at member
  split at member
  · rcases mem_append.mp member with old | new
    · exact .inr old
    · exact .inl (mem_singleton.mp new)
  · exact .inr member

theorem Held.fly {smaller : List Payload} (held : Held client flight logs handed)
    (inside : ∀ payload ∈ smaller, payload.frame.isTrace = true → payload ∈ flight) :
    Held client smaller logs handed :=
  ⟨held.plain, held.sound,
    fun payload member trace => held.flying payload (inside payload member trace) trace,
    held.unacked⟩

theorem Storable.shorter {front back : List Json}
    (storable : Storable server runUuid (front ++ back)) : Storable server runUuid front :=
  ⟨storable.assigned, fun event member => storable.valid event (mem_append_left _ member),
    fun event one other two => storable.ownId event (mem_append_left _ one) other
      (mem_append_left _ two)⟩

theorem Mirrors.longer {backend : RunTrace.Backend} {front : List Json}
    (mirrors : Mirrors backend log front) (back : List Json) :
    Mirrors backend log (front ++ back) := by
  intro index row found
  obtain ⟨event, normalized, located, rest⟩ := mirrors index row found
  obtain ⟨inside, -⟩ := List.getElem?_eq_some_iff.mp located
  exact ⟨event, normalized, by rwa [List.getElem?_append_left inside], rest⟩

theorem Stored.record {acks : List (String × Int)} (stored : Stored server logs recorded handed acks)
    (runUuid : String) (events : List Json) :
    Stored server logs (Function.update recorded runUuid (recorded runUuid ++ events)) handed
      acks := by
  refine ⟨stored.contiguous, ?_, stored.within, stored.acked⟩
  intro other
  by_cases same : other = runUuid
  · subst same
    rw [update_self]
    exact (stored.mirrors other).longer events
  · rw [update_of_ne same]
    exact stored.mirrors other

theorem Progress.record {restoredFrom : String → Nat} {processed : List Payload}
    (progress : Progress server logs recorded restoredFrom processed) (runUuid : String)
    (events : List Json) :
    Progress server logs (Function.update recorded runUuid (recorded runUuid ++ events))
      restoredFrom processed := by
  intro other storable
  by_cases same : other = runUuid
  · subst same
    rw [update_self] at storable
    exact progress other storable.shorter
  · rw [update_of_ne same] at storable
    exact progress other storable

theorem record_sound {runtime : Trajectory.Runtime} {operation : Trajectory.Operation}
    (sound : Sound server system) (named : runUuid ≠ "")
    (known : server.parseUuid runUuid = some runUuid) :
    let result := Trajectory.perform runtime (system.trajectories runUuid) operation
    Sound server { system with
      trajectories := Function.update system.trajectories runUuid result.trajectory
      recorded := Function.update system.recorded runUuid
        (system.recorded runUuid ++ result.events)
      scheduled := system.scheduled ++ result.events.map (traceFrame runUuid) } := by
  have numbers := Trajectory.perform_numbers runtime (system.trajectories runUuid) operation
  exact ⟨sound.recording.record named known numbers, sound.held, sound.stored.record runUuid _,
    sound.restored, sound.progress.record runUuid _⟩

theorem callback_sound {rest : List Frame} (sound : Sound server system)
    (scheduled : system.scheduled = frame :: rest)
    (room : system.client.pendingTraceFrames.length < system.client.outboxMax) :
    Sound server (handOver now { system with scheduled := rest } frame) := by
  have recording := sound.recording
  rw [scheduled] at recording
  have trace := recording.scheduledTrace frame (mem_cons_self ..)
  obtain ⟨-, event, number, single⟩ :=
    recording.frames frame (mem_append_right _ (mem_cons_self ..)) trace
  -- The next event of the run, by the order of hand-overs.
  have located : (system.recorded frame.run)[(eventsOf frame.run system.handed).length]? =
      some event := by
    rw [recording.order, ← singleton_append, eventsOf_append, eventsOf_append,
      eventsOf_single single]
    simp
  have numbered := sequences_at (recording.numbering frame.run) located single.sequence
  rw [numbered] at single
  refine ⟨recording.callback, sound.held.trace now single room,
    ⟨sound.stored.contiguous, sound.stored.mirrors, ?_, sound.stored.acked⟩, sound.restored,
    sound.progress⟩
  intro runUuid
  rw [handOver, eventsOf_append, length_append]
  exact (sound.stored.within runUuid).trans (Nat.le_add_right _ _)

theorem enqueue_sound (sound : Sound server system) (plain : frame.isTrace = false) :
    Sound server (handOver now system frame) := by
  have kept := enqueue_kept now
    (show (Payload.mk [system.handed.length] frame).frame.isTrace = false from plain)
    sound.held.plain
  refine ⟨sound.recording.other plain, (sound.held.other plain).kept kept,
    ⟨sound.stored.contiguous, sound.stored.mirrors, ?_, sound.stored.acked⟩, sound.restored,
    sound.progress⟩
  intro runUuid
  rw [handOver, eventsOf_plain plain]
  exact sound.stored.within runUuid

theorem connect_sound (sound : Sound server system) : Sound server { system with
      client := onConnected system.client
      connected := true
      sendLoop := .ready
      restored := (onConnected system.client).outbox
      restoredFrom := fun runUuid => (system.logs runUuid).length
      restoredCount := fun runUuid => (eventsOf runUuid system.handed).length
      processed := [] } := by
  have held := sound.held
  refine ⟨sound.recording, ⟨onConnected_plain held.plain, onConnected_sound held.sound held.plain,
    ?_, held.unacked⟩, sound.stored, ⟨onConnected_ascending held.sound held.plain, ?_⟩,
    fun _ _ => rfl⟩
  · intro payload member trace
    exact held.flying payload (mem_append_right _ member) trace
  · intro runUuid number above below
    obtain ⟨payload, member⟩ := held.unacked runUuid number above below
    exact onConnected_covers held.sound held.plain member

theorem receive_sound (sound : Sound server system)
    (located : system.network[index]? = some payload) (trace : payload.frame.isTrace = true) :
    let handled := handleRunTraceEvents server system.logs payload.frame
    Sound server { system with
      network := system.network.eraseIdx index
      logs := handled.1
      acks := system.acks ++ handled.2.toList
      processed := system.processed ++ [payload] } := by
  have flying := mem_append_right system.sendLoop.inFlight (mem_of_getElem? located)
  obtain ⟨logs, ack, handled, advances, acked⟩ :=
    receive_advances sound trace (sound.held.flying payload flying trace).1
  simp only [handled]
  refine ⟨sound.recording, ⟨sound.held.plain, sound.held.sound, ?_, ?_⟩,
    ⟨advances.contiguous, advances.mirrors, advances.within, ?_⟩, sound.restored, ?_⟩
  · intro other member trace
    refine sound.held.flying other ?_ trace
    rcases mem_append.mp member with loop | network
    · exact mem_append_left _ loop
    · exact mem_append_right _ (mem_of_mem_eraseIdx network)
  · intro runUuid number above below
    exact sound.held.unacked runUuid number ((advances.grows runUuid).trans_lt above) below
  · intro other member
    rcases mem_append.mp member with old | new
    · have longer := advances.grows other.1
      exact (sound.stored.acked other old).trans (Int.ofNat_le.mpr longer)
    · exact acked other (Option.mem_toList.mp new)
  · intro runUuid storable
    rw [advances.moves runUuid storable, sound.progress runUuid storable, filter_append, map_append,
      foldl_append]

theorem receiveAck_sound {lastSequence : Int} (sound : Sound server system)
    (located : system.acks[index]? = some (runUuid, lastSequence)) : Sound server { system with
      client := handleRunTraceEventsAck system.client runUuid lastSequence
      acks := system.acks.eraseIdx index } := by
  have bounded := sound.stored.acked _ (mem_of_getElem? located)
  have held := sound.held
  refine ⟨sound.recording, ⟨⟨held.plain.buffered, held.plain.terminal, held.plain.datasource⟩,
    ⟨held.sound.queued, ?_⟩, held.flying, ?_⟩,
    ⟨sound.stored.contiguous, sound.stored.mirrors, sound.stored.within, ?_⟩, sound.restored,
    sound.progress⟩
  · intro entry member
    exact held.sound.pending entry (OrderedDict.mem_filterKeys.mp member).1
  · intro other number above below
    obtain ⟨payload, member⟩ := held.unacked other number above below
    refine ⟨payload, OrderedDict.mem_filterKeys.mpr ⟨member, ?_⟩⟩
    simp only [decide_eq_true_eq, not_and, Int.not_le]
    rintro rfl
    exact bounded.trans_lt (Int.ofNat_lt.mpr above)
  · intro ack member
    exact sound.stored.acked ack (mem_of_mem_eraseIdx member)

theorem flight_sound (sound : Sound server system) (connected : Bool) (loop : SendLoop)
    (network : List Payload)
    (inside : ∀ payload ∈ loop.inFlight ++ network, payload.frame.isTrace = true →
      payload ∈ system.sendLoop.inFlight ++ system.network) : Sound server { system with
      connected := connected
      sendLoop := loop
      network := network } :=
  ⟨sound.recording, sound.held.fly inside, sound.stored, sound.restored, sound.progress⟩

theorem pop_sound {rest : List Payload} (sound : Sound server system)
    (queue : system.client.outbox = payload :: rest) : Sound server { system with
      client := { system.client with outbox := rest }
      sendLoop := .awaiting payload } := by
  have held := sound.held
  refine ⟨sound.recording, ⟨⟨held.plain.buffered, held.plain.terminal, held.plain.datasource⟩,
    ⟨?_, held.sound.pending⟩, ?_, held.unacked⟩, sound.stored, sound.restored, sound.progress⟩
  · intro other member
    exact held.sound.queued other (queue ▸ mem_cons_of_mem _ member)
  · intro other member trace
    rcases mem_append.mp member with loop | network
    · rw [mem_singleton.mp loop] at trace ⊢
      exact held.sound.queued payload (queue ▸ mem_cons_self ..) trace
    · exact held.flying other (mem_append_right _ network) trace

theorem requeue_sound (reached : Bool) (sound : Sound server system)
    (loop : system.sendLoop = .awaiting payload) : Sound server { system with
      client := requeue system.client payload
      sendLoop := .stopped
      network := transmit system reached payload } := by
  have held := sound.held
  have own : payload ∈ system.sendLoop.inFlight ++ system.network := by
    rw [loop]
    exact mem_cons_self ..
  refine ⟨sound.recording, ⟨⟨held.plain.buffered, held.plain.terminal, held.plain.datasource⟩,
    ⟨?_, held.sound.pending⟩, ?_, held.unacked⟩, sound.stored, sound.restored, sound.progress⟩
  · intro other member trace
    rcases mem_cons.mp member with rfl | old
    · exact held.flying other own trace
    · exact held.sound.queued other old trace
  · intro other member trace
    rcases mem_append.mp member with stopped | network
    · cases stopped
    · rcases mem_transmit network with rfl | old
      · exact held.flying other own trace
      · exact held.flying other (mem_append_right _ old) trace

theorem sent_sound (now : String) (sound : Sound server system)
    (loop : system.sendLoop = .awaiting payload) : Sound server { system with
      sendLoop := .ready
      network := system.network ++ [sentFrame now payload] } := by
  apply flight_sound sound system.connected
  intro other member trace
  rw [loop]
  rcases mem_append.mp member with ready | network
  · cases ready
  · rcases mem_append.mp network with old | new
    · exact mem_append_right _ old
    · rw [mem_singleton.mp new] at trace ⊢
      rw [sentFrame_trace trace]
      exact mem_cons_self ..

theorem disconnect_sound (reached : Bool) (sound : Sound server system) : Sound server { system with
      connected := false
      sendLoop := .stopped
      network := match system.sendLoop with
        | .awaiting payload => transmit system reached payload
        | _ => system.network } := by
  apply flight_sound sound
  intro other member trace
  rcases mem_append.mp member with stopped | network
  · cases stopped
  · split at network
    · rename_i payload loop
      rw [loop]
      rcases mem_transmit network with rfl | old
      · exact mem_cons_self ..
      · exact mem_append_right _ old
    · exact mem_append_right _ network

theorem lost_sound (index : Nat) (sound : Sound server system) :
    Sound server { system with network := system.network.eraseIdx index } := by
  apply flight_sound sound system.connected
  intro other member trace
  rcases mem_append.mp member with loop | network
  · exact mem_append_left _ loop
  · exact mem_append_right _ (mem_of_mem_eraseIdx network)

theorem loseAck_sound (index : Nat) (sound : Sound server system) :
    Sound server { system with acks := system.acks.eraseIdx index } := by
  refine ⟨sound.recording, sound.held, ⟨sound.stored.contiguous, sound.stored.mirrors,
    sound.stored.within, ?_⟩, sound.restored, sound.progress⟩
  intro ack member
  exact sound.stored.acked ack (mem_of_mem_eraseIdx member)

theorem step_sound {next : System} {action : Action} (sound : Sound server system)
    (bounded : KeysBounded system action) (taken : step server system action = some next) :
    Sound server next := by
  cases action with
  | record runtime runUuid operation =>
    simp only [step] at taken
    split at taken
    · rename_i dispatched
      cases taken
      exact record_sound sound dispatched.1 dispatched.2
    · cases taken
  | runCallback now =>
    simp only [step] at taken
    split at taken
    · cases taken
    · rename_i frame rest scheduled
      cases taken
      exact callback_sound sound scheduled (of_decide_eq_true bounded)
  | enqueue now frame =>
    simp only [step] at taken
    split at taken
    · cases taken
    · rename_i plain
      cases taken
      exact enqueue_sound sound (Bool.eq_false_iff.mpr plain)
  | flushTimer now =>
    cases taken
    have held := sound.held
    exact ⟨sound.recording, held.kept (flushBufferedOutput_kept now held.plain), sound.stored,
      sound.restored, sound.progress⟩
  | connect =>
    simp only [step] at taken
    split at taken
    · cases taken
    · cases taken
      exact connect_sound sound
  | pop =>
    simp only [step] at taken
    split at taken
    · rename_i payload rest loop queue
      cases taken
      exact pop_sound sound queue
    · cases taken
  | sendSucceeds now =>
    simp only [step] at taken
    split at taken
    · rename_i payload loop
      cases taken
      exact sent_sound now sound loop
    · cases taken
  | sendRaises reached =>
    simp only [step] at taken
    split at taken
    · rename_i payload loop
      cases taken
      exact requeue_sound reached sound loop
    · cases taken
  | disconnect reached =>
    simp only [step] at taken
    split at taken
    · cases taken
      exact disconnect_sound reached sound
    · cases taken
  | lose index =>
    cases taken
    exact lost_sound index sound
  | receive index =>
    simp only [step] at taken
    split at taken
    · cases taken
    · rename_i payload located
      split at taken
      · rename_i trace
        cases taken
        exact receive_sound sound located trace
      · cases taken
        exact lost_sound index sound
  | loseAck index =>
    cases taken
    exact loseAck_sound index sound
  | receiveAck index =>
    simp only [step] at taken
    split at taken
    · cases taken
    · rename_i runUuid lastSequence located
      cases taken
      exact receiveAck_sound sound located

theorem delivered_stored (sound : Sound server system)
    (storable : Storable server runUuid (system.recorded runUuid))
    (delivered : FullyDelivered system runUuid) :
    system.restoredCount runUuid ≤ (system.logs runUuid).length := by
  rw [sound.progress runUuid storable]
  have filtered := delivered.filter (traceOf runUuid)
  rw [filter_filter] at filtered
  simp only [Bool.and_self] at filtered
  exact Cursor.advance_covers (filtered.map firstSequence) (sound.restored.ascending runUuid)
    (sound.restored.covers runUuid)

theorem Sound.delivered (sound : Sound server system) (runUuid : String) :
    Delivered server system runUuid where
  events := sound.stored.mirrors runUuid
  sequences := (sound.stored.contiguous runUuid).sequences
  recorded := by
    rw [sound.recording.order, eventsOf_append, length_append]
    exact (sound.stored.within runUuid).trans (Nat.le_add_right _ _)
  confirmed := fun lastSequence member => sound.stored.acked (runUuid, lastSequence) member
  acknowledged := by
    intro number handed removed
    by_contra short
    obtain ⟨payload, member⟩ := sound.held.unacked runUuid number (Nat.lt_of_not_ge short) handed
    exact removed payload member
  delivered := delivered_stored sound

/-- Over every run of records, sends, losses, drops, rejections, acknowledgements and
reconnects within the bound on unacknowledged keys. -/
theorem trajectory_delivered (server : Server) (outboxMax outboxSoftLimit : Nat)
    (actions : List Action) (finish : System)
    (run : Steps (step server) KeysBounded (.new outboxMax outboxSoftLimit) actions finish)
    (runUuid : String) : Delivered server finish runUuid :=
  (run.invariant (Sound server)
    (fun _ _ _ sound bounded taken => step_sound sound bounded taken)
    (new_sound server outboxMax outboxSoftLimit)).delivered runUuid

def sampleRun : String := "00000000-0000-0000-0000-000000000001"

/-- A server that knows the run; UUID texts of the node are the server's own. -/
def sampleServer : Server where
  backend := RunTrace.sampleBackend
  lensnodeUuid := "n"
  runRow := fun _ => some ⟨some "n"⟩
  parseUuid := fun text => if (PyText.uuidOfStr text).isSome then some text else none

def sampleRuntime : Trajectory.Runtime where
  uuid4 := fun sequence => String.ofList ((List.range 32).map fun index =>
    if index < sequence then '1' else '0')
  utcNow := fun _ => "2026-01-01T00:00:00Z"
  describe := fun _ => ""
  spans := []

def sampleRecord (eventType : String) (callId : Option String) : Action :=
  .record sampleRuntime sampleRun (.record { eventType := eventType, callId := callId })

/-- The first of two events is sent and lost with its connection, the second is
queued while there is none; both are restored, stored and acknowledged. -/
def deliveryRun : List Action :=
  [.connect, sampleRecord "model.progress" none, .runCallback "t0", .pop, .sendSucceeds "t1",
    .lose 0, sampleRecord "model.progress" none, .disconnect false, .runCallback "t2", .connect,
    .pop, .sendSucceeds "t3", .pop, .sendSucceeds "t4", .receive 0, .receive 0, .receiveAck 1]

theorem trajectory_delivered_run :
    ∃ finish, Steps (step sampleServer) KeysBounded (.new 10000 1000) deliveryRun finish ∧
      (finish.logs sampleRun).length = 2 ∧ finish.client.pendingTraceFrames.length = 0 ∧
      FullyDelivered finish sampleRun ∧ Delivered sampleServer finish sampleRun := by
  have executed : (execGuarded (step sampleServer) KeysBounded (.new 10000 1000)
      deliveryRun).any (fun finish => decide ((finish.logs sampleRun).length = 2 ∧
        finish.client.pendingTraceFrames.length = 0 ∧
        (finish.restored.filter (traceOf sampleRun)).Sublist finish.processed)) = true := by
    decide +kernel
  obtain ⟨finish, reached, facts⟩ := (Option.any_eq_true _ _).mp executed
  obtain ⟨stored, pending, delivered⟩ := of_decide_eq_true facts
  have run := execGuarded_steps reached
  exact ⟨finish, run, stored, pending, delivered,
    trajectory_delivered sampleServer 10000 1000 deliveryRun finish run sampleRun⟩

/-- A call ID of 129 characters: the server refuses the event however often the
restored outbox delivers it. -/
theorem refused_event_never_stored :
    ¬ ∀ (server : Server) (outboxMax outboxSoftLimit : Nat) (actions : List Action)
      (finish : System), Steps (step server) KeysBounded (.new outboxMax outboxSoftLimit) actions
        finish → ∀ runUuid, FullyDelivered finish runUuid →
          finish.restoredCount runUuid ≤ (finish.logs runUuid).length := by
  intro always
  have executed : (execGuarded (step sampleServer) KeysBounded (.new 10000 1000)
      [.connect, sampleRecord "tool.progress" (some (String.ofList (List.replicate 129 'x'))),
        .runCallback "t0", .disconnect false, .connect, .pop, .sendSucceeds "t1",
        .receive 0]).any (fun finish =>
      decide ((finish.restored.filter (traceOf sampleRun)).Sublist finish.processed ∧
        (finish.logs sampleRun).length < finish.restoredCount sampleRun)) = true := by
    decide +kernel
  obtain ⟨finish, reached, facts⟩ := (Option.any_eq_true _ _).mp executed
  obtain ⟨delivered, short⟩ := of_decide_eq_true facts
  exact Nat.not_le.mpr short
    (always sampleServer 10000 1000 _ finish (execGuarded_steps reached) sampleRun delivered)

end SourceLens.TraceDelivery
