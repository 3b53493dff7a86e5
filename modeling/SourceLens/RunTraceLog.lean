import SourceLens.RunTrace

/-! The persisted trajectory of one run over every sequence of append calls. -/

namespace SourceLens.RunTrace

open List

variable {log after rows existing : List TraceRow} {normalized pending : List NormalizedEvent}
  {row : TraceRow} {result : AppendResult} {item event : NormalizedEvent} {index value : Nat}
  {key : TraceRow → Nat} {events : Json}

theorem lastBy_some (found : lastBy key rows value = some row) : row ∈ rows ∧ key row = value := by
  have member := mem_of_getLast? found
  simpa using mem_filter.mp member

theorem lastBy_none (missing : lastBy key rows value = none) : ∀ row ∈ rows, key row ≠ value := by
  intro row member same
  have empty := List.getLast?_eq_none_iff.mp missing
  have inside : row ∈ rows.filter fun other => key other = value :=
    mem_filter.mpr ⟨member, by simpa using same⟩
  rw [empty] at inside
  cases inside

theorem lastBy_unique (distinct : (rows.map key).Nodup) (member : row ∈ rows) :
    lastBy key rows (key row) = some row := by
  cases found : lastBy key rows (key row) with
  | none => exact absurd rfl (lastBy_none found row member)
  | some other =>
    obtain ⟨inside, same⟩ := lastBy_some found
    rw [inj_on_of_nodup_map distinct inside member same]

theorem mem_existingRows (member : row ∈ log) (listed : item ∈ normalized)
    (same : row.eventId = item.eventId ∨ row.sequence = item.sequence) :
    row ∈ existingRows log normalized := by
  refine mem_filter.mpr ⟨member, ?_⟩
  simp only [Bool.or_eq_true, contains_iff_mem, mem_map]
  rcases same with same | same
  · exact .inl ⟨item, listed, same.symm⟩
  · exact .inr ⟨item, listed, same.symm⟩

theorem eventMatches_eventId (matched : eventMatches row item = true) :
    row.eventId = item.eventId := by
  simp only [eventMatches, Bool.and_eq_true, beq_iff_eq] at matched
  exact matched.1.1.1.1.1.1.1.1.1.1

theorem eventMatches_sequence (matched : eventMatches row item = true) :
    row.sequence = item.sequence := by
  simp only [eventMatches, Bool.and_eq_true, beq_iff_eq] at matched
  exact matched.1.1.1.1.1.1.1.1.1.2

theorem eventMatches_stored (item : NormalizedEvent) (pk : Nat) :
    eventMatches { item.toTraceEvent with pk := pk } item = true := by
  simp [eventMatches]

theorem sortItems_cons {rest : List NormalizedEvent} {duplicates : Nat}
    (sorted : sortItems existing (item :: rest) = .ok (duplicates, pending)) :
    (byEventId existing item.eventId = none ∧ ∃ later,
        sortItems existing rest = .ok (duplicates, later) ∧ pending = item :: later) ∨
      ∃ row count, byEventId existing item.eventId = some row ∧ eventMatches row item = true ∧
        sortItems existing rest = .ok (count, pending) := by
  simp only [sortItems] at sorted
  split at sorted
  · rename_i byId byCursor
    cases tail : sortItems existing rest with
    | error error => simp [tail, bind, Except.bind] at sorted
    | ok result =>
      simp only [tail, bind, Except.bind, Except.ok.injEq, Prod.mk.injEq] at sorted
      obtain ⟨rfl, rfl⟩ := sorted
      exact .inl ⟨byId, result.2, rfl, rfl⟩
  · rename_i row cursorRow byId byCursor
    split at sorted
    · rename_i same
      cases tail : sortItems existing rest with
      | error error => simp [tail, bind, Except.bind] at sorted
      | ok result =>
        simp only [tail, bind, Except.bind, Except.ok.injEq, Prod.mk.injEq] at sorted
        obtain ⟨-, rfl⟩ := sorted
        exact .inr ⟨row, result.1, byId, same.2, rfl⟩
    · cases sorted
  · cases sorted

theorem sortItems_ok {items : List NormalizedEvent} {duplicates : Nat}
    (sorted : sortItems existing items = .ok (duplicates, pending)) : pending.Sublist items ∧
      (∀ item ∈ pending, byEventId existing item.eventId = none) ∧
      ∀ item ∈ items, item ∈ pending ∨ ∃ row ∈ existing, eventMatches row item = true := by
  induction items generalizing duplicates pending with
  | nil =>
    cases sorted
    simp
  | cons item rest ih =>
    rcases sortItems_cons sorted with ⟨byId, later, tail, rfl⟩ | ⟨row, count, byId, same, tail⟩
    · obtain ⟨sublist, fresh, covered⟩ := ih tail
      refine ⟨sublist.cons_cons item, ?_, ?_⟩
      · intro other member
        rcases mem_cons.mp member with rfl | inside
        · exact byId
        · exact fresh other inside
      · intro other member
        rcases mem_cons.mp member with rfl | inside
        · exact .inl mem_cons_self
        · rcases covered other inside with inPending | stored
          · exact .inl (mem_cons_of_mem _ inPending)
          · exact .inr stored
    · obtain ⟨sublist, fresh, covered⟩ := ih tail
      refine ⟨sublist.cons item, fresh, ?_⟩
      intro other member
      rcases mem_cons.mp member with rfl | inside
      · exact .inr ⟨row, (lastBy_some byId).1, same⟩
      · exact covered other inside

theorem sortItems_duplicates {items : List NormalizedEvent}
    (stored : ∀ item ∈ items, ∃ row, byEventId existing item.eventId = some row ∧
      bySequence existing item.sequence = some row ∧ eventMatches row item = true) :
    sortItems existing items = .ok (items.length, []) := by
  induction items with
  | nil => rfl
  | cons item rest ih =>
    obtain ⟨row, byId, byCursor, matched⟩ := stored item (mem_cons_self ..)
    have tail := ih fun other member => stored other (mem_cons_of_mem _ member)
    simp only [sortItems, byId, byCursor, matched, and_self, if_true, tail, bind, Except.bind,
      length_cons]

/-- The stored sequences are exactly `1..N`, the stored event IDs distinct. -/
structure Contiguous (log : List TraceRow) : Prop where
  sequences : log.map (·.sequence) = List.range' 1 log.length
  eventIds : (log.map (·.eventId)).Nodup

theorem Contiguous.empty : Contiguous [] :=
  ⟨rfl, nodup_nil⟩

theorem foldl_max_range (start count : Nat) :
    (List.range' (start + 1) count).foldl max start = start + count := by
  induction count generalizing start with
  | zero => rfl
  | succ count ih =>
    rw [List.range'_succ, foldl_cons, Nat.max_eq_right (Nat.le_succ start), ih (start + 1)]
    omega

theorem Contiguous.lastPersistedSequence (contiguous : Contiguous log) :
    lastPersistedSequence log = log.length := by
  rw [RunTrace.lastPersistedSequence, contiguous.sequences, foldl_max_range 0, Nat.zero_add]

theorem Contiguous.sequence_le (contiguous : Contiguous log) (member : row ∈ log) :
    row.sequence ≤ log.length := by
  have mapped : row.sequence ∈ log.map (·.sequence) := mem_map_of_mem member
  rw [contiguous.sequences, mem_range'_1] at mapped
  omega

theorem Contiguous.sequence_at (contiguous : Contiguous log) (located : log[index]? = some row) :
    row.sequence = index + 1 := by
  obtain ⟨inside, found⟩ := List.getElem?_eq_some_iff.mp located
  have mapped : (log.map (·.sequence))[index]? = some row.sequence := by
    rw [List.getElem?_map, located, Option.map_some]
  rw [contiguous.sequences, List.getElem?_range' inside] at mapped
  have := Option.some.inj mapped
  omega

theorem newRows_map (log : List TraceRow) (pending : List NormalizedEvent)
    (field : TraceEvent → Nat) :
    (newRows log pending).map (fun row => field row.toTraceEvent) =
      pending.map (fun item => field item.toTraceEvent) := by
  rw [newRows, map_map]
  conv_rhs => rw [← zipIdx_map_fst 0 pending, map_map]
  rfl

theorem newRows_length (log : List TraceRow) (pending : List NormalizedEvent) :
    (newRows log pending).length = pending.length := by
  simp [newRows]

structure Extends (log after : List TraceRow) (normalized pending : List NormalizedEvent) :
    Prop where
  sublist : pending.Sublist normalized
  fresh : ∀ item ∈ pending, byEventId (existingRows log normalized) item.eventId = none
  covered : ∀ item ∈ normalized, item ∈ pending ∨
    ∃ row ∈ existingRows log normalized, eventMatches row item = true
  cursor : pending.map (·.sequence) = List.range' (lastPersistedSequence log + 1) pending.length
  extended : after = log ++ newRows log pending

theorem appendNormalized_ok {backend : Backend}
    (appended : appendNormalized backend log normalized = .ok (after, result)) :
    (∃ pending, Extends log after normalized pending) ∧
      result.lastSequence = (normalized.map (·.sequence)).foldl max 0 := by
  simp only [appendNormalized] at appended
  cases sorted : sortItems (existingRows log normalized) normalized with
  | error error => simp [sorted, bind, Except.bind] at appended
  | ok split =>
    obtain ⟨duplicates, pending⟩ := split
    simp only [sorted, bind, Except.bind] at appended
    obtain ⟨sublist, fresh, covered⟩ := sortItems_ok sorted
    split at appended
    · cases appended
    · rename_i cursor
      split at appended
      · cases appended
      · cases appended
        exact ⟨⟨pending, sublist, fresh, covered, not_not.mp cursor, rfl⟩, rfl⟩

theorem Extends.contiguous (extends_ : Extends log after normalized pending)
    (contiguous : Contiguous log) (distinct : (normalized.map (·.eventId)).Nodup) :
    Contiguous after := by
  have cursor := extends_.cursor
  rw [contiguous.lastPersistedSequence] at cursor
  rw [extends_.extended]
  refine ⟨?_, ?_⟩
  · rw [map_append, contiguous.sequences, newRows_map log pending TraceEvent.sequence, cursor,
      length_append, newRows_length, Nat.add_comm log.length 1, List.range'_append_1]
  · rw [map_append, newRows_map log pending TraceEvent.eventId, nodup_append]
    refine ⟨contiguous.eventIds, distinct.sublist (extends_.sublist.map _), ?_⟩
    intro stored inLog pendingId inPending same
    obtain ⟨row, member, rfl⟩ := mem_map.mp inLog
    obtain ⟨item, listed, rfl⟩ := mem_map.mp inPending
    have inNormalized := extends_.sublist.subset listed
    exact lastBy_none (extends_.fresh item listed) row
      (mem_existingRows member inNormalized (.inl same)) same

theorem Extends.stored (extends_ : Extends log after normalized pending) :
    ∀ item ∈ normalized, ∃ row ∈ after, eventMatches row item = true := by
  intro item listed
  rw [extends_.extended]
  rcases extends_.covered item listed with inPending | ⟨row, member, matched⟩
  · obtain ⟨index, inside, located⟩ := getElem_of_mem inPending
    refine ⟨{ item.toTraceEvent with pk := log.length + index }, mem_append_right log ?_,
      eventMatches_stored item _⟩
    refine mem_map.mpr ⟨(item, index), ?_, rfl⟩
    rw [mem_zipIdx_iff_getElem?, List.getElem?_eq_getElem inside, located]
  · exact ⟨row, mem_append_left _ (mem_filter.mp member).1, matched⟩

theorem foldl_max_le {values : List Nat} {start bound : Nat} (first : start ≤ bound)
    (all : ∀ value ∈ values, value ≤ bound) : values.foldl max start ≤ bound := by
  induction values generalizing start with
  | nil => exact first
  | cons value rest ih =>
    exact ih (Nat.max_le.mpr ⟨first, all value (by simp)⟩)
      fun other member => all other (mem_cons_of_mem _ member)

theorem stored_lastSequence (contiguous : Contiguous log)
    (stored : ∀ item ∈ normalized, ∃ row ∈ log, eventMatches row item = true) :
    (normalized.map (·.sequence)).foldl max 0 ≤ log.length := by
  refine foldl_max_le (Nat.zero_le _) ?_
  intro value member
  obtain ⟨item, listed, rfl⟩ := mem_map.mp member
  obtain ⟨row, inLog, matched⟩ := stored item listed
  rw [← eventMatches_sequence matched]
  exact contiguous.sequence_le inLog

theorem appendNormalized_duplicates (backend : Backend) (contiguous : Contiguous log)
    (stored : ∀ item ∈ normalized, ∃ row ∈ log, eventMatches row item = true) :
    appendNormalized backend log normalized =
      .ok (log, ⟨0, normalized.length, (normalized.map (·.sequence)).foldl max 0⟩) := by
  have sequencesDistinct : (log.map (·.sequence)).Nodup :=
    contiguous.sequences ▸ nodup_range'
  have sublist : (existingRows log normalized).Sublist log := filter_sublist
  have sorted : sortItems (existingRows log normalized) normalized =
      .ok (normalized.length, []) := by
    apply sortItems_duplicates
    intro item listed
    obtain ⟨row, member, matched⟩ := stored item listed
    have sameId := eventMatches_eventId matched
    have sameSequence := eventMatches_sequence matched
    have inside := mem_existingRows member listed (.inl sameId)
    refine ⟨row, ?_, ?_, matched⟩
    · rw [← sameId]
      exact lastBy_unique (contiguous.eventIds.sublist (sublist.map _)) inside
    · rw [← sameSequence]
      exact lastBy_unique (sequencesDistinct.sublist (sublist.map _)) inside
  simp [appendNormalized, sorted, bind, Except.bind, newRows]

theorem normalizeEvents_length {backend : Backend} {items : List Json}
    (accepted : normalizeEvents backend items index = .ok normalized) :
    normalized.length = items.length := by
  induction items generalizing index normalized with
  | nil =>
    cases accepted
    rfl
  | cons item rest ih =>
    simp only [normalizeEvents, bind, Except.bind] at accepted
    split at accepted
    · cases accepted
    · split at accepted
      · cases accepted
      · rename_i events tail
        cases accepted
        rw [length_cons, ih tail, length_cons]

def eventCount : Json → Nat
  | .arr items => items.length
  | _ => 0

theorem validateBatch_ok {backend : Backend}
    (accepted : validateBatch backend events = .ok normalized) :
    normalized.length = eventCount events ∧ (normalized.map (·.eventId)).Nodup := by
  unfold validateBatch at accepted
  split at accepted
  · cases accepted
  · rename_i items nonempty
    simp only [bind, Except.bind, invalid] at accepted
    split at accepted
    · cases accepted
    · split at accepted
      · cases accepted
      · rename_i normalizes
        -- The four remaining checks only reject.
        split at accepted
        · cases accepted
        · split at accepted
          · cases accepted
          · split at accepted
            · cases accepted
            · rename_i distinct
              split at accepted
              · cases accepted
              · cases accepted
                exact ⟨normalizeEvents_length normalizes, not_not.mp distinct⟩
  · cases accepted

theorem appendRunTraceEvents_ok {backend : Backend} {run : Option RunRow} {lensnodeUuid : String}
    (accepted : appendRunTraceEvents backend run lensnodeUuid events log = .ok (after, result)) :
    ∃ normalized, validateBatch backend events = .ok normalized ∧
      appendNormalized backend log normalized = .ok (after, result) ∧
      ∀ other, appendRunTraceEvents backend run lensnodeUuid events other =
        appendNormalized backend other normalized := by
  simp only [appendRunTraceEvents, bind, Except.bind] at accepted
  cases valid : validateBatch backend events with
  | error error => simp [valid] at accepted
  | ok normalized =>
    cases assigned : checkAssignment run lensnodeUuid with
    | error error => simp [valid, assigned] at accepted
    | ok assignment =>
      simp only [valid, assigned] at accepted
      refine ⟨normalized, rfl, accepted, ?_⟩
      intro other
      simp [appendRunTraceEvents, bind, Except.bind, valid, assigned]

theorem appendRunTraceEvents_contiguous {backend : Backend} {run : Option RunRow}
    {lensnodeUuid : String} (contiguous : Contiguous log)
    (accepted : appendRunTraceEvents backend run lensnodeUuid events log = .ok (after, result)) :
    Contiguous after ∧ log <+: after := by
  obtain ⟨normalized, valid, appended, -⟩ := appendRunTraceEvents_ok accepted
  obtain ⟨⟨pending, extension⟩, -⟩ := appendNormalized_ok appended
  exact ⟨extension.contiguous contiguous (validateBatch_ok valid).2,
    extension.extended ▸ prefix_append _ _⟩

theorem positiveInt_int {number : Int} {field : String} {maximum : Option Nat}
    (accepted : positiveInt (.int number) field maximum = .ok value) : (value : Int) = number := by
  simp only [positiveInt, pythonInt, bind, Except.bind] at accepted
  split at accepted
  · cases accepted
  · rename_i inside
    cases accepted
    simp only [not_or, Int.not_lt] at inside
    omega

theorem normalizePayload_bytes {backend : Backend} {value : Json} {size : Nat}
    (accepted : normalizePayload backend value index = .ok size) : size ≤ maxEventPayloadBytes := by
  unfold normalizePayload at accepted
  split at accepted
  · split at accepted
    · cases accepted
    · split at accepted
      · cases accepted
      · rename_i inside
        cases accepted
        exact Nat.not_lt.mp inside
  · cases accepted

theorem normalizeEvent_ok {backend : Backend} {item : Json}
    (accepted : normalizeEvent backend item index = .ok event) :
    event.payloadBytes ≤ maxEventPayloadBytes ∧
      ∀ number, item.intField "sequence" = some number → (event.sequence : Int) = number := by
  unfold normalizeEvent at accepted
  split at accepted
  · rename_i fields
    -- Each field either ends the call or yields a value.
    simp only [bind, Except.bind] at accepted
    split at accepted
    · cases accepted
    · split at accepted
      · cases accepted
      · rename_i sequence sequenced
        iterate 3
          split at accepted
          · cases accepted
        split at accepted
        · cases accepted
        · rename_i size sized
          iterate 5
            split at accepted
            · cases accepted
          cases accepted
          refine ⟨normalizePayload_bytes sized, ?_⟩
          intro number found
          simp only [Json.intField] at found
          split at found
          · rename_i value present
            cases found
            simp only [Json.getOrNull, present, Option.getD_some] at sequenced
            exact positiveInt_int sequenced
          · cases found
  · cases accepted

theorem validateBatch_single {backend : Backend} {item : Json} :
    validateBatch backend (.arr [item]) = (normalizeEvent backend item 0).map fun event => [event] := by
  cases normalizes : normalizeEvent backend item 0 with
  | error error => simp [validateBatch, normalizeEvents, normalizes, bind, Except.bind, Except.map,
      maxBatchEvents]
  | ok event =>
    have small : ¬ maxBatchBytes < event.payloadBytes := by
      have := (normalizeEvent_ok normalizes).1
      unfold maxEventPayloadBytes at this
      unfold maxBatchBytes
      omega
    simp [validateBatch, normalizeEvents, normalizes, bind, Except.bind, Except.map,
      maxBatchEvents, small]

theorem append_single {backend : Backend} (contiguous : Contiguous log)
    (appended : appendNormalized backend log [event] = .ok (after, result)) :
    result.lastSequence = event.sequence ∧
      ((after = log ∧ ∃ row ∈ log, eventMatches row event = true) ∨
        (event.sequence = log.length + 1 ∧
          after = log ++ [{ event.toTraceEvent with pk := log.length }])) := by
  obtain ⟨⟨pending, extension⟩, last⟩ := appendNormalized_ok appended
  refine ⟨by simpa using last, ?_⟩
  have cursor := extension.cursor
  rw [contiguous.lastPersistedSequence] at cursor
  have extended := extension.extended
  rcases sublist_cons_iff.mp extension.sublist with none | ⟨later, some_, empty⟩
  · rw [sublist_nil.mp none] at extended
    refine .inl ⟨by simpa [newRows] using extended, ?_⟩
    rcases extension.covered event (mem_singleton_self _) with inside | ⟨row, member, matched⟩
    · rw [sublist_nil.mp none] at inside
      cases inside
    · exact ⟨row, (mem_filter.mp member).1, matched⟩
  · rw [sublist_nil.mp empty] at some_
    subst some_
    refine .inr ⟨by simpa using cursor, by simpa [newRows] using extended⟩

theorem append_next {backend : Backend} (contiguous : Contiguous log)
    (next : event.sequence = log.length + 1) (fresh : ∀ row ∈ log, row.eventId ≠ event.eventId)
    (storable : backend.storable event.toTraceEvent = true) : appendNormalized backend log [event] =
      .ok (log ++ [{ event.toTraceEvent with pk := log.length }], ⟨1, 0, event.sequence⟩) := by
  have missing : existingRows log [event] = [] := by
    rw [existingRows, filter_eq_nil_iff]
    intro row member
    have bound := contiguous.sequence_le member
    have other := fresh row member
    simp only [map_cons, map_nil, contains_cons, contains_nil, Bool.or_false,
      Bool.or_eq_true, beq_iff_eq, not_or]
    exact ⟨other, by omega⟩
  simp [appendNormalized, missing, sortItems, byEventId, bySequence, lastBy, bind, Except.bind,
    contiguous.lastPersistedSequence, next, storable, newRows]

/-- One call of `append_run_trace_events` on the run; the run's row is what it is
at that call, so the assignment may change between calls. -/
structure Call where
  run : Option RunRow
  lensnodeUuid : String
  events : Json

def answer (backend : Backend) (log : List TraceRow) (call : Call) :
    Except AppendError (List TraceRow × AppendResult) :=
  appendRunTraceEvents backend call.run call.lensnodeUuid call.events log

/-- The stored rows after a call: an exception rolls its transaction back. -/
def deliver (backend : Backend) (log : List TraceRow) (call : Call) :
    List TraceRow :=
  match answer backend log call with
  | .ok (after, _) => after
  | .error _ => log

def persisted (backend : Backend) (calls : List Call) : List TraceRow :=
  calls.foldl (deliver backend) []

variable (backend : Backend)

theorem deliver_contiguous (contiguous : Contiguous log) (call : Call) :
    Contiguous (deliver backend log call) ∧ log <+: deliver backend log call := by
  unfold deliver
  split
  · rename_i after result accepted
    exact appendRunTraceEvents_contiguous contiguous accepted
  · exact ⟨contiguous, prefix_rfl⟩

theorem deliveries_contiguous (contiguous : Contiguous log) (calls : List Call) :
    Contiguous (calls.foldl (deliver backend) log) ∧
      log <+: calls.foldl (deliver backend) log := by
  induction calls generalizing log with
  | nil => exact ⟨contiguous, prefix_rfl⟩
  | cons call rest ih =>
    obtain ⟨next, first⟩ := deliver_contiguous backend contiguous call
    obtain ⟨last, later⟩ := ih next
    exact ⟨last, first.trans later⟩

theorem persisted_contiguous (calls : List Call) : Contiguous (persisted backend calls) :=
  (deliveries_contiguous backend Contiguous.empty calls).1

theorem persisted_prefix (earlier later : List Call) :
    persisted backend earlier <+: persisted backend (earlier ++ later) := by
  rw [persisted, persisted, foldl_append]
  exact (deliveries_contiguous backend (persisted_contiguous backend earlier) later).2

theorem accepted_stored {earlier : List Call} {call : Call}
    (appended : appendNormalized backend (persisted backend earlier) normalized =
      .ok (after, result))
    (accepted : answer backend (persisted backend earlier) call = .ok (after, result))
    (later : List Call) : ∀ item ∈ normalized, ∃ row ∈ persisted backend (earlier ++ call :: later),
      eventMatches row item = true := by
  intro item listed
  obtain ⟨⟨pending, extension⟩, -⟩ := appendNormalized_ok appended
  obtain ⟨row, member, matched⟩ := extension.stored item listed
  have next : persisted backend (earlier ++ [call]) = after := by
    simp only [persisted, foldl_append, foldl_cons, foldl_nil]
    rw [← persisted, deliver, accepted]
  have kept : after <+: persisted backend (earlier ++ call :: later) := by
    have extended := persisted_prefix backend (earlier ++ [call]) later
    rwa [next, append_assoc, singleton_append] at extended
  exact ⟨row, kept.subset member, matched⟩

def sampleBackend : Backend where
  parseDatetime := fun text =>
    if text = "2026-01-01T00:00:00Z" then some ⟨1767225600000000, false⟩ else none
  payloadSize := fun payload =>
    if payload.finite then some (payload.encodedSize fun _ => 0) else none
  storable := fun _ => true

end SourceLens.RunTrace
