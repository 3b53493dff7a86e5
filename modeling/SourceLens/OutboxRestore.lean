import SourceLens.Outbox

/-! What `_on_connected` leaves in the outbox. -/

namespace SourceLens.Outbox

open List

variable {payload : Payload} {collected : TraceFrames}
  {entry : (String × List (Option Int)) × Payload} {client : Client}

theorem mem_rebuild {runs : List String} {segment : String → List Payload} (outbox : List Payload)
    (emitted : List String) : payload ∈ rebuild runs segment outbox emitted ↔
      (payload ∈ outbox ∧ payload.frame.isTrace = false) ∨
        ∃ runUuid ∈ runs, runUuid ∉ emitted ∧ payload ∈ segment runUuid := by
  induction outbox generalizing emitted with
  | nil => simp [rebuild, and_assoc]
  | cons head rest ih =>
    have own : payload ∈ (if head.frame.isTrace then [] else [head]) ↔
        payload = head ∧ payload.frame.isTrace = false := by
      cases trace : head.frame.isTrace with
      | true =>
        simp only [if_true, not_mem_nil, false_iff, not_and]
        rintro rfl
        simp [trace]
      | false =>
        simp only [Bool.false_eq_true, if_false, mem_singleton]
        exact ⟨fun same => ⟨same, same ▸ trace⟩, fun both => both.1⟩
    simp only [rebuild]
    split
    · rename_i fresh
      simp only [mem_append, own, ih, mem_cons, not_or]
      constructor
      · intro emits
        rcases emits with
          (inside | ⟨rfl, plain⟩) | (⟨queued, plain⟩ | ⟨runUuid, known, ⟨-, later⟩, inside⟩)
        · exact .inr ⟨_, fresh.1, fresh.2, inside⟩
        · exact .inl ⟨.inl rfl, plain⟩
        · exact .inl ⟨.inr queued, plain⟩
        · exact .inr ⟨runUuid, known, later, inside⟩
      · intro emits
        rcases emits with ⟨rfl | queued, plain⟩ | ⟨runUuid, known, later, inside⟩
        · exact .inl (.inr ⟨rfl, plain⟩)
        · exact .inr (.inl ⟨queued, plain⟩)
        · by_cases same : runUuid = head.frame.run
          · exact .inl (.inl (same ▸ inside))
          · exact .inr (.inr ⟨runUuid, known, ⟨same, later⟩, inside⟩)
    · simp only [mem_append, own, ih, mem_cons]
      constructor
      · intro emits
        rcases emits with ⟨rfl, plain⟩ | (⟨queued, plain⟩ | later)
        · exact .inl ⟨.inl rfl, plain⟩
        · exact .inl ⟨.inr queued, plain⟩
        · exact .inr later
      · intro emits
        rcases emits with ⟨rfl | queued, plain⟩ | later
        · exact .inl ⟨rfl, plain⟩
        · exact .inr (.inl ⟨queued, plain⟩)
        · exact .inr (.inr later)

theorem mem_orderedFrames {runUuid : String} : payload ∈ orderedFrames collected runUuid ↔
      ∃ sequences, ((runUuid, sequences), payload) ∈ collected.frames.entries := by
  simp only [orderedFrames, mem_insertionSort, mem_map, mem_filter,
    decide_eq_true_eq]
  constructor
  · intro framed
    obtain ⟨⟨⟨run, sequences⟩, other⟩, ⟨member, rfl⟩, rfl⟩ := framed
    exact ⟨sequences, member⟩
  · intro framed
    obtain ⟨sequences, member⟩ := framed
    exact ⟨((runUuid, sequences), payload), ⟨member, rfl⟩, rfl⟩

theorem mem_tracedRuns {runUuid : String} : runUuid ∈ tracedRuns collected ↔
      ∃ sequences payload, ((runUuid, sequences), payload) ∈ collected.frames.entries := by
  simp only [tracedRuns, mem_eraseDups, mem_map]
  constructor
  · intro traced
    obtain ⟨⟨⟨run, sequences⟩, payload⟩, member, rfl⟩ := traced
    exact ⟨sequences, payload, member⟩
  · intro traced
    obtain ⟨sequences, payload, member⟩ := traced
    exact ⟨((runUuid, sequences), payload), member, rfl⟩

theorem mem_restorePendingTraceFrames : payload ∈ (restorePendingTraceFrames client).outbox ↔
      (payload ∈ client.outbox ∧ payload.frame.isTrace = false) ∨
        ∃ key, (key, payload) ∈ (collectTraceFrames client).frames.entries := by
  simp only [restorePendingTraceFrames, mem_rebuild, mem_orderedFrames, mem_tracedRuns]
  constructor
  · intro queued
    rcases queued with plain | ⟨runUuid, -, -, sequences, member⟩
    · exact .inl plain
    · exact .inr ⟨_, member⟩
  · intro queued
    rcases queued with plain | ⟨⟨runUuid, sequences⟩, member⟩
    · exact .inl plain
    · exact .inr ⟨runUuid, ⟨sequences, payload, member⟩, by simp, sequences, member⟩

/-- A trace frame that `_restore_pending_trace_frames` takes from the outbox. -/
def Collectable (payload : Payload) : Prop :=
  payload.frame.isTrace = true ∧ payload.frame.run ≠ "" ∧ payload.frame.events ≠ []

def segmentKey (payload : Payload) : String × List (Option Int) :=
  (payload.frame.run, payload.frame.sequences)

theorem collectQueued_own (collectable : Collectable payload) :
    (segmentKey payload, payload) ∈ (collectQueued collected payload).frames.entries := by
  obtain ⟨trace, named, filled⟩ := collectable
  simp only [collectQueued, trace, named, filled, ne_eq, not_false_eq_true, and_self, if_true]
  exact OrderedDict.mem_set.mpr (.inl rfl)

theorem collectQueued_other (member : entry ∈ collected.frames.entries)
    (other : payload.frame.isTrace = true → segmentKey payload ≠ entry.1) :
    entry ∈ (collectQueued collected payload).frames.entries := by
  simp only [collectQueued]
  split
  · rename_i collectable
    refine OrderedDict.mem_set.mpr (.inr ⟨member, ?_⟩)
    exact fun same => other collectable.1 same.symm
  · exact member

theorem foldl_collectQueued_keeps (outbox : List Payload)
    (member : entry ∈ collected.frames.entries)
    (others : ∀ payload ∈ outbox, payload.frame.isTrace = true → segmentKey payload ≠ entry.1) :
    entry ∈ (outbox.foldl collectQueued collected).frames.entries := by
  induction outbox generalizing collected with
  | nil => exact member
  | cons head rest ih =>
    exact ih (collectQueued_other member (others head (mem_cons_self ..)))
      fun payload later => others payload (mem_cons_of_mem _ later)

theorem collectPending_keeps {pending : (String × Int) × Payload}
    (member : entry ∈ collected.frames.entries) :
    entry ∈ (collectPending collected pending).frames.entries := by
  simp only [collectPending]
  split
  · exact member
  · simp only [OrderedDict.setDefault]
    split
    · exact member
    · rename_i missing
      refine OrderedDict.mem_set.mpr (.inr ⟨member, ?_⟩)
      intro same
      exact missing (same ▸ mem_map_of_mem member)

theorem foldl_collectPending_keeps (pending : List ((String × Int) × Payload))
    (member : entry ∈ collected.frames.entries) :
    entry ∈ (pending.foldl collectPending collected).frames.entries := by
  induction pending generalizing collected with
  | nil => exact member
  | cons head rest ih => exact ih (collectPending_keeps member)

theorem restore_last {front back : List Payload} (queued : client.outbox = front ++ payload :: back)
    (collectable : Collectable payload)
    (last : ∀ other ∈ back, other.frame.isTrace = true → segmentKey other ≠ segmentKey payload) :
    payload ∈ (restorePendingTraceFrames client).outbox := by
  refine mem_restorePendingTraceFrames.mpr (.inr ⟨segmentKey payload, ?_⟩)
  apply foldl_collectPending_keeps
  rw [queued, foldl_append, foldl_cons]
  exact foldl_collectQueued_keeps back (collectQueued_own collectable) last

theorem mem_onConnected (restored : payload ∈ (restorePendingTraceFrames client).outbox) :
    payload ∈ (onConnected client).outbox :=
  mem_append_left _ (mem_append_left _ restored)

end SourceLens.Outbox
