import Mathlib.Algebra.GroupWithZero.Nat
import Mathlib.Data.List.Range
import SourceLens.Library.Json
import SourceLens.Library.PyText

/-! Append-only persistence of run trajectories (`run_trace.py`). -/

namespace SourceLens.RunTrace

def maxBatchEvents : Nat := 100
def maxBatchBytes : Nat := 8 * 1024 * 1024
def maxEventPayloadBytes : Nat := 2 * 1024 * 1024

/-- How a call ends without a result. Every one of them rolls its transaction
back; only the first is a `RunTraceValidationError`. -/
inductive AppendError
  | validation (message : String)
  | overflow
  | database
  deriving DecidableEq, Repr

/-- The columns of one `RunTraceEvent` that an event supplies. -/
structure TraceEvent where
  eventId : Nat
  sequence : Nat
  attempt : Nat
  eventType : String
  timestamp : Int
  checkpointId : String
  turn : Option Nat
  step : Option Nat
  callId : String
  parentCallId : String
  payload : Json

structure NormalizedEvent extends TraceEvent where
  payloadBytes : Nat

structure TraceRow extends TraceEvent where
  pk : Nat

structure ParsedDatetime where
  instant : Int
  naive : Bool

/-- The libraries the module calls: Django's datetime parser, its JSON encoder
(`none` where it raises, otherwise the UTF-8 length) and the database's own
checks on a row. -/
structure Backend where
  parseDatetime : String → Option ParsedDatetime
  payloadSize : Json → Option Nat
  storable : TraceEvent → Bool

def invalid {α : Type} (message : String) : Except AppendError α :=
  .error (.validation message)

/-- `int(value)` on a decoded value; `none` for `TypeError` and `ValueError`. -/
def pythonInt : Json → Except AppendError (Option Int)
  | .bool value => .ok (some (if value then 1 else 0))
  | .int value => .ok (some value)
  | .float value => .ok (some (if value < 0 then -(-value).floor else value.floor))
  | .nonFinite name => if name = "nan" then .ok none else .error .overflow
  | .str value => .ok (PyText.intOfStr value)
  | _ => .ok none

def positiveInt (value : Json) (field : String) (maximum : Option Nat) :
    Except AppendError Nat :=
  match value with
  | .bool _ => invalid s!"{field} must be a positive integer"
  | value => do
      match ← pythonInt value with
      | none => invalid s!"{field} must be a positive integer"
      | some parsed =>
        if parsed < 1 ∨ (maximum.any fun bound => (bound : Int) < parsed) = true then
          invalid s!"{field} is outside the allowed range"
        else .ok parsed.toNat

def optionalPositiveInt (value : Json) (field : String) : Except AppendError (Option Nat) :=
  match value with
  | .null => .ok none
  | value => (positiveInt value field none).map some

def boundedText (value : Json) (field : String) : Except AppendError String :=
  match value with
  | .null => .ok ""
  | .str text =>
    if 128 < text.length then invalid s!"{field} must be at most 128 characters" else .ok text
  | _ => invalid s!"{field} must be at most 128 characters"

/-- `uuid.UUID(str(value))`; no other kind of value spells 32 hexadecimal digits. -/
def eventUuid : Json → Option Nat
  | .str text => PyText.uuidOfStr text
  | .int value => PyText.uuidOfStr (toString value)
  | _ => none

def isEventTypeChar (c : Char) : Bool :=
  ('a'.toNat ≤ c.toNat && c.toNat ≤ 'z'.toNat) || ('0'.toNat ≤ c.toNat && c.toNat ≤ '9'.toNat) ||
    c == '_' || c == '.' || c == '-'

/-- `EVENT_TYPE_PATTERN.fullmatch`. -/
def matchesEventType (text : String) : Bool :=
  match text.toList with
  | [] => false
  | first :: rest =>
    ('a'.toNat ≤ first.toNat && first.toNat ≤ 'z'.toNat) && decide (rest.length ≤ 127) &&
      rest.all isEventTypeChar

def normalizeTimestamp (backend : Backend) (value : Json) (index : Nat) :
    Except AppendError Int :=
  match value with
  | .str timestamp =>
    if 64 < timestamp.length then
      invalid s!"events[{index}].timestamp must be an ISO-8601 string"
    else
      match backend.parseDatetime timestamp with
      | none => invalid s!"events[{index}].timestamp must include a timezone"
      | some parsed =>
        if parsed.naive then invalid s!"events[{index}].timestamp must include a timezone"
        else .ok parsed.instant
  | _ => invalid s!"events[{index}].timestamp must be an ISO-8601 string"

def normalizePayload (backend : Backend) (value : Json) (index : Nat) :
    Except AppendError Nat :=
  match value with
  | .obj _ =>
    match backend.payloadSize value with
    | none => invalid s!"events[{index}].payload must contain JSON values"
    | some payloadBytes =>
      if maxEventPayloadBytes < payloadBytes then
        invalid s!"events[{index}].payload exceeds the size limit"
      else .ok payloadBytes
  | _ => invalid s!"events[{index}].payload must be an object"

def normalizeEventType (value : Json) (index : Nat) : Except AppendError String :=
  match value with
  | .str eventType =>
    if matchesEventType eventType then .ok eventType
    else invalid s!"events[{index}].event_type is invalid"
  | _ => invalid s!"events[{index}].event_type is invalid"

def normalizeEventId (value : Json) (index : Nat) : Except AppendError Nat :=
  match eventUuid value with
  | some eventId => .ok eventId
  | none => invalid s!"events[{index}].event_id must be a UUID"

def normalizeEvent (backend : Backend) (item : Json) (index : Nat) :
    Except AppendError NormalizedEvent :=
  match item with
  | .obj fields => do
      let eventId ← normalizeEventId (Json.getOrNull fields "event_id") index
      let sequence ← positiveInt (Json.getOrNull fields "sequence") "sequence" none
      let attempt ← positiveInt ((Json.get? fields "attempt").getD (.int 1)) "attempt" (some 1000)
      let eventType ← normalizeEventType (Json.getOrNull fields "event_type") index
      let timestamp ← normalizeTimestamp backend (Json.getOrNull fields "timestamp") index
      let payload := (Json.get? fields "payload").getD (.obj [])
      let payloadBytes ← normalizePayload backend payload index
      let checkpointId ← boundedText (Json.getOrNull fields "checkpoint_id")
        s!"events[{index}].checkpoint_id"
      let turn ← optionalPositiveInt (Json.getOrNull fields "turn") "turn"
      let step ← optionalPositiveInt (Json.getOrNull fields "step") "step"
      let callId ← boundedText (Json.getOrNull fields "call_id") s!"events[{index}].call_id"
      let parentCallId ← boundedText (Json.getOrNull fields "parent_call_id")
        s!"events[{index}].parent_call_id"
      .ok { eventId, sequence, attempt, eventType, timestamp, checkpointId, turn, step, callId,
            parentCallId, payload, payloadBytes }
  | _ => invalid s!"events[{index}] must be an object"

def normalizeEvents (backend : Backend) : List Json → Nat →
    Except AppendError (List NormalizedEvent)
  | [], _ => .ok []
  | item :: rest, index => do
      let event ← normalizeEvent backend item index
      let events ← normalizeEvents backend rest (index + 1)
      .ok (event :: events)

/-- `_event_matches`: payloads compare with the language's `==`. -/
def eventMatches (existing : TraceRow) (normalized : NormalizedEvent) : Bool :=
  existing.eventId == normalized.eventId && existing.sequence == normalized.sequence &&
    existing.attempt == normalized.attempt && existing.eventType == normalized.eventType &&
    existing.timestamp == normalized.timestamp &&
    existing.checkpointId == normalized.checkpointId && existing.turn == normalized.turn &&
    existing.step == normalized.step && existing.callId == normalized.callId &&
    existing.parentCallId == normalized.parentCallId &&
    Json.equal existing.payload normalized.payload

def validateBatch (backend : Backend) (events : Json) :
    Except AppendError (List NormalizedEvent) :=
  match events with
  | .arr [] => invalid "events must be a non-empty list"
  | .arr items => do
      if maxBatchEvents < items.length then invalid "events exceeds the batch size limit"
      let normalized ← normalizeEvents backend items 0
      if maxBatchBytes < (normalized.map (·.payloadBytes)).sum then
        invalid "events exceeds the batch byte limit"
      if ¬ (normalized.map (·.sequence)).Nodup then
        invalid "events contains duplicate sequences"
      if ¬ (normalized.map (·.eventId)).Nodup then
        invalid "events contains duplicate event IDs"
      if ¬ (normalized.map (·.sequence)).Pairwise (· ≤ ·) then
        invalid "events must be ordered by sequence"
      .ok normalized
  | _ => invalid "events must be a non-empty list"

/-- The columns of the `Run` row the module reads; `none` for a missing node. -/
structure RunRow where
  lensnodeUuid : Option String

def checkAssignment (run : Option RunRow) (lensnodeUuid : String) : Except AppendError Unit :=
  match run with
  | none => invalid "run does not exist"
  | some run =>
    if run.lensnodeUuid = some lensnodeUuid then .ok ()
    else invalid "run is not assigned to this LensNode"

def existingRows (log : List TraceRow) (normalized : List NormalizedEvent) : List TraceRow :=
  log.filter fun row =>
    (normalized.map (·.eventId)).contains row.eventId ||
      (normalized.map (·.sequence)).contains row.sequence

def lastBy (key : TraceRow → Nat) (rows : List TraceRow) (value : Nat) : Option TraceRow :=
  (rows.filter fun row => key row = value).getLast?

def byEventId (existing : List TraceRow) : Nat → Option TraceRow :=
  lastBy (fun row => row.eventId) existing

def bySequence (existing : List TraceRow) : Nat → Option TraceRow :=
  lastBy (fun row => row.sequence) existing

def lastPersistedSequence (log : List TraceRow) : Nat :=
  (log.map (·.sequence)).foldl max 0

/-- The loop over the batch: the number of duplicates and the pending events. -/
def sortItems (existing : List TraceRow) :
    List NormalizedEvent → Except AppendError (Nat × List NormalizedEvent)
  | [] => .ok (0, [])
  | item :: rest =>
    match byEventId existing item.eventId, bySequence existing item.sequence with
    | none, none => do
        let (duplicates, pending) ← sortItems existing rest
        .ok (duplicates, item :: pending)
    | some byId, some byCursor =>
      if byId.pk = byCursor.pk ∧ eventMatches byId item = true then do
        let (duplicates, pending) ← sortItems existing rest
        .ok (duplicates + 1, pending)
      else invalid "event ID or sequence conflicts with persisted trajectory"
    | _, _ => invalid "event ID or sequence conflicts with persisted trajectory"

structure AppendResult where
  insertedCount : Nat
  duplicateCount : Nat
  lastSequence : Nat
  deriving DecidableEq, Repr

def newRows (log : List TraceRow) (pending : List NormalizedEvent) : List TraceRow :=
  pending.zipIdx.map fun (item, index) => { item.toTraceEvent with pk := log.length + index }

def appendNormalized (backend : Backend) (log : List TraceRow)
    (normalized : List NormalizedEvent) : Except AppendError (List TraceRow × AppendResult) := do
  let (duplicates, pending) ← sortItems (existingRows log normalized) normalized
  if pending.map (·.sequence) ≠ List.range' (lastPersistedSequence log + 1) pending.length then
    invalid "new events must continue the persisted sequence cursor"
  if ¬ pending.all (fun item => backend.storable item.toTraceEvent) then
    .error .database
  .ok (log ++ newRows log pending,
    ⟨pending.length, duplicates, (normalized.map (·.sequence)).foldl max 0⟩)

def appendRunTraceEvents (backend : Backend) (run : Option RunRow) (lensnodeUuid : String)
    (events : Json) (log : List TraceRow) : Except AppendError (List TraceRow × AppendResult) := do
  let normalized ← validateBatch backend events
  checkAssignment run lensnodeUuid
  appendNormalized backend log normalized

end SourceLens.RunTrace
