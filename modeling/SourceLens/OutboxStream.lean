import SourceLens.Library.MarkedStream
import SourceLens.Library.Transition
import SourceLens.Outbox

/-! The text deltas of the runs on their way through the one buffer of `_enqueue`: below
the limits of the outbox, what is queued is the stream that was handed over. -/

namespace SourceLens.Outbox

open MarkedStream Transition List

variable {client : Client} {payload : Payload}

variable (now : String)

/-- The run and the text of a delta; every other frame is a mark. -/
def deltaText (payload : Payload) : Option (String × String) :=
  if isDelta payload.frame then
    some (payload.frame.run, textOrEmpty payload.frame.contentDelta)
  else none

/-- The same frame; a terminal frame of a run has its time stamp. -/
def Queued (given queued : Payload) : Prop :=
  queued.carries = given.carries ∧
    (queued.frame = given.frame ∨ given.frame.type = "run_done" ∧
      ∃ now, queued.frame = { given.frame with nodeEnqueuedAt := some now, otherKeys := true })

def Client.stream (client : Client) : List Payload :=
  client.outbox ++ client.bufferedOutput.toList

def Client.Below (client : Client) : Prop :=
  client.outbox.length < client.outboxMax ∧ client.outbox.length < client.outboxSoftLimit

instance (client : Client) : Decidable client.Below := inferInstanceAs (Decidable (_ ∧ _))

def Client.Buffers (client : Client) : Prop :=
  ∀ buffered ∈ client.bufferedOutput, isDelta buffered.frame = true

theorem isDelta_type {frame : Frame} (delta : isDelta frame = true) : frame.type = "run_output" := by
  simp only [isDelta, Bool.and_eq_true, decide_eq_true_eq] at delta
  exact delta.1.1.1.1

theorem notePending_queued (client : Client) (payload : Payload) :
    Queued payload (notePending now client payload).2 := by
  unfold notePending notePendingTerminal
  split
  · rename_i terminal
    exact ⟨rfl, .inr ⟨terminal.1, _, rfl⟩⟩
  · exact ⟨rfl, .inl rfl⟩

theorem Queued.delta {given queued : Payload} (kept : Queued given queued)
    (delta : isDelta given.frame = true) : queued = given := by
  rcases kept.2 with same | ⟨terminal, _⟩
  · cases given
    cases queued
    cases kept.1
    cases same
    rfl
  · rw [isDelta_type delta] at terminal
    exact absurd terminal (by decide)

theorem Queued.mark {given queued : Payload} (kept : Queued given queued)
    (mark : isDelta given.frame = false) : isDelta queued.frame = false := by
  rcases kept.2 with same | ⟨terminal, now, stamped⟩
  · rw [same, mark]
  · rw [stamped]
    simp [isDelta]

theorem notePendingTrace_soft (client : Client) (payload : Payload) :
    (notePendingTrace client payload).outboxSoftLimit = client.outboxSoftLimit := by
  unfold notePendingTrace
  split <;> rfl

theorem notePendingTerminal_soft (client : Client) (payload : Payload) :
    (notePendingTerminal now client payload).1.outboxSoftLimit = client.outboxSoftLimit := by
  unfold notePendingTerminal
  split <;> rfl

theorem notePending_soft (client : Client) (payload : Payload) :
    (notePending now client payload).1.outboxSoftLimit = client.outboxSoftLimit := by
  have trace := notePendingTrace_soft client payload
  have terminal := notePendingTerminal_soft now (notePendingTrace client payload) payload
  rw [← trace, ← terminal]
  simp only [notePending, notePendingDatasourceTerminal]
  split <;> rfl

theorem enqueueFrame_below {now : String} (below : (enqueueFrame now client payload).Below) :
    client.Below ∧
      (enqueueFrame now client payload).bufferedOutput = client.bufferedOutput ∧
      (enqueueFrame now client payload).outbox =
        client.outbox ++ [(notePending now client payload).2] := by
  have same := notePending_queues now client payload
  have soft := notePending_soft now client payload
  revert below
  simp only [enqueueFrame]
  split
  · rename_i next coalesced
    intro below
    have pressed : ¬ client.outbox.length < client.outboxSoftLimit := by
      intro calm
      rw [coalesceProgressFrame, same.outbox, soft, if_pos calm] at coalesced
      cases coalesced
    obtain ⟨-, index, -, rfl⟩ := coalesceProgressFrame_some coalesced
    simp only [Client.Below, length_set, same.outbox, soft] at below
    exact absurd below.2 pressed
  · intro below
    simp only [Client.Below, appendFrame, length_append, length_drop,
      length_singleton, same.outbox, same.limit, soft] at below
    have whole : client.outbox.length + 1 - client.outboxMax = 0 := by omega
    refine ⟨?_, same.buffered, ?_⟩
    · simp only [Client.Below]
      omega
    · simp only [appendFrame, same.outbox, same.limit, whole, drop_zero]

/-- An operation that is given `more`: if it ends below the limits it began there, and
keeps the stream. -/
structure Carries (client next : Client) (more : List Payload) : Prop where
  below : next.Below → client.Below
  stream : next.Below → ∀ given, Agree deltaText Queued given client.stream →
    Agree deltaText Queued (given ++ more) next.stream

theorem Carries.refl (client : Client) : Carries client client [] :=
  ⟨id, fun _ given agree => by rwa [append_nil]⟩

theorem Carries.trans {first second third : Client} {early late : List Payload}
    (one : Carries first second early) (two : Carries second third late) :
    Carries first third (early ++ late) where
  below room := one.below (two.below room)
  stream room given agree := by
    rw [← append_assoc]
    exact two.stream room _ (one.stream (two.below room) given agree)

theorem flush_bufferedOutput (client : Client)
    (below : (flushBufferedOutput now client).Below) :
    (flushBufferedOutput now client).bufferedOutput = none := by
  unfold flushBufferedOutput at below ⊢
  split at below
  · assumption
  · exact (enqueueFrame_below below).2.1

theorem flush_carries (buffers : client.Below → client.Buffers) :
    Carries client (flushBufferedOutput now client) [] := by
  unfold flushBufferedOutput
  split
  · exact .refl client
  · rename_i buffered held
    have kept := notePending_queued now { client with bufferedOutput := none } buffered
    refine ⟨fun room => (enqueueFrame_below room).1, ?_⟩
    intro room given agree
    obtain ⟨below, empty, queued⟩ := enqueueFrame_below room
    have same := kept.delta (buffers below buffered held)
    rw [same] at queued
    rw [append_nil, Client.stream, queued, empty]
    rw [Client.stream, held] at agree
    simpa using agree

theorem enqueueMark_carries
    (empty : (enqueueFrame now client payload).Below → client.bufferedOutput = none)
    (mark : isDelta payload.frame = false) :
    Carries client (enqueueFrame now client payload) [payload] := by
  have kept := notePending_queued now client payload
  refine ⟨fun room => (enqueueFrame_below room).1, ?_⟩
  intro room given agree
  obtain ⟨-, buffered, queued⟩ := enqueueFrame_below room
  rw [Client.stream, empty room, Option.toList_none, append_nil] at agree
  rw [Client.stream, queued, buffered, empty room, Option.toList_none, append_nil]
  exact agree.mark (by simp [deltaText, mark]) (by simp [deltaText, kept.mark mark]) kept

def Client.BuffersRun (client : Client) (payload : Payload) : Prop :=
  ∀ buffered ∈ client.bufferedOutput, isDelta buffered.frame = true ∧
    buffered.frame.runUuid = payload.frame.runUuid

theorem mergeDelta_delta {buffered : Payload} (delta : isDelta buffered.frame = true) :
    isDelta (mergeDelta buffered payload).frame = true := by
  simp only [isDelta, mergeDelta, Frame.run, Bool.and_eq_true] at delta ⊢
  exact ⟨⟨⟨delta.1.1.1, rfl⟩, delta.1.2⟩, delta.2⟩

theorem flushOtherRun_carries (payload : Payload) (buffers : client.Buffers) :
    Carries client (flushOtherRun now client payload) [] := by
  unfold flushOtherRun
  split
  · split
    · exact .refl client
    · exact flush_carries now fun _ => buffers
  · exact .refl client

theorem flushOtherRun_buffers (payload : Payload) (buffers : client.Buffers)
    (below : (flushOtherRun now client payload).Below) :
    (flushOtherRun now client payload).BuffersRun payload := by
  unfold flushOtherRun at below ⊢
  split at below
  · rename_i buffered held
    split at below
    · rename_i same
      simp only [same, if_true]
      intro other member
      rw [held] at member
      cases member
      exact ⟨buffers buffered held, same⟩
    · rename_i other
      simp only [if_neg other]
      intro left member
      rw [flush_bufferedOutput now client below] at member
      cases member
  · rename_i held
    intro other member
    rw [held] at member
    cases member

theorem bufferDelta_carries (delta : isDelta payload.frame = true)
    (buffers : client.Below → client.BuffersRun payload) :
    Carries client (bufferDelta client payload) [payload] := by
  refine ⟨id, ?_⟩
  intro room given agree
  have mine := buffers room
  have text : deltaText payload =
      some (payload.frame.run, textOrEmpty payload.frame.contentDelta) := if_pos delta
  have longer := agree.text payload (by rw [text]; rfl)
  rw [Client.stream] at longer ⊢
  cases held : client.bufferedOutput with
  | none => simpa [bufferDelta, held] using longer
  | some buffered =>
    obtain ⟨own, run⟩ := mine buffered held
    have before : deltaText buffered =
        some (payload.frame.run, textOrEmpty buffered.frame.contentDelta) := by
      rw [deltaText, if_pos own, Frame.run, run]
      rfl
    have both : deltaText (mergeDelta buffered payload) =
        some (payload.frame.run, textOrEmpty buffered.frame.contentDelta ++
          textOrEmpty payload.frame.contentDelta) := by
      rw [deltaText, if_pos (mergeDelta_delta own), mergeDelta, Frame.run, run]
      rfl
    rw [held] at longer
    simpa [bufferDelta, held] using longer.join before text both

theorem bufferDelta_buffers (delta : isDelta payload.frame = true)
    (buffers : client.BuffersRun payload) : (bufferDelta client payload).Buffers := by
  intro buffered member
  cases held : client.bufferedOutput with
  | none =>
    rw [bufferDelta, held] at member
    cases member
    exact delta
  | some before =>
    rw [bufferDelta, held] at member
    cases member
    exact mergeDelta_delta (buffers before held).1

theorem enqueue_carries (payload : Payload) (buffers : client.Buffers) :
    Carries client (enqueue now client payload) [payload] := by
  cases delta : isDelta payload.frame with
  | false =>
    simp only [enqueue, delta, Bool.false_eq_true, if_false]
    have flushed := flush_carries now fun _ : client.Below => buffers
    refine flushed.trans (enqueueMark_carries now ?_ delta)
    exact fun room => flush_bufferedOutput now client (enqueueFrame_below room).1
  | true =>
    have other := flushOtherRun_carries now payload buffers
    have mine := flushOtherRun_buffers now payload buffers
    have text := other.trans (bufferDelta_carries delta mine)
    simp only [enqueue, delta, if_true]
    split
    · have flushed := flush_carries now fun room : (bufferDelta _ payload).Below =>
        bufferDelta_buffers delta (mine room)
      exact text.trans flushed
    · exact text

theorem enqueue_buffers (payload : Payload) (buffers : client.Buffers)
    (below : (enqueue now client payload).Below) : (enqueue now client payload).Buffers := by
  cases delta : isDelta payload.frame with
  | false =>
    simp only [enqueue, delta, Bool.false_eq_true, if_false] at below ⊢
    obtain ⟨room, empty, _⟩ := enqueueFrame_below below
    intro buffered member
    rw [empty, flush_bufferedOutput now client room] at member
    cases member
  | true =>
    simp only [enqueue, delta, if_true] at below ⊢
    revert below
    split
    · intro below buffered member
      rw [flush_bufferedOutput now _ below] at member
      cases member
    · intro below
      exact bufferDelta_buffers delta (flushOtherRun_buffers now payload buffers below)

/-- The client, and the payloads handed to `_enqueue` so far. -/
structure Handing where
  client : Client
  given : List Payload

/-- A call of `_enqueue`, or the timer of the buffer. -/
inductive Entry
  | enqueue (now : String) (frame : Frame)
  | flushTimer (now : String)

def Entry.frame? : Entry → Option Frame
  | .enqueue _ frame => some frame
  | .flushTimer _ => none

def perform (handing : Handing) : Entry → Handing
  | .enqueue now frame =>
    let payload := ⟨[handing.given.length], frame⟩
    ⟨enqueue now handing.client payload, handing.given ++ [payload]⟩
  | .flushTimer now => { handing with client := flushBufferedOutput now handing.client }

def handOn (handing : Handing) (entry : Entry) : Option Handing := some (perform handing entry)

def StaysBelow (handing : Handing) (entry : Entry) : Prop := (perform handing entry).client.Below

instance (handing : Handing) (entry : Entry) : Decidable (StaysBelow handing entry) :=
  inferInstanceAs (Decidable (Client.Below _))

structure Handing.Faithful (handing : Handing) : Prop where
  buffers : handing.client.Buffers
  agree : Agree deltaText Queued handing.given handing.client.stream

theorem perform_faithful {handing : Handing} (entry : Entry) (faithful : handing.Faithful)
    (below : StaysBelow handing entry) : (perform handing entry).Faithful := by
  cases entry with
  | enqueue now frame =>
    have carries := enqueue_carries now ⟨[handing.given.length], frame⟩ faithful.buffers
    exact ⟨enqueue_buffers now _ faithful.buffers below,
      carries.stream below handing.given faithful.agree⟩
  | flushTimer now =>
    have carries := flush_carries now fun _ : handing.client.Below => faithful.buffers
    have agree := carries.stream below handing.given faithful.agree
    refine ⟨?_, by rwa [append_nil] at agree⟩
    intro buffered member
    rw [perform, flush_bufferedOutput now handing.client below] at member
    cases member

theorem perform_given {handing finish : Handing} {entries : List Entry}
    (run : Steps handOn StaysBelow handing entries finish) :
    finish.given.map (·.frame) = handing.given.map (·.frame) ++ entries.filterMap Entry.frame? := by
  induction run with
  | nil handing => simp
  | @cons handing next finish entry rest below taken later ih =>
    cases taken
    rw [ih]
    cases entry with
    | enqueue now frame => simp [perform, Entry.frame?]
    | flushTimer now => simp [perform, Entry.frame?, filterMap_cons]

/-- Whatever is handed over below the limits of the outbox, and whenever the timer fires:
after a last flush the outbox has every frame that is no delta once and in order, and
between two of them the text of each run. -/
theorem stream_kept (outboxMax outboxSoftLimit : Nat) (entries : List Entry) (finish : Handing)
    (now : String)
    (run : Steps handOn StaysBelow ⟨.new outboxMax outboxSoftLimit, []⟩ entries finish)
    (below : (flushBufferedOutput now finish.client).Below) :
    finish.given.map (·.frame) = entries.filterMap Entry.frame? ∧
      Agree deltaText Queued finish.given (flushBufferedOutput now finish.client).outbox := by
  have start : Handing.Faithful ⟨.new outboxMax outboxSoftLimit, []⟩ := by
    refine ⟨?_, .nil⟩
    intro buffered member
    cases member
  have faithful : finish.Faithful := by
    refine run.invariant Handing.Faithful ?_ start
    intro handing entry next faithful allowed taken
    cases taken
    exact perform_faithful entry faithful allowed
  have flushed := perform_faithful (.flushTimer now) faithful below
  refine ⟨perform_given run, ?_⟩
  have agree := flushed.agree
  rw [Client.stream, perform, flush_bufferedOutput now finish.client below, Option.toList_none,
    append_nil] at agree
  exact agree

/-- Text of two runs, with a mark between two pieces of one of them. -/
def sampleEntries : List Entry :=
  let text (run piece : String) : Entry := .enqueue "" {
    type := "run_output", runUuid := some run, contentDelta := some piece, otherKeys := false }
  [text "a" "1", text "a" "2", text "b" "x", text "a" "3", .flushTimer "", text "a" "4",
    .enqueue "t" { type := "run_done", runUuid := some "b" }, text "a" "5"]

theorem stream_kept_two : ∃ finish,
    Steps handOn StaysBelow ⟨.new 100 50, []⟩ sampleEntries finish ∧
      (flushBufferedOutput "" finish.client).Below ∧
        (flushBufferedOutput "" finish.client).outbox.length = 6 ∧
      Agree deltaText Queued finish.given (flushBufferedOutput "" finish.client).outbox := by
  have executed : (execGuarded handOn StaysBelow ⟨.new 100 50, []⟩ sampleEntries).any
      (fun finish => decide ((flushBufferedOutput "" finish.client).Below ∧
        (flushBufferedOutput "" finish.client).outbox.length = 6)) = true := by
    decide
  obtain ⟨finish, reached, facts⟩ := (Option.any_eq_true _ _).mp executed
  obtain ⟨below, count⟩ := of_decide_eq_true facts
  have run := execGuarded_steps reached
  exact ⟨finish, run, below, count, (stream_kept 100 50 _ finish "" run below).2⟩

end SourceLens.Outbox
