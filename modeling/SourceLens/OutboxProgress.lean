import SourceLens.Library.KeyedQueue
import SourceLens.Library.Transition
import SourceLens.Outbox

/-! Progress frames that take each other's place in a crowded outbox: what a replacement
may touch, and the order of the queue over calls of `_enqueue_frame` and the send loop. -/

namespace SourceLens.Outbox

open KeyedQueue Transition List

variable {sending next : Sending}

/-- Task and step of a progress frame, `none` for every other frame. -/
def progressKey (payload : Payload) : Option (Option String × Option String) :=
  if payload.frame.type = "datasource_sync_event" ∧
      textOrEmpty payload.frame.step ∈ datasourceProgressSteps then
    some (payload.frame.taskId, payload.frame.step)
  else none

/-- What `_coalesce_progress_frame` does where it returns `True`: the last queued frame
of the same task and step is replaced. -/
structure Replaces (client next : Client) (payload : Payload) (front back : List Payload)
    (old : Payload) : Prop where
  before : client.outbox = front ++ old :: back
  after : next.outbox = front ++ payload :: back
  progress : progressKey payload ≠ none
  sameKey : progressKey old = progressKey payload
  last : ∀ other ∈ back, progressKey other ≠ progressKey payload

theorem coalesce_replaces {client next : Client} {payload : Payload}
    (coalesced : coalesceProgressFrame client payload = some next) :
    ∃ front old back, Replaces client next payload front back old := by
  obtain ⟨type, index, newest, rfl⟩ := coalesceProgressFrame_some coalesced
  have step : textOrEmpty payload.frame.step ∈ datasourceProgressSteps := by
    by_contra unknown
    simp only [coalesceProgressFrame, if_pos unknown, ite_self] at coalesced
    cases coalesced
  have key : progressKey payload = some (payload.frame.taskId, payload.frame.step) :=
    if_pos ⟨type, step⟩
  obtain ⟨front, old, back, parts, place, same, missed⟩ := last_within (fun queued : Payload =>
    decide (queued.frame.type = "datasource_sync_event" ∧
      queued.frame.taskId = payload.frame.taskId ∧ queued.frame.step = payload.frame.step)) newest
  rw [decide_eq_true_eq] at same
  refine ⟨front, old, back, parts, ?_, ?_, ?_, ?_⟩
  · rw [parts, ← place]
    simp
  · rw [key]
    exact Option.some_ne_none _
  · rw [key, progressKey, if_pos ⟨same.1, same.2.2 ▸ step⟩, same.2.1, same.2.2]
  · intro other member equal
    have different := missed other member
    rw [decide_eq_false_iff_not] at different
    rw [key, progressKey] at equal
    split at equal
    · rename_i kind
      simp only [Option.some.injEq, Prod.mk.injEq] at equal
      exact different ⟨kind.1, equal.1, equal.2⟩
    · cases equal

/-- A frame handed to `_enqueue_frame`, as it is queued. -/
def queuedAs (now : String) (client : Client) (payload : Payload) : Payload :=
  (notePending now client payload).2

def overflow (now : String) (client : Client) (payload : Payload) : List Payload :=
  let noted := notePending now client payload
  match coalesceProgressFrame noted.1 noted.2 with
  | some _ => []
  | none => noted.1.outbox.take (noted.1.outbox.length + 1 - noted.1.outboxMax)

/-- The client and its send loop. `history` has the first content of the outbox and every
frame queued since, `gone` the frames that were sent, dropped from a full outbox, or in
flight when the send loop was cancelled; `overrun` tells whether one was dropped while
another was in flight. -/
structure Sending where
  client : Client
  sendLoop : SendLoop
  history : List Payload
  gone : List Payload
  overrun : Bool

inductive SendAction
  | enqueueFrame (now : String) (payload : Payload)
  | connect
  | pop
  | sendSucceeds
  | sendRaises
  | cancel

namespace Sending

def start (client : Client) : Sending := ⟨client, .stopped, client.outbox, [], false⟩

def inFlight (sending : Sending) : List Payload :=
  match sending.sendLoop with
  | .awaiting payload => [payload]
  | _ => []

def queue (sending : Sending) : List Payload := sending.inFlight ++ sending.client.outbox

def step (sending : Sending) : SendAction → Option Sending
  | .enqueueFrame now payload =>
    let dropped := overflow now sending.client payload
    some { sending with
      client := Outbox.enqueueFrame now sending.client payload
      history := sending.history ++ [queuedAs now sending.client payload]
      gone := sending.gone ++ dropped
      overrun := sending.overrun || (!sending.inFlight.isEmpty && !dropped.isEmpty) }
  | .connect =>
    match sending.sendLoop with
    | .stopped => some { sending with sendLoop := .ready }
    | _ => none
  | .pop =>
    match sending.sendLoop, sending.client.outbox with
    | .ready, payload :: rest =>
      some { sending with
        client := { sending.client with outbox := rest }
        sendLoop := .awaiting payload }
    | _, _ => none
  | .sendSucceeds =>
    match sending.sendLoop with
    | .awaiting payload =>
      some { sending with sendLoop := .ready, gone := sending.gone ++ [payload] }
    | _ => none
  | .sendRaises =>
    match sending.sendLoop with
    | .awaiting payload =>
      some { sending with client := requeue sending.client payload, sendLoop := .stopped }
    | _ => none
  | .cancel =>
    some { sending with sendLoop := .stopped, gone := sending.gone ++ sending.inFlight }

end Sending

theorem enqueueFrame_outbox (now : String) (client : Client) (payload : Payload) :
    (∃ front old back, Replaces client (enqueueFrame now client payload)
        (queuedAs now client payload) front back old ∧ overflow now client payload = []) ∨
      ∃ kept, client.outbox = overflow now client payload ++ kept ∧
        (enqueueFrame now client payload).outbox = kept ++ [queuedAs now client payload] := by
  have same := (notePending_queues now client payload).outbox
  cases coalesced : coalesceProgressFrame (notePending now client payload).1
      (notePending now client payload).2 with
  | some next =>
    obtain ⟨front, old, back, replaces⟩ := coalesce_replaces coalesced
    have before := replaces.before
    rw [same] at before
    simp only [enqueueFrame, overflow, queuedAs, coalesced]
    exact .inl ⟨front, old, back, ⟨before, replaces.after, replaces.progress,
      replaces.sameKey, replaces.last⟩, trivial⟩
  | none =>
    have parts := (take_append_drop ((notePending now client payload).1.outbox.length + 1 -
      (notePending now client payload).1.outboxMax) client.outbox).symm
    simp only [enqueueFrame, overflow, queuedAs, coalesced, appendFrame, same] at parts ⊢
    exact .inr ⟨_, parts, rfl⟩

namespace Sending

/-- Every other frame is queued, in flight or gone, as often as it was handed over. -/
def Conserved (sending : Sending) : Prop :=
  (row progressKey sending.history none).Perm
    (row progressKey (sending.gone ++ sending.queue) none)

structure Sound (sending : Sending) : Prop where
  order : InOrder progressKey sending.history sending.queue
  conserved : sending.Conserved
  newest : sending.overrun = false → HasNewest progressKey sending.history sending.queue

theorem Sound.leave (sound : sending.Sound) (left : List Payload)
    (history : next.history = sending.history) (overrun : next.overrun = sending.overrun)
    (queue : sending.queue = left ++ next.queue) (gone : next.gone = sending.gone ++ left) :
    next.Sound where
  order := by
    have before := sound.order
    rw [queue] at before
    rw [history]
    exact before.sublist (sublist_append_right _ _)
  conserved := by
    have before := sound.conserved
    rw [Conserved, queue, ← append_assoc] at before
    rwa [Conserved, history, gone]
  newest calm := by
    have before := sound.newest (overrun ▸ calm)
    rw [queue] at before
    rw [history]
    exact before.behind

theorem Sound.replaced (sound : sending.Sound) (front back : List Payload) {old new : Payload}
    (progress : progressKey new ≠ none) (same : progressKey old = progressKey new)
    (last : ∀ other ∈ back, progressKey other ≠ progressKey new)
    (history : next.history = sending.history ++ [new]) (overrun : next.overrun = sending.overrun)
    (before : sending.queue = front ++ old :: back) (after : next.queue = front ++ new :: back)
    (gone : next.gone = sending.gone) : next.Sound where
  order := by
    have order := sound.order
    rw [before] at order
    rw [history, after]
    exact order.replace same last
  conserved := by
    have conserved := sound.conserved
    rw [Conserved, before, row_append] at conserved
    rw [Conserved, history, after, gone, row_append, row_other progress, append_nil,
      row_append, row_replaced same last, if_neg progress]
    exact conserved
  newest calm := by
    have newest := sound.newest (overrun ▸ calm)
    rw [before] at newest
    rw [history, after]
    exact newest.replace same last

theorem Sound.appended (sound : sending.Sound) (waiting dropped kept : List Payload) {new : Payload}
    (history : next.history = sending.history ++ [new])
    (calm : next.overrun = false → sending.overrun = false ∧ (waiting = [] ∨ dropped = []))
    (before : sending.queue = waiting ++ (dropped ++ kept))
    (after : next.queue = waiting ++ (kept ++ [new])) (gone : next.gone = sending.gone ++ dropped) :
    next.Sound where
  order := by
    have order := sound.order
    rw [before] at order
    rw [history, after, ← append_assoc]
    exact (order.sublist ((sublist_append_right _ _).append_left _)).append new
  conserved := by
    have conserved := sound.conserved
    rw [Conserved, before] at conserved
    rw [Conserved, history, after, gone]
    simp only [row_append] at conserved ⊢
    rw [← append_assoc, ← append_assoc]
    refine List.Perm.append_right _ (conserved.trans ?_)
    rw [append_assoc, append_assoc]
    exact (perm_append_comm_assoc _ _ _).append_left _
  newest quiet := by
    obtain ⟨before', rest⟩ := calm quiet
    have newest := sound.newest before'
    rw [before] at newest
    rw [history, after, ← append_assoc]
    rcases rest with rfl | rfl
    · rw [nil_append] at newest ⊢
      exact newest.behind.append new
    · exact newest.append new

theorem Sound.enqueueFrame (sound : sending.Sound) {now : String} {payload : Payload}
    (taken : sending.step (.enqueueFrame now payload) = some next) : next.Sound := by
  cases taken
  rcases enqueueFrame_outbox now sending.client payload with
    ⟨front, old, back, replaces, none⟩ | ⟨kept, parts, after⟩
  · refine sound.replaced (sending.inFlight ++ front) back replaces.progress
      replaces.sameKey replaces.last rfl ?_ ?_ ?_ ?_
    · simp [none]
    · rw [queue, replaces.before, append_assoc]
    · rw [queue, replaces.after, append_assoc]
      rfl
    · simp [none]
  · refine sound.appended sending.inFlight _ kept rfl ?_ ?_ ?_ rfl
    · intro calm
      simpa [or_iff_not_imp_left] using calm
    · rw [queue, parts]
    · rw [queue, after]
      rfl

theorem step_sound {action : SendAction} (sound : sending.Sound)
    (taken : sending.step action = some next) : next.Sound := by
  cases action with
  | enqueueFrame now payload => exact sound.enqueueFrame taken
  | connect =>
    cases loop : sending.sendLoop with
    | stopped =>
      rw [step, loop] at taken
      cases taken
      exact sound.leave [] rfl rfl (by simp [queue, inFlight, loop]) (by simp)
    | ready => simp [step, loop] at taken
    | awaiting payload => simp [step, loop] at taken
  | pop =>
    cases loop : sending.sendLoop with
    | stopped => simp [step, loop] at taken
    | ready =>
      cases content : sending.client.outbox with
      | nil => simp [step, loop, content] at taken
      | cons payload rest =>
        simp only [step, loop, content] at taken
        cases taken
        exact sound.leave [] rfl rfl (by simp [queue, inFlight, loop, content]) (by simp)
    | awaiting payload => simp [step, loop] at taken
  | sendSucceeds =>
    cases loop : sending.sendLoop with
    | stopped => simp [step, loop] at taken
    | ready => simp [step, loop] at taken
    | awaiting payload =>
      simp only [step, loop] at taken
      cases taken
      exact sound.leave [payload] rfl rfl (by simp [queue, inFlight, loop]) rfl
  | sendRaises =>
    cases loop : sending.sendLoop with
    | stopped => simp [step, loop] at taken
    | ready => simp [step, loop] at taken
    | awaiting payload =>
      simp only [step, loop] at taken
      cases taken
      exact sound.leave [] rfl rfl (by simp [queue, inFlight, loop, requeue]) (by simp)
  | cancel =>
    cases taken
    exact sound.leave sending.inFlight rfl rfl rfl rfl

theorem start_sound (client : Client) : (start client).Sound where
  order := .refl _
  conserved := .refl _
  newest _ := .refl _

/-- A call of `_enqueue_frame`, and no step of the send loop. -/
def Enqueues : SendAction → Prop
  | .enqueueFrame _ _ => True
  | _ => False

theorem enqueues_calm {finish : Sending} {actions : List SendAction}
    (run : Steps step Any sending actions finish) (calls : ∀ action ∈ actions, Enqueues action)
    (idle : sending.inFlight = []) (calm : sending.overrun = false) : finish.overrun = false := by
  induction run with
  | nil => exact calm
  | @cons sending next finish action rest _ taken later ih =>
    refine ih (fun other member => calls other (mem_cons_of_mem _ member)) ?_ ?_
    · cases action with
      | enqueueFrame now payload =>
        cases taken
        exact idle
      | connect | pop | sendSucceeds | sendRaises | cancel =>
        exact (calls _ (mem_cons_self ..)).elim
    · cases action with
      | enqueueFrame now payload =>
        cases taken
        simp [calm, idle]
      | connect | pop | sendSucceeds | sendRaises | cancel =>
        exact (calls _ (mem_cons_self ..)).elim

end Sending

/-- From any content of the outbox: a call replaces only the last queued progress frame of
its own task and step. Over any calls of `_enqueue_frame`, also while frames are sent,
requeued and lost in flight, every other frame is queued, in flight or gone as often as it
was handed over, and the queue is in the order of the hand-overs. Where a progress frame
of a task and step is left, the newest one is, unless a full outbox dropped frames while
another was in flight. -/
theorem coalescing_sound (client : Client) (actions : List SendAction) (finish : Sending)
    (run : Steps Sending.step Any (.start client) actions finish) :
    (∀ payload next, coalesceProgressFrame finish.client payload = some next →
      ∃ front old back, Replaces finish.client next payload front back old) ∧
    InOrder progressKey finish.history finish.client.outbox ∧ finish.Conserved ∧
    ((∀ action ∈ actions, Sending.Enqueues action) ∨ finish.overrun = false →
      HasNewest progressKey finish.history finish.client.outbox) := by
  have sound : finish.Sound := run.invariant Sending.Sound
    (fun _ _ _ sound _ taken => Sending.step_sound sound taken) (Sending.start_sound client)
  refine ⟨fun _ _ => coalesce_replaces, ?_, sound.conserved, ?_⟩
  · exact sound.order.sublist (sublist_append_right _ _)
  · intro quiet
    have calm : finish.overrun = false := by
      rcases quiet with calls | calm
      · exact Sending.enqueues_calm run calls rfl rfl
      · exact calm
    exact (sound.newest calm).behind

/-- Two steps of one task and a log line of it, in an outbox that is crowded from its
second frame on. -/
def progressCalls : List SendAction :=
  let frame (type step : String) (number : Nat) : SendAction := .enqueueFrame ""
    ⟨[number], { type := type, taskId := some "t", step := some step }⟩
  [frame "datasource_sync_event" "item_done" 0, frame "run_event" "item_done" 1,
    frame "datasource_sync_event" "item_done" 2, .connect, .pop,
    frame "datasource_sync_event" "item_done" 3, .sendRaises]

theorem coalescing_sound_requeued : ∃ finish,
    Steps Sending.step Any (.start (.new 100 1)) progressCalls finish ∧
      finish.client.outbox.map (·.carries) = [[2], [1], [3]] ∧
      InOrder progressKey finish.history finish.client.outbox := by
  have executed : (exec Sending.step (.start (.new 100 1)) progressCalls).any (fun finish =>
      decide (finish.client.outbox.map (·.carries) = [[2], [1], [3]])) = true := by
    decide
  obtain ⟨finish, reached, facts⟩ := (Option.any_eq_true _ _).mp executed
  have run := exec_steps reached
  exact ⟨finish, run, of_decide_eq_true facts, (coalescing_sound _ _ finish run).2.1⟩

end SourceLens.Outbox
