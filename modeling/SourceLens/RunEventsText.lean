import SourceLens.RunEvents

/-! What the client of an event stream has of the answer, whatever the row and the mirror
held while it was attached. -/

namespace SourceLens.RunEvents

open TextEdits Transition List

variable {system : System} {event : Event}

theorem contentDiffEvents_eq (content emittedContent : Text) :
    contentDiffEvents content emittedContent =
      (difference .tokenReset .token emittedContent content, content) := by
  by_cases grown : emittedContent <+: content
  · simp only [contentDiffEvents, difference, isPrefixOf_iff_prefix, if_pos grown,
      nil_append]
  · simp only [contentDiffEvents, difference, isPrefixOf_iff_prefix, if_neg grown,
      length_nil, drop_zero]
    split <;> rfl

def Quiet (events : List Event) : Prop := ∀ event ∈ events, event.terminal = false

theorem Quiet.append {front back : List Event} (first : Quiet front) (second : Quiet back) :
    Quiet (front ++ back) := by
  intro event member
  rcases mem_append.mp member with early | late
  · exact first event early
  · exact second event late

theorem quiet_nil : Quiet [] := by
  intro event member
  cases member

theorem quiet_single (quiet : event.terminal = false) : Quiet [event] := by
  intro other member
  rwa [mem_singleton.mp member]

theorem quiet_ite {first second : List Event} (condition : Prop) [Decidable condition]
    (one : Quiet first) (other : Quiet second) : Quiet (if condition then first else second) := by
  split
  · exact one
  · exact other

theorem quiet_difference (cursor content : Text) :
    Quiet (difference .tokenReset .token cursor content) :=
  (quiet_ite _ quiet_nil (quiet_single rfl)).append (quiet_ite _ quiet_nil (quiet_single rfl))

theorem terminalStreamEvent_edit (run : Run) : (terminalStreamEvent run).edit = none := by
  unfold terminalStreamEvent
  split <;> rfl

/-- What is yielded leads the text of the client to the cursor, through held texts. -/
structure Tells (held : Text → Prop) (last : Option Event) (text : Text) (stream : Stream) :
    Prop where
  shows : Shows Event.edit held last text stream.pending
  cursor : shown Event.edit text stream.pending = stream.emittedContent
  quiet : Quiet stream.pending

variable {held wider : Text → Prop} {last : Option Event} {text content : Text}
  {stream next : Stream}

theorem Tells.cursor_held (tells : Tells held last text stream) : held stream.emittedContent :=
  tells.cursor ▸ tells.shows.last_held

theorem Tells.same (tells : Tells held last text stream) (queued : next.pending = stream.pending)
    (same : next.emittedContent = stream.emittedContent) : Tells held last text next where
  shows := queued ▸ tells.shows
  cursor := by rw [queued, same, tells.cursor]
  quiet := queued ▸ tells.quiet

theorem Tells.silent (tells : Tells held last text stream) (event : Event)
    (queued : next.pending = stream.pending ++ [event])
    (same : next.emittedContent = stream.emittedContent) (silent : event.edit = none)
    (quiet : event.terminal = false) : Tells held last text next where
  shows := by
    rw [queued]
    exact tells.shows.append fun last => .step tells.shows.last_held
      (.settled (taken_none silent ▸ tells.shows.last_held))
  cursor := by
    rw [queued, shown_append, tells.cursor, same]
    exact taken_none silent
  quiet := by
    rw [queued]
    exact tells.quiet.append (quiet_single quiet)

theorem publishContent_emitted (content : Text) (stream : Stream) :
    (publishContent content stream).emittedContent = content := by
  unfold publishContent
  split
  · rename_i same
    exact same.symm
  · simp only [contentDiffEvents_eq]

theorem Tells.publishContent (tells : Tells held last text stream) (there : held content) :
    Tells held last text (publishContent content stream) := by
  unfold RunEvents.publishContent
  split
  · exact tells
  · simp only [contentDiffEvents_eq]
    have clears : Event.edit .tokenReset = some .clear := rfl
    have appends : ∀ more, Event.edit (.token more) = some (.append more) := fun _ => rfl
    refine ⟨?_, ?_, tells.quiet.append (quiet_difference _ _)⟩
    · refine tells.shows.append fun last => ?_
      rw [tells.cursor]
      exact shows_difference clears appends tells.cursor_held there
    · rw [shown_append, tells.cursor]
      exact shown_difference clears appends ..

theorem Tells.publishQueue (tells : Tells held last text stream) (stores : Stores) (run : Run) :
    Tells held last text (publishQueue stores run stream) := by
  unfold RunEvents.publishQueue
  split
  · dsimp only
    split
    · exact tells
    · exact tells.silent _ rfl rfl rfl rfl
  · exact tells.same rfl rfl

theorem Tells.publishStep (tells : Tells held last text stream) (step : RunStep) :
    Tells held last text (publishStep stream step) := by
  unfold RunEvents.publishStep
  split
  · exact tells
  · exact tells.silent _ rfl rfl rfl rfl

theorem Tells.publishSteps (tells : Tells held last text stream) (run : Run) :
    Tells held last text (publishSteps run stream) := by
  unfold RunEvents.publishSteps
  induction runStreamSteps run generalizing stream with
  | nil => exact tells
  | cons step rest ih => exact ih (tells.publishStep step)

theorem Tells.readRun (tells : Tells held last text stream) (idle : stream.pending = [])
    (run : Run) : Tells held last text (readRun run stream) := by
  unfold RunEvents.readRun
  dsimp only
  split
  · exact tells.silent (.status ..) (by rw [idle]; rfl) rfl rfl rfl
  · exact tells.same idle.symm rfl

def Phase.looping : Phase → Bool
  | .live | .poll | .reconcile | .resting => true
  | _ => false

theorem Phase.looping_cases {phase : Phase} (looping : phase.looping = true) :
    phase = .live ∨ phase = .poll ∨ phase = .reconcile ∨ phase = .resting := by
  cases phase <;> simp [Phase.looping] at looping ⊢

inductive Stage (system : System) : Prop
  | opening
      (phase : system.stream.phase = .starting ∨ system.stream.phase = .raised)
      (fresh : system.received = []) (idle : system.stream.pending = [])
  | seeding (run : Run) (phase : system.stream.phase = .seeding)
      (read : system.stream.run = some run) (known : system.Held (runContent run))
      (told : system.received = [] ∧ system.stream.pending = [buildSyncEvent run] ∨
        system.received = [buildSyncEvent run] ∧ system.stream.pending = [])
  | looping (phase : system.stream.phase.looping = true)
      (tells : Tells system.Held system.received.getLast? system.text system.stream)
      (quiet : Quiet system.received)
  | raised (phase : system.stream.phase = .raised) (idle : system.stream.pending = [])
      (there : system.Held system.text) (quiet : Quiet system.received)
  | returned (run : Run) (front : List Event) (phase : system.stream.phase = .returned)
      (read : system.stream.run = some run) (ended : run.status.terminal = true)
      (shows : Shows Event.edit system.Held system.received.getLast? system.text
        system.stream.pending)
      (whole : shown Event.edit system.text system.stream.pending = runContent run)
      (events : system.received ++ system.stream.pending = front ++ [terminalStreamEvent run])
      (quiet : Quiet front)

structure Sound (system : System) : Prop where
  storedRun : ∀ run ∈ system.stores.run, run ∈ system.rows
  storedMirror : ∀ content ∈ system.stores.mirror, content ∈ system.mirrored
  readRow : ∀ run ∈ system.stream.run, run ∈ system.rows
  stage : Stage system

theorem Tells.weaken (tells : Tells held last text stream)
    (implied : ∀ text, held text → wider text) : Tells wider last text stream :=
  ⟨tells.shows.weaken implied, tells.cursor, tells.quiet⟩

theorem Stage.weaken {after : System} (stage : Stage system)
    (sameStream : after.stream = system.stream) (sameReceived : after.received = system.received)
    (implied : ∀ text, system.Held text → after.Held text) : Stage after := by
  have sameText : after.text = system.text := by rw [System.text, sameReceived, System.text]
  cases stage with
  | opening phase fresh idle =>
    exact .opening (sameStream ▸ phase) (sameReceived ▸ fresh) (sameStream ▸ idle)
  | seeding run phase read known told =>
    exact .seeding run (sameStream ▸ phase) (sameStream ▸ read) (implied _ known)
      (by rwa [sameStream, sameReceived])
  | looping phase tells quiet =>
    refine .looping (sameStream ▸ phase) ?_ (sameReceived ▸ quiet)
    rw [sameReceived, sameText, sameStream]
    exact tells.weaken implied
  | raised phase idle there quiet =>
    exact .raised (sameStream ▸ phase) (sameStream ▸ idle) (sameText ▸ implied _ there)
      (sameReceived ▸ quiet)
  | returned run front phase read ended shows whole events quiet =>
    refine .returned run front (sameStream ▸ phase) (sameStream ▸ read) ended ?_ ?_ ?_ quiet
    · rw [sameReceived, sameText, sameStream]
      exact shows.weaken implied
    · rw [sameText, sameStream, whole]
    · rw [sameReceived, sameStream, events]

def System.take (system : System) (event : Event) (pending : List Event) : System :=
  { system with
    stream := { system.stream with pending }
    received := system.received ++ [event] }

theorem take_text (system : System) (event : Event) (pending : List Event) :
    (system.take event pending).text = taken Event.edit system.text event := by
  simp [System.take, System.text, shown_append]

theorem Stage.take (stage : Stage system) {pending : List Event}
    (first : system.stream.pending = event :: pending) : Stage (system.take event pending) := by
  have latest : (system.take event pending).received.getLast? = some event :=
    List.getLast?_concat
  cases stage with
  | opening phase fresh idle =>
    rw [idle] at first
    cases first
  | seeding run phase read known told =>
    rcases told with ⟨fresh, waiting⟩ | ⟨_, idle⟩
    · rw [waiting] at first
      cases first
      refine .seeding run phase read known (.inr ⟨?_, rfl⟩)
      simp [System.take, fresh]
    · rw [idle] at first
      cases first
  | looping phase tells quiet =>
    have quietPending := tells.quiet
    have cursor := tells.cursor
    rw [first] at quietPending cursor
    have single := quiet_single (quietPending event (mem_cons_self ..))
    refine .looping phase ⟨?_, ?_, ?_⟩ (quiet.append single)
    · rw [latest, take_text]
      exact (first ▸ tells.shows).tail
    · rw [take_text]
      exact cursor
    · exact fun other member => quietPending other (mem_cons_of_mem _ member)
  | raised phase idle there quiet =>
    rw [idle] at first
    cases first
  | returned run front phase read ended shows whole events quiet =>
    rw [first] at events whole
    refine .returned run front phase read ended ?_ ?_ ?_ quiet
    · rw [latest, take_text]
      exact (first ▸ shows).tail
    · rw [take_text]
      exact whole
    · simpa [System.take] using events

theorem Tells.idle (there : held text) (idle : stream.pending = [])
    (cursor : text = stream.emittedContent) : Tells held last text stream where
  shows := idle ▸ .settled there
  cursor := by rw [idle, shown_nil, cursor]
  quiet := idle ▸ quiet_nil

theorem Stage.start (stores : ∀ run ∈ system.stores.run, run ∈ system.rows)
    (fresh : system.received = []) (idle : system.stream.pending = []) :
    Stage { system with stream := startBlock system.stores system.stream } := by
  unfold startBlock
  split
  · exact .opening (.inr rfl) fresh idle
  · rename_i run there
    exact .seeding run rfl rfl (.inl ⟨run, stores run there, rfl⟩) (.inl ⟨fresh, rfl⟩)

theorem Stage.seed {run : Run} (known : system.Held (runContent run))
    (told : system.received = [buildSyncEvent run]) (idle : system.stream.pending = []) :
    Stage { system with stream := seedBlock system.stores run system.stream } := by
  have whole : system.text = runContent run := by
    rw [System.text, told]
    rfl
  have quiet : Quiet system.received := told ▸ quiet_single rfl
  unfold seedBlock
  split
  · exact .looping rfl (.idle (whole ▸ known) idle whole) quiet
  · exact .looping rfl (.idle (whole ▸ known) idle whole) quiet

theorem Stage.live (stores : ∀ content ∈ system.stores.mirror, content ∈ system.mirrored)
    (tells : Tells system.Held system.received.getLast? system.text system.stream)
    (quiet : Quiet system.received) :
    Stage { system with stream := liveBlock system.stores system.stream } := by
  unfold liveBlock
  split
  · exact .looping rfl (tells.same rfl rfl) quiet
  · rename_i content there
    have published := tells.publishContent (.inr (stores content there))
    exact .looping rfl (published.same rfl rfl) quiet

theorem Stage.poll (tells : Tells system.Held system.received.getLast? system.text system.stream)
    (quiet : Quiet system.received) (idle : system.stream.pending = []) :
    Stage { system with stream := pollBlock system.stores system.stream } := by
  unfold pollBlock
  split
  · exact .looping rfl (tells.same rfl rfl) quiet
  · split
    · have there := tells.shows.last_held
      rw [idle, shown_nil] at there
      exact .raised rfl idle there quiet
    · rename_i run _
      refine .looping rfl (Tells.readRun ?_ ?_ run) quiet
      · exact tells.same rfl rfl
      · exact idle

theorem publishContent_run (content : Text) (stream : Stream) :
    (publishContent content stream).run = stream.run := by
  unfold publishContent
  split <;> rfl

theorem publishQueue_run (stores : Stores) (run : Run) (stream : Stream) :
    (publishQueue stores run stream).run = stream.run := by
  unfold publishQueue
  split
  · dsimp only
    split <;> rfl
  · rfl

theorem publishStep_run (stream : Stream) (step : RunStep) :
    (publishStep stream step).run = stream.run := by
  unfold publishStep
  split <;> rfl

theorem publishSteps_run (run : Run) (stream : Stream) :
    (publishSteps run stream).run = stream.run := by
  unfold publishSteps
  induction runStreamSteps run generalizing stream with
  | nil => rfl
  | cons step rest ih => exact (ih (publishStep stream step)).trans (publishStep_run stream step)

theorem Stage.reconcile {run : Run} (read : system.stream.run = some run)
    (known : system.Held (runContent run))
    (tells : Tells system.Held system.received.getLast? system.text system.stream)
    (quiet : Quiet system.received) :
    Stage { system with stream := reconcileBlock system.stores run system.stream } := by
  have caught := ((tells.publishQueue system.stores run).publishSteps run).publishContent known
  unfold reconcileBlock finishPoll
  split
  · rename_i ended
    have kept := terminalStreamEvent_edit run
    have whole : shown Event.edit system.text
        (publishContent (runContent run)
          (publishSteps run (publishQueue system.stores run system.stream))).pending =
        runContent run :=
      caught.cursor.trans (publishContent_emitted ..)
    refine .returned run _ rfl ?_ ended ?_ ?_ (append_assoc ..).symm
      (quiet.append caught.quiet)
    · simp only [publishContent_run, publishSteps_run, publishQueue_run, read]
    · refine caught.shows.append fun last => .step caught.shows.last_held (.settled ?_)
      rw [taken_none kept]
      exact caught.shows.last_held
    · rw [shown_append]
      exact (taken_none kept).trans whole
  · exact .looping rfl (caught.same rfl rfl) quiet

theorem Stage.rest (tells : Tells system.Held system.received.getLast? system.text system.stream)
    (quiet : Quiet system.received) (idle : system.stream.pending = []) :
    Stage { system with stream := restBlock system.stores system.stream } := by
  have top : system.stream.mode.top.looping = true := by
    cases system.stream.mode <;> rfl
  unfold restBlock
  split
  · refine .looping top (tells.silent .ping ?_ rfl rfl rfl) quiet
    rw [idle]
    rfl
  · exact .looping top (tells.same rfl rfl) quiet

theorem Sound.advance (sound : Sound system) {next : Stream} (idle : system.stream.pending = [])
    (taken : advance system.stores system.stream = some next) :
    Stage { system with stream := next } := by
  have readContent : ∀ run, system.stream.run = some run → system.Held (runContent run) :=
    fun run read => .inl ⟨run, sound.readRow run read, rfl⟩
  unfold RunEvents.advance at taken
  rcases sound.stage with ⟨phase, fresh, _⟩ | ⟨run, phase, read, known, told⟩ |
    ⟨phase, tells, quiet⟩ | ⟨phase, _, _, _⟩ | ⟨run, front, phase, read, _, _, _, _, _⟩
  · rcases phase with starting | raised
    · simp only [starting] at taken
      cases taken
      exact .start sound.storedRun fresh idle
    · simp [raised] at taken
  · simp only [phase, read] at taken
    cases taken
    rcases told with ⟨_, waiting⟩ | ⟨told, _⟩
    · rw [idle] at waiting
      cases waiting
    · exact .seed known told idle
  · rcases Phase.looping_cases phase with live | poll | reconcile | resting
    · simp only [live] at taken
      cases taken
      exact .live sound.storedMirror tells quiet
    · simp only [poll] at taken
      cases taken
      exact .poll tells quiet idle
    · cases read : system.stream.run with
      | none => simp [reconcile, read] at taken
      | some run =>
        simp only [reconcile, read] at taken
        cases taken
        exact .reconcile read (readContent run read) tells quiet
    · simp only [resting] at taken
      cases taken
      exact .rest tells quiet idle
  · simp [phase] at taken
  · simp [phase] at taken

theorem advance_run {stores : Stores} {stream next : Stream}
    (taken : advance stores stream = some next) :
    next.run = stream.run ∨ next.run = stores.run := by
  unfold advance at taken
  split at taken
  · cases taken
    unfold startBlock
    split
    · exact .inl rfl
    · rename_i run there
      exact .inr there.symm
  · cases taken
    unfold seedBlock
    split <;> exact .inl rfl
  · cases taken
    unfold liveBlock
    split
    · exact .inl rfl
    · exact .inl (publishContent_run ..)
  · cases taken
    unfold pollBlock
    split
    · exact .inl rfl
    · split
      · exact .inl rfl
      · rename_i run there
        exact .inr there.symm
  · cases taken
    refine .inl ?_
    unfold reconcileBlock finishPoll
    split <;> simp only [publishContent_run, publishSteps_run, publishQueue_run]
  · cases taken
    unfold restBlock
    split <;> exact .inl rfl
  · cases taken

theorem System.Held.grow {after : System} (rows : ∀ run ∈ system.rows, run ∈ after.rows)
    (mirrored : ∀ text ∈ system.mirrored, text ∈ after.mirrored) (text : Text)
    (there : system.Held text) : after.Held text := by
  rcases there with ⟨run, stored, same⟩ | mirror
  · exact .inl ⟨run, rows run stored, same⟩
  · exact .inr (mirrored text mirror)

theorem attach_sound (mode : Mode) (stores : Stores) : Sound (attach mode stores) where
  storedRun run there := by simpa [attach] using there
  storedMirror content there := by simpa [attach] using there
  readRow run there := by cases there
  stage := .opening (.inl rfl) rfl rfl

theorem step_sound {next : System} {action : Action} (sound : Sound system)
    (taken : step system action = some next) : Sound next := by
  cases action with
  | writeRun run =>
    cases taken
    refine ⟨?_, sound.storedMirror, ?_, ?_⟩
    · exact fun stored there => mem_append_right _ (by simpa using there)
    · exact fun read there => mem_append_left _ (sound.readRow read there)
    · refine sound.stage.weaken rfl rfl (System.Held.grow ?_ fun _ there => there)
      exact fun stored there => mem_append_left _ there
  | writeQueue position waiting =>
    cases taken
    exact ⟨sound.storedRun, sound.storedMirror, sound.readRow,
      sound.stage.weaken rfl rfl fun _ there => there⟩
  | writeMirror content =>
    cases taken
    refine ⟨sound.storedRun, ?_, sound.readRow, ?_⟩
    · exact fun stored there => mem_append_right _ (by simpa using there)
    · refine sound.stage.weaken rfl rfl (System.Held.grow (fun _ there => there) ?_)
      exact fun stored there => mem_append_left _ there
  | pass loopTime now =>
    cases taken
    exact ⟨sound.storedRun, sound.storedMirror, sound.readRow,
      sound.stage.weaken rfl rfl fun _ there => there⟩
  | next =>
    simp only [step] at taken
    split at taken
    · rename_i event pending first
      cases taken
      exact ⟨sound.storedRun, sound.storedMirror, sound.readRow, sound.stage.take first⟩
    · rename_i idle
      obtain ⟨stream, advanced, rfl⟩ := Option.map_eq_some_iff.mp taken
      refine ⟨sound.storedRun, sound.storedMirror, ?_, sound.advance idle advanced⟩
      intro run there
      rcases advance_run advanced with same | same
      · exact sound.readRow run (same ▸ there)
      · exact sound.storedRun run (same ▸ there)

/-- Behind an event the answer is a text that one of the stores held. -/
def TextHeld (system : System) : Prop := system.received ≠ [] → system.Held system.text

/-- The same, but for a reset that the token with a held text follows at once. -/
def TextHeldOrReset (system : System) : Prop :=
  system.received ≠ [] → system.Held system.text ∨
    system.received.getLast? = some .tokenReset ∧ system.text = [] ∧
      ∃ content pending, system.stream.pending = .token content :: pending ∧
        system.Held content

/-- Behind the terminal event the answer is the content of the row that was read with
that status. -/
def TerminalExact (system : System) : Prop :=
  ∀ event, system.received.getLast? = some event → event.terminal = true →
    ∃ run ∈ system.rows, system.stream.run = some run ∧ run.status.terminal = true ∧
      event = terminalStreamEvent run ∧ system.text = runContent run

theorem edit_clear (clears : event.edit = some .clear) : event = .tokenReset := by
  cases event with
  | tokenReset => rfl
  | _ => simp [Event.edit] at clears

theorem edit_append {more : Text} (appends : event.edit = some (.append more)) :
    event = .token more := by
  cases event with
  | token content =>
    simp only [Event.edit, Option.some.injEq, Edit.append.injEq] at appends
    rw [appends]
  | _ => simp [Event.edit] at appends

theorem shows_heldOrReset (shows : Shows Event.edit system.Held system.received.getLast? system.text
      system.stream.pending) : TextHeldOrReset system := by
  intro _
  rcases shows.now with there | ⟨empty, clear, item, rest, more, last, first, clears, appends,
    after⟩
  · exact .inl there
  · rw [edit_clear clears] at last
    rw [edit_append appends] at first
    exact .inr ⟨last, empty, more, rest, first, after⟩

theorem Sound.textHeldOrReset (sound : Sound system) : TextHeldOrReset system := by
  cases sound.stage with
  | opening phase fresh idle => exact fun some => absurd fresh some
  | seeding run phase read known told =>
    rcases told with ⟨fresh, _⟩ | ⟨told, _⟩
    · exact fun some => absurd fresh some
    · intro _
      rw [System.text, told]
      exact .inl known
  | looping phase tells quiet => exact shows_heldOrReset tells.shows
  | raised phase idle there quiet => exact fun _ => .inl there
  | returned run front phase read ended shows whole events quiet => exact shows_heldOrReset shows

theorem Quiet.at_last {events : List Event} (quiet : Quiet events)
    (last : events.getLast? = some event) : event.terminal = false :=
  quiet event (mem_of_getLast? last)

theorem Sound.terminalExact (sound : Sound system) : TerminalExact system := by
  intro event last terminal
  have loud : ¬ Quiet system.received := by
    intro quiet
    rw [quiet.at_last last] at terminal
    cases terminal
  rcases sound.stage with ⟨_, fresh, _⟩ | ⟨run, _, _, _, told⟩ | ⟨_, _, quiet⟩ |
    ⟨_, _, _, quiet⟩ | ⟨run, front, _, read, ended, _, whole, events, quiet⟩
  · exact absurd (fresh ▸ quiet_nil) loud
  · rcases told with ⟨fresh, _⟩ | ⟨told, _⟩
    · exact absurd (fresh ▸ quiet_nil) loud
    · exact absurd (told ▸ quiet_single rfl) loud
  · exact absurd quiet loud
  · exact absurd quiet loud
  · rcases eq_nil_or_concat system.stream.pending with idle | ⟨pending, final, queued⟩
    · rw [idle, append_nil] at events
      rw [events, List.getLast?_concat] at last
      rw [idle, shown_nil] at whole
      exact ⟨run, sound.readRow run read, read, ended, (Option.some.inj last).symm, whole⟩
    · rw [queued, concat_eq_append, ← append_assoc] at events
      have prior := (append_inj' events rfl).1
      refine absurd ?_ loud
      intro other member
      exact quiet other (prior ▸ mem_append_left _ member)

/-- Whatever the row and the mirror hold while a client is attached to either stream, and
however the writers stand between the events: the answer of the client is a text that one
of them held after every event but a reset that the rest follows at once, and behind the
terminal event it is the content of the row that was read with the terminal status. -/
theorem stream_text (mode : Mode) (stores : Stores) (system : System)
    (reached : Reachable step (attach mode stores) system) :
    TextHeldOrReset system ∧ TerminalExact system := by
  have sound := reached.invariant Sound (fun _ _ _ sound taken => step_sound sound taken)
    (attach_sound mode stores)
  exact ⟨sound.textHeldOrReset, sound.terminalExact⟩

def answering (status : RunStatus.Status) (content : Text) : Run where
  status
  resumeBy := none
  outcome := none
  terminationDetail := []
  error := []
  outputMessage := some content
  steps := []

def storing (content : Text) (mirror : Option Text) : Stores where
  run := some (answering .streaming content)
  queuePosition := 0
  datasourceWaiting := false
  mirror
  loopTime := 0
  now := 0

/-- The mirror is ahead of the row, then the run is done with another answer. -/
theorem stream_text_done :
    ∃ system, Reachable step (attach .async (storing ['P'] (some ['P', 'a', 'r']))) system ∧
      system.received.getLast? = some (.done .done none []) ∧ system.text = ['O', 's', 'l', 'o'] ∧
      TextHeldOrReset system ∧ TerminalExact system := by
  have ran : (exec step (attach .async (storing ['P'] (some ['P', 'a', 'r'])))
      ([.next, .next, .next, .next, .next, .writeRun (some (answering .done ['O', 's', 'l', 'o']))] ++
        List.replicate 6 .next)).any (fun system =>
      decide (system.received.getLast? = some (.done .done none []) ∧
        system.text = ['O', 's', 'l', 'o'])) = true := by decide
  rcases (Option.any_eq_true _ _).mp ran with ⟨system, executed, holds⟩
  have reached := exec_reachable executed
  have told := of_decide_eq_true holds
  exact ⟨system, reached, told.1, told.2, stream_text _ _ system reached⟩

/-- Between the reset and the token of a rewritten answer the client has no text, which
neither store held. -/
theorem reset_text_unheld :
    ¬ ∀ (mode : Mode) (stores : Stores) (system : System),
      Reachable step (attach mode stores) system → TextHeld system := by
  intro claimed
  have ran : (exec step (attach .polling (storing ['P'] none))
      ([.next, .next, .next, .writeRun (some (answering .streaming ['O'])), .next, .next, .next,
        .next])).any (fun system => decide (system.received ≠ [] ∧ system.text = [] ∧
      system.rows.map runContent = [['P'], ['O']] ∧ system.mirrored = [])) = true := by decide
  rcases (Option.any_eq_true _ _).mp ran with ⟨system, executed, holds⟩
  obtain ⟨some, empty, rows, mirrored⟩ := of_decide_eq_true holds
  have held := claimed _ _ system (exec_reachable executed) some
  rw [empty] at held
  rcases held with ⟨run, stored, blank⟩ | mirror
  · have member : [] ∈ system.rows.map runContent := mem_map.mpr ⟨run, stored, blank⟩
    rw [rows] at member
    simp at member
  · rw [mirrored] at mirror
    cases mirror

end SourceLens.RunEvents
