import SourceLens.PublishedAnswer
import SourceLens.UserInputNeutral

/-! The invariant of a streamed answer: what is shown is what was read, once its start is
known to be no tool call. -/

namespace SourceLens.PublishedAnswer

open GatewayStream List
open PyText (isSpace)
open UserInput (WordClass)

structure Still (before after : Reader) : Prop where
  parts : after.contentParts = before.contentParts
  published : after.publishedParts = before.publishedParts
  checked : after.outputPrefixChecked = before.outputPrefixChecked
  protocol : after.protocolText = before.protocolText
  shown : emitted after.effects = emitted before.effects

theorem Still.refl (reader : Reader) : Still reader reader := ⟨rfl, rfl, rfl, rfl, rfl⟩

theorem Still.trans {first second third : Reader} (one : Still first second)
    (two : Still second third) : Still first third :=
  ⟨two.parts.trans one.parts, two.published.trans one.published, two.checked.trans one.checked,
    two.protocol.trans one.protocol, two.shown.trans one.shown⟩

theorem emitted_append (effects more : List Effect) :
    emitted (effects ++ more) = emitted effects ++ emitted more :=
  filterMap_append

theorem emitted_outputs (texts : List Json) : emitted (texts.map Effect.output) = texts := by
  rw [emitted, filterMap_map]
  exact filterMap_some

theorem still_call (reader : Reader) (wanted : Bool) {effect : Effect}
    (silent : emitted [effect] = []) : Still reader (reader.call wanted effect) := by
  cases wanted with
  | false => exact .refl reader
  | true =>
    refine ⟨rfl, rfl, rfl, rfl, ?_⟩
    rw [Reader.call, if_pos rfl, emitted_append, silent, append_nil]

theorem still_takeFirst (setup : Setup) (reader : Reader) (kind : Json) :
    Still reader (reader.takeFirst setup kind) := by
  rw [Reader.takeFirst]
  split
  · exact .refl reader
  · exact (still_call reader setup.records rfl).trans ⟨rfl, rfl, rfl, rfl, rfl⟩

theorem still_takeToolCall (setup : Setup) (loads : List Char → Option Json) (reader : Reader)
    (text : Json) : Still reader (reader.takeToolCall setup loads text) := by
  rw [Reader.takeToolCall]
  split
  · split
    · exact still_call reader true rfl
    · exact .refl reader
  · exact .refl reader

theorem takeData_event (setup : Setup) (loads : List Char → Option Json) (reader : Reader)
    (event : Event) :
    (∃ text before, chunkOf event = [(.content, text)] ∧ Still reader before ∧
        reader.takeData setup loads event.json = before.takeContent setup (.str text)) ∨
      contentTexts (chunkOf event) = [] ∧
        Still reader (reader.takeData setup loads event.json) := by
  have active : Still reader (reader.call setup.watchesActivity .activity) := still_call _ _ rfl
  cases event with
  | heartbeat => exact .inr ⟨rfl, active⟩
  | retry code attempt => exact .inr ⟨rfl, active.trans (still_call _ _ rfl)⟩
  | token kind text =>
    by_cases empty : text = ""
    · subst empty
      refine .inr ⟨rfl, ?_⟩
      cases kind <;> exact active
    · have whole : orElse (.str text) (.str "") = .str text :=
        if_pos (by simp [Json.truthy, empty])
      have named : orElse (.str kind.name) (.str "content") = .str kind.name := by
        cases kind <;> rfl
      let taken : Reader :=
        { (reader.call setup.watchesActivity .activity).takeFirst setup (.str kind.name) with
          received := (reader.call setup.watchesActivity .activity).received ++
            [(.str kind.name, .str text)] }
      have still : Still reader taken :=
        (active.trans (still_takeFirst setup _ _)).trans ⟨rfl, rfl, rfl, rfl, rfl⟩
      have read : reader.takeData setup loads (Event.json (.token kind text)) =
          taken.takeKind setup loads (.str kind.name) (.str text) := by
        have token : reader.takeData setup loads (Event.json (.token kind text)) =
            (reader.call setup.watchesActivity .activity).takeToken setup loads
              [("type", .str "token"), ("kind", .str kind.name), ("content", .str text)] := rfl
        rw [token, Reader.takeToken]
        have kindField : Json.getOrNull [("type", .str "token"), ("kind", .str kind.name),
            ("content", .str text)] "kind" = .str kind.name := rfl
        have textField : Json.getOrNull [("type", .str "token"), ("kind", .str kind.name),
            ("content", .str text)] "content" = .str text := rfl
        rw [kindField, textField, named, whole, if_pos (by simp [Json.truthy, empty])]
      cases kind with
      | content => exact .inl ⟨text, taken, if_neg empty, still, read⟩
      | reasoning =>
        refine .inr ⟨by simp [chunkOf, empty, contentTexts], ?_⟩
        rw [read]
        have added : Still taken
            { taken with reasoningParts := taken.reasoningParts ++ [.str text] } :=
          ⟨rfl, rfl, rfl, rfl, rfl⟩
        exact (still.trans added).trans (still_call _ setup.readsReasoning rfl)
      | toolCall =>
        refine .inr ⟨by simp [chunkOf, empty, contentTexts], ?_⟩
        rw [read]
        exact still.trans (still_takeToolCall setup loads taken (.str text))

def textOf (read : List (Kind × String)) : List Char := (contentTexts read).flatMap String.toList

structure Shown (words : WordClass) (reader : Reader) (read : List (Kind × String)) : Prop where
  content : reader.contentParts = (contentTexts read).map Json.str
  shown : emitted reader.effects = reader.contentParts.take reader.publishedParts
  within : reader.publishedParts ≤ reader.contentParts.length
  waiting : reader.outputPrefixChecked = false → reader.publishedParts = 0
  hidden : reader.protocolText = true → reader.publishedParts = 0
  settled : reader.outputPrefixChecked = true →
    ∀ more, toolProtocolPrefix words (textOf read ++ more) = reader.protocolText

variable {words : WordClass} {reader other : Reader} {read : List (Kind × String)}

theorem Shown.still (shown : Shown words reader read) (still : Still reader other) :
    Shown words other read where
  content := still.parts.trans shown.content
  shown := by rw [still.shown, still.parts, still.published, shown.shown]
  within := by
    rw [still.published, still.parts]
    exact shown.within
  waiting := by
    rw [still.checked, still.published]
    exact shown.waiting
  hidden := by
    rw [still.protocol, still.published]
    exact shown.hidden
  settled := by
    rw [still.checked, still.protocol]
    exact shown.settled

theorem textOf_append (read more : List (Kind × String)) :
    textOf (read ++ more) = textOf read ++ textOf more := by
  simp [textOf, contentTexts, filter_append]

theorem Shown.checkPrefix {setup : Setup} (protocol : setup.protocolPrefix = toolProtocolPrefix words)
    (shown : Shown words reader read) : Shown words (reader.checkPrefix setup) read := by
  have joined : joinParts reader.contentParts = some (textOf read) := by
    rw [shown.content, joinParts_strs, textOf]
  rw [Reader.checkPrefix]
  split
  · exact shown
  · rename_i unchecked
    rw [joined]
    dsimp only
    split
    · rename_i decided
      refine ⟨shown.content, shown.shown, shown.within, nofun,
        fun _ => shown.waiting (Bool.eq_false_iff.mpr unchecked), fun _ more => ?_⟩
      rw [protocol]
      exact decided_append words decided more
    · exact shown

theorem Shown.publishParts (shown : Shown words reader read) :
    Shown words reader.publishParts read := by
  rw [Reader.publishParts]
  split
  · rename_i allowed
    rw [Bool.and_eq_true, Bool.and_eq_true, Bool.not_eq_true'] at allowed
    obtain ⟨⟨-, checked⟩, plain⟩ := allowed
    refine ⟨shown.content, ?_, Nat.le_refl _, ?_, ?_, shown.settled⟩
    · dsimp only
      rw [emitted_append, emitted_outputs, shown.shown, take_append_drop, take_length]
    · exact fun unchecked => absurd (checked.symm.trans unchecked) (by decide)
    · exact fun protocol => absurd (plain.symm.trans protocol) (by decide)
  · exact shown

theorem Shown.takeContent {setup : Setup} (protocol : setup.protocolPrefix = toolProtocolPrefix words)
    (shown : Shown words reader read) (text : String) :
    Shown words (reader.takeContent setup (.str text)) (read ++ [(.content, text)]) := by
  have taken : Shown words { reader with contentParts := reader.contentParts ++ [.str text] }
      (read ++ [(.content, text)]) := by
    refine ⟨?_, ?_, ?_, shown.waiting, shown.hidden, fun checked more => ?_⟩
    · rw [contentTexts_content, map_append, ← shown.content]
      rfl
    · rw [take_append_of_le_length shown.within]
      exact shown.shown
    · rw [length_append]
      exact Nat.le_add_right_of_le shown.within
    · rw [textOf_append, append_assoc]
      exact shown.settled checked _
  rw [Reader.takeContent]
  split
  · exact (taken.checkPrefix protocol).publishParts
  · exact taken

theorem Shown.takeData {setup : Setup} (protocol : setup.protocolPrefix = toolProtocolPrefix words)
    (loads : List Char → Option Json) (shown : Shown words reader read) (event : Event) :
    Shown words (reader.takeData setup loads event.json) (read ++ chunkOf event) := by
  rcases takeData_event setup loads reader event with
    ⟨text, before, chunk, still, taken⟩ | ⟨none', still⟩
  · rw [taken, chunk]
    exact (shown.still still).takeContent protocol text
  · have after := shown.still still
    have same : textOf (read ++ chunkOf event) = textOf read := by
      rw [textOf_append, textOf, textOf, none', flatMap_nil, append_nil]
    refine ⟨?_, after.shown, after.within, after.waiting, after.hidden, ?_⟩
    · rw [after.content, contentTexts, contentTexts, filter_append, map_append]
      rw [contentTexts] at none'
      rw [none', append_nil]
    · rw [same]
      exact after.settled

variable (env : Env) (setup : Setup) (loads : List Char → Option Json)

theorem readEvents_shown (events : List Event) :
    Live (readEvents env setup loads events) (chunks events) ∧
      Shown env.words (readEvents env setup loads events) (chunks events) := by
  induction events using List.reverseRecOn with
  | nil => exact ⟨live_start, ⟨rfl, rfl, Nat.le_refl _, fun _ => rfl, nofun, nofun⟩⟩
  | append_singleton events event ih =>
    obtain ⟨live, shown⟩ := ih
    have step : readEvents env setup loads (events ++ [event]) =
        (readEvents env setup loads events).takeData (withPrefix env setup) loads event.json := by
      have calm : ((events.map Event.json).foldl (takeDecoded env setup loads) {}).raised = none :=
        live.calm
      rw [readEvents, map_append, foldl_append]
      exact if_neg (by rw [calm]; decide)
    have more : chunks (events ++ [event]) = chunks events ++ chunkOf event := by
      rw [chunks_flatMap, chunks_flatMap, flatMap_append, flatMap_singleton]
    rw [step, more]
    exact ⟨takeData_live _ loads live event, shown.takeData rfl loads event⟩

theorem textOf_chunks (events : List Event) : textOf (chunks events) = contentOf events := by
  rw [textOf, contentTexts, contentOf, flatMap_map]

theorem readTerminal_shown (events : List Event) (terminal : Option Terminal) :
    ∃ last, (terminal.toList.map Terminal.json).foldl (takeDecoded env setup loads)
        (readEvents env setup loads events) = last ∧
      Shown env.words last (chunks events) ∧
      last.ending = terminal.elim (.raised endedEarly) (Terminal.ending (contentOf events)) := by
  obtain ⟨live, shown⟩ := readEvents_shown env setup loads events
  refine ⟨_, rfl, ?_⟩
  cases terminal with
  | none =>
    refine ⟨shown, ?_⟩
    rw [Option.toList_none, map_nil, foldl_nil, Reader.ending, live.calm]
    simp [live.waiting]
  | some terminal =>
    have step : takeDecoded env setup loads (readEvents env setup loads events) terminal.json =
        (readEvents env setup loads events).takeData (withPrefix env setup) loads
          terminal.json := if_neg (by rw [live.calm]; decide)
    have still : Still (readEvents env setup loads events)
        ((readEvents env setup loads events).takeData (withPrefix env setup) loads
          terminal.json) := by
      have active : Still (readEvents env setup loads events)
          ((readEvents env setup loads events).call setup.watchesActivity .activity) :=
        still_call _ _ rfl
      cases terminal with
      | done => exact active.trans ⟨rfl, rfl, rfl, rfl, rfl⟩
      | error => exact active.trans ⟨rfl, rfl, rfl, rfl, rfl⟩
    rw [Option.toList_some, map_singleton, foldl_cons, foldl_nil, step]
    exact ⟨shown.still still, (takeData_terminal _ loads live terminal).2⟩

theorem messageFromGateway_none {Args Fingerprint : Type} (guard : RunGuardrails.Env Args Fingerprint)
    (response : RunGuardrails.Response Args) :
    RunGuardrails.messageFromGateway guard response = none ↔
      guard.protocolPrefix response.content = true ∧
        response.toolCalls.filterMap RunGuardrails.validCall = [] := by
  rw [RunGuardrails.messageFromGateway]
  split
  · rename_i marked
    exact ⟨fun _ => marked, fun _ => rfl⟩
  · rename_i plain
    refine ⟨fun made => absurd made ?_, fun marked => absurd marked plain⟩
    dsimp only
    split
    · simp
    · split
      · simp
      · simp

theorem shownText_prefix {effects shown : List Effect} {texts : List String}
    (parts : emitted effects <+: texts.map Json.str) (first : shown <+: effects) :
    shownText shown <+: texts.flatMap String.toList := by
  have reached : emitted shown <+: texts.map Json.str := (first.filterMap _).trans parts
  rw [shownText]
  refine (reached.flatMap _).trans ?_
  rw [flatMap_map]

variable {env setup loads} in
theorem Shown.nothing (shown : Shown env.words reader read)
    (marked : toolProtocolPrefix env.words (textOf read) = true) : emitted reader.effects = [] := by
  have unpublished : reader.publishedParts = 0 := by
    by_cases checked : reader.outputPrefixChecked = true
    · have same := shown.settled checked []
      rw [append_nil, marked] at same
      exact shown.hidden same.symm
    · exact shown.waiting (Bool.eq_false_iff.mpr checked)
  rw [shown.shown, unpublished, take_zero]

theorem emitted_publishRest (on : Publishes setup) (suppressOutput : Bool)
    (shown : Shown env.words reader read) (content : List Char) (toolCalls : Json) :
    emitted (publishRest setup suppressOutput reader content toolCalls) =
      if toolCalls.truthy then emitted reader.effects
      else (contentTexts read).map Json.str := by
  rw [publishRest, on.tokens, on.output, on.loud]
  by_cases wanted : toolCalls.truthy = true
  · simp [wanted]
  · rw [if_neg (by simp), if_pos (by simp [wanted]), if_neg wanted, emitted_append, emitted_outputs,
      shown.shown, take_append_drop, shown.content]

theorem finish_cases (suppressOutput : Bool) (reader : Reader) :
    finish env setup suppressOutput reader = ⟨reader.effects, .failed⟩ ∨
    (finish env setup suppressOutput reader = ⟨reader.effects, .protocolError⟩ ∧
      ∃ content usage toolCalls finishReason,
        reader.ending = .finished content usage toolCalls finishReason ∧
          toolProtocolPrefix env.words content = true) ∨
    ∃ content usage toolCalls finishReason calls message,
      reader.ending = .finished content usage toolCalls finishReason ∧
      readCalls env toolCalls = some calls ∧
      ¬(toolProtocolPrefix env.words content = true ∧
        calls.filterMap RunGuardrails.validCall = []) ∧
      finish env setup suppressOutput reader =
        ⟨publishRest setup suppressOutput reader content toolCalls, .message message⟩ := by
  cases ending : reader.ending with
  | raised error =>
    refine .inl ?_
    rw [finish, ending]
  | finished content usage toolCalls finishReason =>
    rw [finish, ending]
    dsimp only
    cases read : readCalls env toolCalls with
    | none => exact .inl rfl
    | some calls =>
      dsimp only
      have none' := messageFromGateway_none (guard env)
        ⟨content, reasonOf env finishReason, calls, ⟨none, none, none, none, none⟩⟩
      cases made : RunGuardrails.messageFromGateway (guard env)
          ⟨content, reasonOf env finishReason, calls, ⟨none, none, none, none, none⟩⟩ with
      | none =>
        have marked := (none'.mp made).1
        exact .inr (.inl ⟨rfl, content, usage, toolCalls, finishReason, rfl, marked⟩)
      | some message =>
        dsimp only
        split
        · exact .inl rfl
        · refine .inr (.inr ⟨content, usage, toolCalls, finishReason, calls, message, rfl, read,
            fun both => ?_, rfl⟩)
          rw [none'.mpr both] at made
          cases made

theorem ending_finished {events : List Event} {terminal : Option Terminal} {content : List Char}
    {usage toolCalls finishReason : Json}
    (ending : terminal.elim (.raised endedEarly) (Terminal.ending (contentOf events)) =
      .finished content usage toolCalls finishReason) :
    content = contentOf events ∧ (toolCalls.truthy = false → toolCalls = .arr []) ∧
      (NoToolCalls terminal → toolCalls.truthy = false) := by
  rcases terminal with _ | ⟨calls, reason, used, lensnodeUuid⟩ | ⟨code, message⟩
  · cases ending
  · cases ending
    refine ⟨rfl, ?_, fun absent => ?_⟩
    · rw [orElse]
      split
      · rename_i wanted
        exact fun unwanted => absurd (wanted.symm.trans unwanted) (by decide)
      · exact fun _ => rfl
    · rw [orElse, if_neg (by rw [absent calls _ used lensnodeUuid rfl]; decide)]
      rfl
  · cases ending

example : toolProtocolPrefix UserInput.asciiWords "\n<｜|DSML||\tcalls>".toList = true := by
  decide +kernel

def plainEnv : Env where
  words := UserInput.asciiWords
  loads _ := .value (.obj [])
  repr _ := "None"
  lower := List.map Char.toLower

def markedAnswer : List Event :=
  [.token .reasoning "hm", .token .content " <", .token .content "b>bold", .token .content "</b>"]

end SourceLens.PublishedAnswer
