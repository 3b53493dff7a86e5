import SourceLens.GatewayStream

/-! Which events survive the way from the gateway to the node. -/

namespace SourceLens.GatewayStream

open JsonText PyText TextLines List

variable {read : List (Kind × String)}

namespace Reader

variable (reader : Reader) (wanted : Bool) (effect : Effect)

@[simp] theorem call_received : (reader.call wanted effect).received = reader.received := by
  cases wanted <;> rfl

@[simp] theorem call_contentParts :
    (reader.call wanted effect).contentParts = reader.contentParts := by
  cases wanted <;> rfl

@[simp] theorem call_raised : (reader.call wanted effect).raised = reader.raised := by
  cases wanted <;> rfl

@[simp] theorem call_doneReceived :
    (reader.call wanted effect).doneReceived = reader.doneReceived := by
  cases wanted <;> rfl

end Reader

def contentTexts (read : List (Kind × String)) : List String :=
  (read.filter fun chunk => chunk.1 = .content).map Prod.snd

structure Live (reader : Reader) (read : List (Kind × String)) : Prop where
  received : reader.received = read.map readAs
  content : reader.contentParts = (contentTexts read).map Json.str
  calm : reader.raised = none
  waiting : reader.doneReceived = false

theorem live_start : Live {} [] := ⟨rfl, rfl, rfl, rfl⟩

theorem live_of_same {reader other : Reader} (live : Live reader read)
    (received : other.received = reader.received)
    (content : other.contentParts = reader.contentParts) (raised : other.raised = reader.raised)
    (done : other.doneReceived = reader.doneReceived) : Live other read :=
  ⟨received.trans live.received, content.trans live.content, raised.trans live.calm,
    done.trans live.waiting⟩

theorem live_call {reader : Reader} (live : Live reader read) (wanted : Bool) (effect : Effect) :
    Live (reader.call wanted effect) read :=
  live_of_same live (by simp) (by simp) (by simp) (by simp)

theorem joinParts_strs (texts : List String) :
    joinParts (texts.map Json.str) = some (texts.flatMap String.toList) := by
  induction texts with
  | nil => rfl
  | cons text texts ih => simp [joinParts, ih]

theorem checkPrefix_live (setup : Setup) {reader : Reader} (live : Live reader read) :
    Live (reader.checkPrefix setup) read := by
  have joined : joinParts reader.contentParts = some ((contentTexts read).flatMap String.toList) := by
    rw [live.content, joinParts_strs]
  unfold Reader.checkPrefix
  split
  · exact live
  · rw [joined]
    dsimp only
    split
    · exact live_of_same live rfl rfl rfl rfl
    · exact live

theorem publishParts_live {reader : Reader} (live : Live reader read) :
    Live reader.publishParts read := by
  unfold Reader.publishParts
  split
  · exact live_of_same live rfl rfl rfl rfl
  · exact live

theorem contentTexts_content (read : List (Kind × String)) (text : String) :
    contentTexts (read ++ [(.content, text)]) = contentTexts read ++ [text] := by
  simp [contentTexts]

theorem contentTexts_other (read : List (Kind × String)) (kind : Kind) (text : String)
    (other : kind ≠ .content) : contentTexts (read ++ [(kind, text)]) = contentTexts read := by
  simp [contentTexts, other]

theorem takeContent_live (setup : Setup) {reader : Reader} (text : String)
    (received : reader.received = (read ++ [(Kind.content, text)]).map readAs)
    (content : reader.contentParts = (contentTexts read).map Json.str) (calm : reader.raised = none)
    (waiting : reader.doneReceived = false) :
    Live (reader.takeContent setup (.str text)) (read ++ [(.content, text)]) := by
  have taken : Live { reader with contentParts := reader.contentParts ++ [.str text] }
      (read ++ [(.content, text)]) := by
    refine ⟨received, ?_, calm, waiting⟩
    rw [contentTexts_content, content, map_append, map_singleton]
  unfold Reader.takeContent
  dsimp only
  split
  · exact publishParts_live (checkPrefix_live setup taken)
  · exact taken

theorem takeToolCall_live (setup : Setup) (loads : List Char → Option Json) {reader : Reader}
    (live : Live reader read) (text : Json) : Live (reader.takeToolCall setup loads text) read := by
  unfold Reader.takeToolCall
  split
  · split
    · exact live_call live _ _
    · exact live
  · exact live

theorem takeKind_live (setup : Setup) (loads : List Char → Option Json) {reader : Reader}
    (kind : Kind) (text : String) (received : reader.received = (read ++ [(kind, text)]).map readAs)
    (content : reader.contentParts = (contentTexts read).map Json.str) (calm : reader.raised = none)
    (waiting : reader.doneReceived = false) :
    Live (reader.takeKind setup loads (.str kind.name) (.str text)) (read ++ [(kind, text)]) := by
  cases kind with
  | content => exact takeContent_live setup text received content calm waiting
  | reasoning =>
    have kept := contentTexts_other read .reasoning text (by decide)
    rw [Reader.takeKind, if_neg (by simp [Kind.name]), if_pos (by simp [Kind.name])]
    apply live_call
    exact ⟨received, kept ▸ content, calm, waiting⟩
  | toolCall =>
    have kept := contentTexts_other read .toolCall text (by decide)
    rw [Reader.takeKind, if_neg (by simp [Kind.name]), if_neg (by simp [Kind.name]),
      if_pos (by simp [Kind.name])]
    exact takeToolCall_live setup loads ⟨received, kept ▸ content, calm, waiting⟩ _

def chunkOf : Event → List (Kind × String)
  | .token kind text => if text = "" then [] else [(kind, text)]
  | _ => []

theorem chunks_cons (event : Event) (events : List Event) :
    chunks (event :: events) = chunkOf event ++ chunks events := by
  cases event with
  | token kind text => by_cases empty : text = "" <;> simp [chunks, chunkOf, empty]
  | retry code attempt => rfl
  | heartbeat => rfl

theorem token_live (setup : Setup) (loads : List Char → Option Json) {reader : Reader}
    (live : Live reader read) (kind : Kind) (text : String) (data : List (String × Json))
    (kindField : Json.getOrNull data "kind" = .str kind.name)
    (textField : Json.getOrNull data "content" = .str text) :
    Live (reader.takeToken setup loads data) (read ++ chunkOf (.token kind text)) := by
  have named : orElse (.str kind.name) (.str "content") = .str kind.name := by
    cases kind <;> rfl
  have whole : orElse (.str text) (.str "") = .str text := by
    by_cases empty : text = ""
    · rw [empty]
      rfl
    · simp [orElse, Json.truthy, empty]
  unfold Reader.takeToken
  rw [kindField, textField, named, whole]
  by_cases empty : text = ""
  · simpa [empty, Json.truthy, chunkOf] using live
  · simp only [Json.truthy, bne_iff_ne, ne_eq, empty, not_false_eq_true, if_true, chunkOf,
      if_false]
    apply takeKind_live
    · have before : (reader.takeFirst setup (.str kind.name)).received = reader.received := by
        unfold Reader.takeFirst
        split <;> simp
      simp [live.received, readAs]
    · unfold Reader.takeFirst
      split
      · exact live.content
      · simpa using live.content
    · unfold Reader.takeFirst
      split
      · exact live.calm
      · simpa using live.calm
    · unfold Reader.takeFirst
      split
      · exact live.waiting
      · simpa using live.waiting

theorem takeData_live (setup : Setup) (loads : List Char → Option Json) {reader : Reader}
    (live : Live reader read) (event : Event) :
    Live (reader.takeData setup loads event.json) (read ++ chunkOf event) := by
  have active := live_call live setup.watchesActivity .activity
  cases event with
  | token kind text => exact token_live setup loads active kind text _ rfl rfl
  | retry code attempt =>
    have none' : chunkOf (.retry code attempt) = [] := rfl
    rw [none', append_nil]
    exact live_call active _ _
  | heartbeat =>
    have none' : chunkOf .heartbeat = [] := rfl
    rw [none', append_nil]
    exact active

theorem content_join (read : List (Kind × String)) :
    joinParts ((contentTexts read).map Json.str) =
      some ((read.filter fun chunk => chunk.1 = .content).flatMap fun chunk => chunk.2.toList) := by
  rw [joinParts_strs, contentTexts, flatMap_map]

theorem takeData_terminal (setup : Setup) (loads : List Char → Option Json) {reader : Reader}
    (live : Live reader read) (terminal : Terminal) :
    (reader.takeData setup loads terminal.json).received = read.map readAs ∧
      (reader.takeData setup loads terminal.json).ending = terminal.ending
        ((read.filter fun chunk => chunk.1 = .content).flatMap fun chunk => chunk.2.toList) := by
  have active := live_call live setup.watchesActivity .activity
  cases terminal with
  | done toolCalls finishReason usage lensnodeUuid =>
    refine ⟨active.received, ?_⟩
    have again : orElse (orElse toolCalls (.arr [])) (.arr []) = orElse toolCalls (.arr []) := by
      by_cases some' : toolCalls.truthy = true <;> simp [orElse, some']
    have used : orElse (.obj usage) (.obj []) = .obj usage := by
      cases usage <;> rfl
    have read' : reader.takeData setup loads
        (Terminal.json (.done toolCalls finishReason usage lensnodeUuid)) =
        { reader.call setup.watchesActivity .activity with
          doneReceived := true
          usage := orElse (.obj usage) (.obj [])
          toolCalls := orElse (orElse toolCalls (.arr [])) (.arr [])
          finishReason := finishReason } := rfl
    rw [read', used, again]
    simp only [Reader.ending, active.calm, active.content, content_join, Terminal.ending, if_true]
  | error code message =>
    exact ⟨active.received, rfl⟩

/-- What a line does that carries no event: a call at most, or an exception. -/
def Quiet (before after : Reader) : Prop :=
  after.raised = some .attributeError ∨
    ∃ effects, after = { before with effects := effects }

theorem quiet_refl (reader : Reader) : Quiet reader reader := .inr ⟨reader.effects, rfl⟩

theorem quiet_call (reader : Reader) (wanted : Bool) (effect : Effect) :
    Quiet reader (reader.call wanted effect) := by
  cases wanted
  · exact quiet_refl reader
  · exact .inr ⟨_, rfl⟩

theorem quiet_live {before after : Reader} (live : Live before read) (quiet : Quiet before after) :
    after.raised = some .attributeError ∨ Live after read := by
  rcases quiet with crashed | ⟨effects, rfl⟩
  · exact .inl crashed
  · exact .inr (live_of_same live rfl rfl rfl rfl)

theorem takeData_quiet (setup : Setup) (loads : List Char → Option Json) (reader : Reader)
    (data : Json) (untyped : ∀ fields, data = .obj fields → ∀ field ∈ fields, field.1 ≠ "type") :
    Quiet reader (reader.takeData setup loads data) := by
  have active := quiet_call reader setup.watchesActivity .activity
  cases data with
  | obj fields =>
    have absent : fields.lookup "type" = none := by
      rw [lookup_eq_none_iff]
      intro field member
      have other := untyped fields rfl field member
      simpa using fun same => other same.symm
    have kept : reader.takeData setup loads (.obj fields) =
        reader.call setup.watchesActivity .activity := by
      simp [Reader.takeData, Reader.takeEvent, Json.getOrNull, Json.get?, absent]
    rw [kept]
    exact active
  | null => exact .inl rfl
  | bool value => exact .inl rfl
  | int value => exact .inl rfl
  | float value => exact .inl rfl
  | nonFinite name => exact .inl rfl
  | str value => exact .inl rfl
  | arr items => exact .inl rfl

theorem takeLine_raised (setup : Setup) (loads : List Char → Option Json) (reader : Reader)
    (line : List Char) (error : Raised) (raised : reader.raised = some error) :
    reader.takeLine setup loads line = reader := by
  simp [Reader.takeLine, raised]

theorem takeLines_raised (setup : Setup) (loads : List Char → Option Json) (lines : List (List Char))
    (reader : Reader) (error : Raised) (raised : reader.raised = some error) :
    lines.foldl (Reader.takeLine setup loads) reader = reader := by
  induction lines with
  | nil => rfl
  | cons line lines ih => rw [foldl_cons, takeLine_raised setup loads reader line error raised, ih]

theorem takeFrame_raised (setup : Setup) (loads : List Char → Option Json) (frame : List Char)
    (reader : Reader) (error : Raised) (raised : reader.raised = some error) :
    reader.takeFrame setup loads frame = reader :=
  takeLines_raised setup loads _ reader error raised

theorem takeFrames_raised (setup : Setup) (loads : List Char → Option Json)
    (frames : List (List Char)) (reader : Reader) (error : Raised)
    (raised : reader.raised = some error) :
    frames.foldl (Reader.takeFrame setup loads) reader = reader := by
  induction frames with
  | nil => rfl
  | cons frame frames ih =>
    rw [foldl_cons, takeFrame_raised setup loads frame reader error raised, ih]

section Frames

variable (floatText : ℚ → List Char) (floats : ∀ value, ∀ c ∈ floatText value, isMark c = true)
variable (setup : Setup) (loads : List Char → Option Json)

theorem dataPrefix_marks : ∀ c ∈ dataPrefix, isMark c = true := all_marks _ (by decide)

include floats in
theorem dumps_encoded (event : Json) : Encoded false (dumps floatText event) := by
  have whole := encoded_dumps floatText floats event [] .done
  rwa [append_nil] at whole

include floats in
theorem newline_absent (event : Json) : '\n' ∉ dataLine floatText event := by
  intro member
  rcases mem_append.mp member with inPrefix | inText
  · exact absurd inPrefix (by decide)
  · have high := encoded_printable false _ (dumps_encoded floatText floats event) '\n' inText
    exact absurd high (by decide)

include floats in
theorem takeFrame_plain (reader : Reader) (event : Json) (calm : reader.raised = none)
    (plain : oneLine event = true) (inverse : loads (dumps floatText event) = some event) :
    reader.takeFrame setup loads (dataLine floatText event) =
      reader.takeData setup loads event := by
  have unbroken : Unbroken (dataLine floatText event) :=
    (unbroken_append _ _).mpr ⟨marks_unbroken _ dataPrefix_marks,
      (dumps_unbroken floatText floats event).mpr plain⟩
  have starts : dataPrefix.isPrefixOf (dataLine floatText event) = true :=
    isPrefixOf_iff_prefix.mpr (prefix_append _ _)
  have rest : (dataLine floatText event).drop dataPrefix.length = dumps floatText event :=
    drop_left
  rw [Reader.takeFrame, splitlines_last _ unbroken (by simp [dataLine, dataPrefix]),
    foldl_cons, foldl_nil, Reader.takeLine, calm, starts, rest, inverse]
  rfl

theorem takeLine_untyped {reader : Reader} (live : Live reader read) (line : List Char)
    (untyped : ∀ rest fields, line = dataPrefix ++ rest → loads rest = some (.obj fields) →
      ∀ field ∈ fields, field.1 ≠ "type") :
    (reader.takeLine setup loads line).raised = some .attributeError ∨
      Live (reader.takeLine setup loads line) read := by
  by_cases starts : dataPrefix.isPrefixOf line = true
  · rcases isPrefixOf_iff_prefix.mp starts with ⟨rest, whole⟩
    have dropped : line.drop dataPrefix.length = rest := by rw [← whole, drop_left]
    cases decoded : loads rest with
    | none =>
      have kept : reader.takeLine setup loads line = reader := by
        simp [Reader.takeLine, live.calm, dropped, decoded]
      rw [kept]
      exact .inr live
    | some data =>
      have taken : reader.takeLine setup loads line = reader.takeData setup loads data := by
        simp [Reader.takeLine, live.calm, starts, dropped, decoded]
      rw [taken]
      apply quiet_live live
      apply takeData_quiet
      intro fields same
      exact untyped rest fields whole.symm (same ▸ decoded)
  · have kept : reader.takeLine setup loads line = reader := by
      simp [Reader.takeLine, starts]
    rw [kept]
    exact .inr live

theorem takeLines_untyped {reader : Reader} (live : Live reader read) (lines : List (List Char))
    (untyped : ∀ line ∈ lines, ∀ rest fields, line = dataPrefix ++ rest →
      loads rest = some (.obj fields) → ∀ field ∈ fields, field.1 ≠ "type") :
    (lines.foldl (Reader.takeLine setup loads) reader).raised = some .attributeError ∨
      Live (lines.foldl (Reader.takeLine setup loads) reader) read := by
  induction lines generalizing reader with
  | nil => exact .inr live
  | cons line lines ih =>
    rw [foldl_cons]
    rcases takeLine_untyped setup loads live line (untyped line mem_cons_self) with
      crashed | next
    · rw [takeLines_raised setup loads lines _ _ crashed]
      exact .inl crashed
    · exact ih next fun l member => untyped l (mem_cons_of_mem _ member)

include floats in
theorem takeFrame_broken (lexical : Lexical loads) {reader : Reader}
    {read : List (Kind × String)} (live : Live reader read) (event : Json)
    (broken : oneLine event = false) :
    (reader.takeFrame setup loads (dataLine floatText event)).raised = some .attributeError ∨
      Live (reader.takeFrame setup loads (dataLine floatText event)) read := by
  have encoded := dumps_encoded floatText floats event
  have notLine : ¬Unbroken (dumps floatText event) := by
    rw [dumps_unbroken floatText floats event, broken]
    decide
  rcases first_break _ notLine with ⟨before, c, after, shape, plain, ends⟩
  rw [shape] at encoded
  have other : c ≠ '\r' := by
    rintro rfl
    exact absurd (encoded_printable false _ encoded '\r' (by simp)) (by decide)
  have first : Unbroken (dataPrefix ++ before) :=
    (unbroken_append _ _).mpr ⟨marks_unbroken _ dataPrefix_marks, plain⟩
  have lines : splitlines (dataLine floatText event) =
      (dataPrefix ++ before) :: splitlines after := by
    rw [dataLine, shape, ← append_assoc]
    exact splitlines_break _ after c first ends other
  rw [Reader.takeFrame, lines]
  apply takeLines_untyped setup loads live
  intro line member rest fields starts decoded
  rcases mem_cons.mp member with same | later
  · have cut : rest = before := append_cancel_left (starts.symm.trans same)
    rw [cut, loads_cut loads lexical before after c ends encoded] at decoded
    exact absurd decoded (by simp)
  · have inner := (encoded_break false before after c ends encoded).1
    rcases inner_lines after inner line later with ⟨text, whole, start⟩
    rw [starts] at start
    rcases start with ⟨more, rfl⟩
    rw [append_assoc] at whole
    have skipped := encoded_inside_drop dataPrefix _ dataPrefix_marks whole
    intro field held named
    have letters := loads_inner loads lexical _ rest skipped (prefix_append _ _) fields
      decoded field held
    rw [named] at letters
    exact absurd (by decide) letters

def arriving (events : List Event) : List Event := events.filter fun event => oneLine event.json

include floats in
theorem takeEvents_live (lexical : Lexical loads) (events : List Event) {reader : Reader}
    {read : List (Kind × String)} (live : Live reader read)
    (inverse : ∀ event ∈ events, loads (dumps floatText event.json) = some event.json) :
    ((events.map fun event => dataLine floatText event.json).foldl (Reader.takeFrame setup loads)
        reader).raised = some .attributeError ∧ arriving events ≠ events ∨
      Live ((events.map fun event => dataLine floatText event.json).foldl
        (Reader.takeFrame setup loads) reader) (read ++ chunks (arriving events)) := by
  induction events generalizing reader read with
  | nil =>
    have same : read ++ chunks (arriving []) = read := append_nil read
    rw [same]
    exact .inr live
  | cons event events ih =>
    have known := fun e member => inverse e (mem_cons_of_mem event member)
    rw [map_cons, foldl_cons]
    by_cases plain : oneLine event.json = true
    · have kept : arriving (event :: events) = event :: arriving events :=
        filter_cons_of_pos plain
      have next := takeData_live setup loads live event
      rw [takeFrame_plain floatText floats setup loads reader event.json live.calm plain
        (inverse event mem_cons_self), kept, chunks_cons, ← append_assoc]
      rcases ih next known with ⟨crashed, lost⟩ | later
      · exact .inl ⟨crashed, fun same => lost (List.cons.inj same).2⟩
      · exact .inr later
    · have broken : oneLine event.json = false := by simpa using plain
      have dropped : arriving (event :: events) = arriving events :=
        filter_cons_of_neg plain
      have shorter : arriving (event :: events) ≠ event :: events := by
        intro same
        have member : event ∈ arriving (event :: events) := by
          rw [same]
          exact mem_cons_self
        exact plain (mem_filter.mp member).2
      rcases takeFrame_broken floatText floats setup loads lexical live event.json broken with
        crashed | next
      · rw [takeFrames_raised setup loads _ _ _ crashed]
        exact .inl ⟨crashed, shorter⟩
      · rw [dropped] at shorter ⊢
        rcases ih next known with ⟨crashed, _⟩ | later
        · exact .inl ⟨crashed, shorter⟩
        · exact .inr later

include floats in
theorem generateStreaming_events (events : List Event) (terminal : Terminal)
    (pieces : List (List Char)) (whole : pieces.flatten = body floatText events terminal) :
    generateStreaming setup loads pieces =
      ((events.map fun event => dataLine floatText event.json).foldl
        (Reader.takeFrame setup loads) {}).takeFrame setup loads
          (dataLine floatText terminal.json) := by
  have frames : body floatText events terminal =
      ((published events terminal).map (dataLine floatText)).flatMap (Frames.framed '\n') := by
    rw [body, flatMap_map]
    rfl
  have absent : ∀ frame ∈ (published events terminal).map (dataLine floatText), '\n' ∉ frame := by
    intro frame member
    rcases mem_map.mp member with ⟨event, _, rfl⟩
    exact newline_absent floatText floats event
  rw [generateStreaming, Frames.feedAll_framed '\n' _ _ _ pieces absent (whole.trans frames)]
  simp [published, foldl_append, Function.comp_def]

def lineSafe (text : String) : Bool := text.toList.all fun c => !splitsLine c

theorem event_oneLine (event : Event) :
    oneLine event.json = true ↔ ∀ chunk ∈ chunkOf event, lineSafe chunk.2 = true := by
  cases event with
  | token kind text =>
    have fixed : oneLine (Event.json (.token kind text)) = lineSafe text := by
      have names : lineSafe kind.name = true := by cases kind <;> decide
      have shape : oneLine (Event.json (.token kind text)) =
          (lineSafe "type" && lineSafe "token" && (lineSafe "kind" && lineSafe kind.name &&
            (lineSafe "content" && lineSafe text && true))) := rfl
      have words : lineSafe "type" = true ∧ lineSafe "token" = true ∧ lineSafe "kind" = true ∧
          lineSafe "content" = true := by decide
      rw [shape, names, words.1, words.2.1, words.2.2.1, words.2.2.2]
      simp
    rw [fixed]
    by_cases empty : text = ""
    · subst empty
      simp [chunkOf, lineSafe]
    · simp [chunkOf, empty]
  | retry code attempt =>
    have safe : oneLine (Event.json (.retry code attempt)) = true := by
      cases code <;> rfl
    simp [safe, chunkOf]
  | heartbeat =>
    have safe : oneLine (Event.json .heartbeat) = true := by decide
    simp [safe, chunkOf]

theorem chunks_flatMap (events : List Event) : chunks events = events.flatMap chunkOf := by
  induction events with
  | nil => rfl
  | cons event events ih => rw [chunks_cons, ih, flatMap_cons]

theorem arriving_all (events : List Event)
    (safe : ∀ chunk ∈ chunks events, lineSafe chunk.2 = true) : arriving events = events := by
  rw [arriving, filter_eq_self]
  intro event member
  rw [event_oneLine]
  intro chunk held
  apply safe
  rw [chunks_flatMap]
  exact mem_flatMap.mpr ⟨event, member, held⟩

theorem chunks_arriving (events : List Event) :
    chunks (arriving events) = chunks events ↔ ∀ chunk ∈ chunks events, lineSafe chunk.2 = true := by
  constructor
  · intro same chunk member
    rw [← same, chunks_flatMap, mem_flatMap] at member
    rcases member with ⟨event, arrived, held⟩
    exact (event_oneLine event).mp (mem_filter.mp arrived).2 chunk held
  · intro safe
    rw [arriving_all events safe]

theorem readAs_injective : Function.Injective readAs := by
  intro left right same
  rcases left with ⟨leftKind, leftText⟩
  rcases right with ⟨rightKind, rightText⟩
  simp only [readAs, Prod.mk.injEq, Json.str.injEq] at same
  rcases same with ⟨names, rfl⟩
  have kinds : leftKind = rightKind := by
    cases leftKind <;> cases rightKind <;> first | rfl | exact absurd names (by decide)
  rw [kinds]

include floats in
theorem terminal_lost (lexical : Lexical loads) {reader : Reader} {read : List (Kind × String)}
    (live : Live reader read) (terminal : Terminal) (broken : oneLine terminal.json = false)
    (content : List Char) :
    (reader.takeFrame setup loads (dataLine floatText terminal.json)).ending ≠
      terminal.ending content := by
  have after := takeFrame_broken floatText floats setup loads lexical live terminal.json broken
  generalize reader.takeFrame setup loads (dataLine floatText terminal.json) = last at after
  have ends : last.ending = .raised .attributeError ∨ last.ending = .raised endedEarly := by
    rcases after with crashed | waiting
    · exact .inl (by simp [Reader.ending, crashed])
    · exact .inr (by simp [Reader.ending, waiting.calm, waiting.waiting])
  cases terminal with
  | done toolCalls finishReason usage lensnodeUuid =>
    rcases ends with crashed | early
    · simp [crashed, Terminal.ending]
    · simp [early, Terminal.ending]
  | error code message =>
    rcases ends with crashed | early
    · simp [crashed, Terminal.ending]
    · intro same
      rw [early] at same
      simp only [Terminal.ending, endedEarly, Ending.raised.injEq, Raised.gatewayStream.injEq,
        Json.str.injEq] at same
      rw [← same.1, ← same.2] at broken
      exact absurd broken (by decide)

include floats in
/-- The node is given back the chunks and the terminal event of a call exactly when no
string among them holds a code point that ends a line. -/
theorem given_back_iff (lexical : Lexical loads) (events : List Event) (terminal : Terminal)
    (inverse : ∀ event ∈ published events terminal, loads (dumps floatText event) = some event)
    (pieces : List (List Char)) (whole : pieces.flatten = body floatText events terminal) :
    GivesBack (generateStreaming setup loads pieces) events terminal ↔
      (∀ chunk ∈ chunks events, lineSafe chunk.2 = true) ∧ oneLine terminal.json = true := by
  have known : ∀ event ∈ events, loads (dumps floatText event.json) = some event.json := by
    intro event member
    exact inverse _ (mem_append_left _ (mem_map_of_mem member))
  have last : loads (dumps floatText terminal.json) = some terminal.json :=
    inverse _ (mem_append_right _ mem_cons_self)
  have before := takeEvents_live floatText floats setup loads lexical events live_start known
  rw [generateStreaming_events floatText floats setup loads events terminal pieces whole,
    ← chunks_arriving]
  generalize (events.map fun event => dataLine floatText event.json).foldl
    (Reader.takeFrame setup loads) {} = reader at before
  rcases before with ⟨crashed, lost⟩ | live
  · rw [takeFrame_raised setup loads _ reader _ crashed]
    constructor
    · intro back
      have ends : reader.ending = .raised .attributeError := by simp [Reader.ending, crashed]
      have sent := back.2
      rw [ends] at sent
      cases terminal <;> simp [Terminal.ending] at sent
    · intro safe
      exact absurd (arriving_all events ((chunks_arriving events).mp safe.1)) lost
  · rw [nil_append] at live
    by_cases plain : oneLine terminal.json = true
    · rw [takeFrame_plain floatText floats setup loads reader terminal.json live.calm plain last]
      have read := takeData_terminal setup loads live terminal
      constructor
      · intro back
        exact ⟨map_injective_iff.mpr readAs_injective (read.1.symm.trans back.1), plain⟩
      · intro safe
        rw [safe.1] at read
        exact read
    · have broken : oneLine terminal.json = false := by simpa using plain
      constructor
      · intro back
        exact absurd back.2 (terminal_lost floatText floats setup loads lexical live terminal
          broken _)
      · intro safe
        exact absurd safe.2 plain

end Frames

def decodeKnown (floatText : ℚ → List Char) (known : List Json) (text : List Char) : Option Json :=
  known.find? fun value => dumps floatText value == text

theorem decodeKnown_lexical (floatText : ℚ → List Char) (known : List Json)
    (read : ∀ value ∈ known, keysRead (dumps floatText value) value = true) :
    Lexical (decodeKnown floatText known) := by
  intro text value found
  have same := find?_some found
  rw [← eq_of_beq same]
  exact read value (mem_of_find?_eq_some found)

def streamSetup : Setup :=
  ⟨true, true, false, true, true, true, true, true, fun _ => false⟩

/-- Reasoning, an answer of two lines, and heartbeats in between. -/
def plainEvents : List Event :=
  [.token .reasoning "é", .heartbeat, .token .content "", .token .content "1\n\n2", .heartbeat]

def plainEnd : Terminal := .done .null (.str "stop") [("total_tokens", .int 3)] "u"

theorem given_back_plain :
    GivesBack
      (generateStreaming streamSetup
        (decodeKnown (fun _ => []) (published plainEvents plainEnd))
        [(body (fun _ => []) plainEvents plainEnd).take 60,
          (body (fun _ => []) plainEvents plainEnd).drop 60])
      plainEvents plainEnd :=
  (given_back_iff (fun _ => []) (by simp) streamSetup
    (decodeKnown (fun _ => []) (published plainEvents plainEnd))
    (decodeKnown_lexical _ _ (by decide +kernel)) plainEvents plainEnd (by decide +kernel)
    _ (by simp)).mpr (by decide +kernel)

def separatedEvents : List Event := [.token .content "1\u2028"]

theorem separator_loses_chunk :
    Lexical (decodeKnown (fun _ => []) (published separatedEvents plainEnd)) ∧
      (∀ event ∈ published separatedEvents plainEnd,
        decodeKnown (fun _ => []) (published separatedEvents plainEnd)
          (dumps (fun _ => []) event) = some event) ∧
      ¬GivesBack
        (generateStreaming streamSetup
          (decodeKnown (fun _ => []) (published separatedEvents plainEnd))
          [body (fun _ => []) separatedEvents plainEnd])
        separatedEvents plainEnd := by
  refine ⟨decodeKnown_lexical _ _ (by decide +kernel), by decide +kernel, ?_⟩
  intro back
  exact absurd back.1 (by decide +kernel)

end SourceLens.GatewayStream
