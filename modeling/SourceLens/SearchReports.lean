import SourceLens.DirectorySearch
import SourceLens.FileLinesAgree

/-! Which lines the search of a directory shows: those in a report of ripgrep that are read back, or
those that the fallback comes to. -/

namespace SourceLens.DirectorySearch

open List
open FileLines (File foundIn readText rgEnds scan strictText)
open Json (getOrNull)
open LineEnds (linesBy)
open PyText (stripRight)
open TextLines (Unbroken splitlines)
open WorkspaceSearch (Match Request)

variable {Dir : Type} {loads : List Char → Loaded}

variable {line : Int} {isFile : String → Bool} {fields : List (String × Json)} {index : Nat}

theorem convertedSourcePath_some {path source : String}
    (converted : convertedSourcePath isFile path = some source) :
    contentPath source = path ∧ isFile source = true := by
  unfold convertedSourcePath at converted
  dsimp only at converted
  split at converted
  · rename_i holds
    obtain rfl := Option.some.inj converted
    simp only [Bool.and_eq_true, isSuffixOf_iff_suffix] at holds
    obtain ⟨⟨⟨-, front, whole⟩, -⟩, file⟩ := holds
    constructor
    · have before : beforeTail path = front := by
        rw [beforeTail, ← whole, length_append, Nat.add_sub_cancel, take_left]
      rw [contentPath, String.toList_ofList, before, whole, String.ofList_toList]
    · exact file
  · cases converted

theorem retrievalPath_citation {path : String} (searched : retrievalPath isFile path = path) :
    retrievalPath isFile (citationPath isFile path) = path := by
  unfold citationPath
  cases converted : convertedSourcePath isFile path with
  | none => exact searched
  | some source =>
    obtain ⟨content, file⟩ := convertedSourcePath_some converted
    rw [Option.getD_some, retrievalPath, file, content, converted]
    simp

theorem citationPath_injective {one other : String} (first : retrievalPath isFile one = one)
    (second : retrievalPath isFile other = other)
    (same : citationPath isFile one = citationPath isFile other) : one = other := by
  rw [← retrievalPath_citation first, same, retrievalPath_citation second]

theorem mem_readEntries {pieces : List (List Char)} : ∀ {entries : List Entry} {entry : Entry},
    readEntries loads pieces = some entries →
      (entry ∈ entries ↔ ∃ piece ∈ pieces, ∃ event, loads piece = .value event ∧
        entryOf event = some (some entry)) := by
  induction pieces with
  | nil =>
    intro entries entry read
    obtain rfl := Option.some.inj read
    simp
  | cons piece pieces ih =>
    intro entries entry read
    rw [readEntries] at read
    rw [exists_mem_cons_iff]
    cases loaded : loads piece with
    | raises =>
      rw [loaded] at read
      cases read
    | valueError =>
      rw [loaded] at read
      rw [ih read]
      simp
    | value event =>
      rw [loaded] at read
      obtain ⟨first, taken, read⟩ := Option.bind_eq_some_iff.mp read
      obtain ⟨later, others, read⟩ := Option.bind_eq_some_iff.mp read
      obtain rfl := Option.some.inj read
      rw [mem_append, ih others, Option.mem_toList]
      constructor
      · intro member
        rcases member with now | behind
        · exact .inl ⟨event, rfl, by rw [taken, now]⟩
        · exact .inr behind
      · intro shown
        rcases shown with ⟨other, same, now⟩ | behind
        · cases same
          rw [taken] at now
          exact .inl (Option.some.inj now)
        · exact .inr behind

theorem mem_entryMatches {context maxLineChars : Int} {entries : List Entry} {path : String} :
    (∃ found ∈ entryMatches context maxLineChars entries,
      found.path = path ∧ found.line = line) ↔
        ∃ entry ∈ entries, entry.isMatch = true ∧ entry.path = path ∧ entry.line = line := by
  constructor
  · intro shown
    obtain ⟨found, member, rfl, rfl⟩ := shown
    obtain ⟨path, -, member⟩ := mem_flatMap.mp member
    obtain ⟨entry, listed, rfl⟩ := mem_map.mp member
    rw [mem_filter, mem_filter] at listed
    exact ⟨entry, listed.1.1, listed.2, rfl, rfl⟩
  · intro read
    obtain ⟨entry, listed, isMatch, rfl, rfl⟩ := read
    refine ⟨entryMatch context maxLineChars
      (entries.filter fun other => decide (other.path = entry.path)) entry, ?_, rfl, rfl⟩
    rw [entryMatches, mem_flatMap]
    refine ⟨entry.path, mem_eraseDups.mpr (mem_map_of_mem listed), ?_⟩
    apply mem_map_of_mem
    rw [mem_filter, mem_filter]
    exact ⟨⟨listed, decide_eq_true rfl⟩, isMatch⟩

/-- An end of a line for `str.splitlines` that JSON leaves as it is. -/
def isInnerBreak (c : Char) : Bool := c.toNat == 133 || c.toNat == 8232 || c.toNat == 8233

def Flat (text : String) : Prop := ∀ c ∈ text.toList, isInnerBreak c = false

/-- A line of a file that a report is about, and its text when it is UTF-8. -/
structure Event where
  isMatch : Bool
  path : String
  number : Nat
  text : Option String

def Event.Flat (event : Event) : Prop :=
  DirectorySearch.Flat event.path ∧ ∀ text, event.text = some text → DirectorySearch.Flat text

def textFields (text : Option String) (base64 : String) : List (String × Json) :=
  match text with
  | some text => [("text", .str text)]
  | none => [("bytes", .str base64)]

structure Event.Object (event : Event) (fields : List (String × Json)) : Prop where
  kind : Json.get? fields "type" = some (.str (if event.isMatch then "match" else "context"))
  data : ∃ data base64, Json.get? fields "data" = some (.obj data) ∧
    Json.get? data "path" = some (.obj [("text", .str event.path)]) ∧
    Json.get? data "lines" = some (.obj (textFields event.text base64)) ∧
    Json.get? data "line_number" = some (.int event.number)

def Silent (loads : List Char → Loaded) (piece : List Char) : Prop :=
  ∀ fields kind, loads piece = .value (.obj fields) → getOrNull fields "type" = .str kind →
    kind ≠ "match" ∧ kind ≠ "context"

/-- What is printed of an event decodes to its object, unless `str.splitlines` breaks it up; then no
piece of it does. Of anything else (`none`) no piece is an object for a line. -/
def Prints (loads : List Char → Loaded) (printed : List Char) (event : Option Event) : Prop :=
  (∃ line, event = some line ∧ line.Flat ∧ Unbroken printed ∧
    ∃ fields, loads printed = .value (.obj fields) ∧ line.Object fields) ∨
  ((∀ line, event = some line → ¬line.Flat) ∧
    ∀ piece ∈ splitlines (printed ++ ['\n']), Silent loads piece)

/-- What ripgrep's manual says: which lines a pattern finds (a fixed one or not, with or without
case), and which files are searched, each with the number of its lines that are read. -/
structure Manual (Dir : Type) where
  finds : Bool → Bool → String → File → Bool
  searches : Dir → Request → List (String × Nat)

def Event.entry (event : Event) : Entry where
  path := event.path
  line := event.number
  text := stripRight (decide <| · = '\n') (event.text.getD "").toList
  isMatch := event.isMatch

theorem objectAt_some {inner : List (String × Json)} {key : String}
    (held : Json.get? fields key = some (.obj inner)) : objectAt fields key = some inner := by
  rw [objectAt, getOrNull, held, Option.getD_some]
  cases inner with
  | nil => rfl
  | cons field inner => rfl

theorem lineOf_object {event : Event} (object : event.Object fields) (isMatch : Bool) :
    lineOf isMatch fields = some (some { event.entry with isMatch := isMatch }) := by
  obtain ⟨data, base64, inner, path, lines, number⟩ := object.data
  have numbered : getOrNull data "line_number" = .int event.number := by rw [getOrNull, number]; rfl
  simp only [lineOf, objectAt_some inner, objectAt_some path, objectAt_some lines, Option.bind_eq_bind,
    Option.bind_some, numbered]
  cases shown : event.text with
  | none =>
    have untold : Json.get? [("bytes", Json.str base64)] "text" = none := by
      simp [Json.get?, lookup_cons]
    simp only [textFields, untold]
    simp [getOrNull, Json.get?, Event.entry, shown]
  | some text => simp [textFields, getOrNull, Json.get?, Event.entry, shown]

theorem entryOf_object {event : Event} (object : event.Object fields) :
    entryOf (.obj fields) = some (some event.entry) := by
  rw [entryOf, getOrNull, object.kind, Option.getD_some]
  have line := lineOf_object object event.isMatch
  cases isMatch : event.isMatch with
  | true =>
    rw [isMatch] at line
    simp only [if_true]
    rw [line, Event.entry, isMatch]
  | false =>
    rw [isMatch] at line
    simp only [Bool.false_eq_true, if_false]
    rw [if_neg (by decide), if_pos trivial, line, Event.entry, isMatch]

theorem entryOf_silent {piece : List Char} (silent : Silent loads piece) {event : Json}
    (loaded : loads piece = .value event) (entry : Entry) : entryOf event ≠ some (some entry) := by
  intro read
  unfold entryOf at read
  split at read
  · rename_i fields
    split at read
    · rename_i kind named
      obtain ⟨matching, context⟩ := silent fields kind loaded named
      rw [if_neg matching, if_neg context] at read
      cases read
    all_goals cases read
  · cases read

abbrev Block := Option Event × List Char

def reportText (blocks : List Block) : List Char := blocks.flatMap fun block => block.2 ++ ['\n']

theorem splitlines_report (blocks : List Block) :
    splitlines (reportText blocks) = blocks.flatMap fun block => splitlines (block.2 ++ ['\n']) := by
  induction blocks with
  | nil => rfl
  | cons block blocks ih =>
    rw [reportText, flatMap_cons, flatMap_cons, append_assoc, singleton_append,
      TextLines.splitlines_parted, ← ih, reportText]

theorem mem_entries_report {blocks : List Block} {entries : List Entry} {entry : Entry}
    (prints : ∀ block ∈ blocks, Prints loads block.2 block.1)
    (read : readEntries loads (splitlines (reportText blocks)) = some entries) :
    entry ∈ entries ↔
      ∃ block ∈ blocks, ∃ event, block.1 = some event ∧ event.Flat ∧ event.entry = entry := by
  rw [mem_readEntries read, splitlines_report]
  constructor
  · intro taken
    obtain ⟨piece, listed, value, loaded, taken⟩ := taken
    obtain ⟨block, member, listed⟩ := mem_flatMap.mp listed
    rcases prints block member with ⟨event, about, flat, whole, fields, decoded, object⟩ | ⟨-, silent⟩
    · rw [TextLines.splitlines_line _ _ whole] at listed
      obtain rfl := mem_singleton.mp listed
      rw [decoded] at loaded
      cases loaded
      rw [entryOf_object object] at taken
      exact ⟨block, member, event, about, flat, Option.some.inj (Option.some.inj taken)⟩
    · exact absurd taken (entryOf_silent (silent piece listed) loaded entry)
  · intro shown
    obtain ⟨block, member, event, about, flat, rfl⟩ := shown
    rcases prints block member with ⟨other, same, -, whole, fields, decoded, object⟩ | ⟨broken, -⟩
    · obtain rfl := Option.some.inj (about.symm.trans same)
      refine ⟨block.2, mem_flatMap.mpr ⟨block, member, ?_⟩, _, decoded, entryOf_object object⟩
      rw [TextLines.splitlines_line _ _ whole]
      exact mem_singleton_self _
    · exact absurd flat (broken event about)

variable (world : World Dir) (manual : Manual Dir)

/-- Whether the patterns find the lines of a file, as ripgrep reads it. -/
def ripgrepMarks (request : Request) (patterns : List String) (path : String) : List Bool :=
  (linesBy rgEnds (world.contents path)).map fun line =>
    patterns.any (manual.finds request.fixed request.caseSensitive · line)

def fallbackMarks (request : Request) (patterns : List String) (path : String) : List Bool :=
  (splitlines (readText (world.contents path))).map (foundIn world.lower ⟨patterns, request.caseSensitive⟩)

/-- The line is marked, and fewer lines than the limit are marked before it. -/
def Within (cap : Int) (marks : List Bool) (index : Nat) : Prop :=
  marks[index]? = some true ∧ ((marks.take index).count true : Int) < cap

def FlatLine (path : String) (index : Nat) : Prop :=
  Flat path ∧ ∀ line text, (linesBy rgEnds (world.contents path))[index]? = some line →
    strictText line = some text → Flat (String.ofList text)

inductive Shown (dir : Dir) (request : Request) (context : Int) (path : String) (index : Nat) : Prop
  | byRipgrep {code : Int} {stdout : List Char} {reach : Nat}
      (ended : world.ripgrep dir request context = .ended code stdout) (good : code = 0 ∨ code = 1)
      (searched : (path, reach) ∈ manual.searches dir request) (read : index < reach)
      (within : Within (max 1 (maxMatchesPerFile world dir))
        (ripgrepMarks world manual request request.patterns path) index)
      (flat : FlatLine world path index)
  | byFallback (missing : world.ripgrep dir request context = .osError)
      (fixed : request.fixed = true) (searched : path ∈ fallbackFiles world dir request.glob)
      (text : world.isBinary path = false)
      (within : Within (maxMatchesPerFile world dir) (fallbackMarks world request request.patterns path)
        index)

def Matched (dir : Dir) (request : Request) (event : Event) : Prop :=
  ∃ reach line, (event.path, reach) ∈ manual.searches dir request ∧
    (event.number, line) ∈ scan
      (fun line => request.patterns.any (manual.finds request.fixed request.caseSensitive · line))
      (max 1 (maxMatchesPerFile world dir)) 0 0 ((linesBy rgEnds (world.contents event.path)).take reach) ∧
    event.text = (strictText line).map String.ofList

structure Report (dir : Dir) (request : Request) (blocks : List Block) : Prop where
  prints : ∀ block ∈ blocks, Prints world.loads block.2 block.1
  matched : ∀ event : Event, event.isMatch = true →
    ((∃ block ∈ blocks, block.1 = some event) ↔ Matched world manual dir request event)

/-- ripgrep behaves as documented when it ends with a match or without one. -/
def Documented (request : Request) (context : Int) : Prop :=
  ∀ dir ∈ world.dirs, ∀ code stdout, world.ripgrep dir request context = .ended code stdout →
    code = 0 ∨ code = 1 → ∃ blocks, stdout = reportText blocks ∧ Report world manual dir request blocks

variable {world : World Dir} {manual : Manual Dir} {dir : Dir} {request : Request} {context : Int}
  {path : String}

theorem within_map {Line : Type} {found : Line → Bool} {cap : Int} {lines : List Line} :
    Within cap (lines.map found) index ↔ ∃ line, (index + 1, line) ∈ scan found cap 0 0 lines := by
  have counted : ((lines.map found).take index).count true = (lines.take index).countP found := by
    rw [List.count, map_take.symm, countP_map]
    apply countP_congr
    simp
  rw [Within, counted, List.getElem?_map]
  constructor
  · intro holds
    obtain ⟨marked, room⟩ := holds
    obtain ⟨line, listed, fits⟩ := Option.map_eq_some_iff.mp marked
    exact ⟨line, FileLines.mem_scan_iff.mpr ⟨index, listed, by omega, fits, by omega⟩⟩
  · intro scanned
    obtain ⟨line, scanned⟩ := scanned
    obtain ⟨turn, listed, place, fits, room⟩ := FileLines.mem_scan_iff.mp scanned
    obtain rfl : turn = index := by omega
    exact ⟨by rw [listed, Option.map_some, fits], by omega⟩

theorem scan_take {Line : Type} {found : Line → Bool} {cap : Int} {lines : List Line} {reach number : Nat}
    {line : Line} : (number, line) ∈ scan found cap 0 0 (lines.take reach) ↔
      number ≤ reach ∧ (number, line) ∈ scan found cap 0 0 lines := by
  rw [FileLines.mem_scan_iff, FileLines.mem_scan_iff]
  constructor
  · intro scanned
    obtain ⟨turn, listed, place, fits, room⟩ := scanned
    have inside : turn < reach := by
      have bound := (List.getElem?_eq_some_iff.mp listed).1
      rw [length_take] at bound
      omega
    rw [List.getElem?_take_of_lt inside] at listed
    rw [take_take, Nat.min_eq_left (by omega)] at room
    exact ⟨by omega, turn, listed, place, fits, room⟩
  · intro scanned
    obtain ⟨inside, turn, listed, place, fits, room⟩ := scanned
    refine ⟨turn, ?_, place, fits, ?_⟩
    · rw [List.getElem?_take_of_lt (by omega), listed]
    · rw [take_take, Nat.min_eq_left (by omega)]
      exact room

theorem mem_pythonMatches {lower : String → String} {query : FileLines.Terms}
    {policy : FileLines.Policy} {file : File} :
    (∃ found ∈ FileLines.pythonMatches lower query context policy path file, found.line = line) ↔
      ∃ index : Nat, line = index + 1 ∧
        Within policy.maxMatchesPerFile ((splitlines (readText file)).map (foundIn lower query)) index := by
  unfold FileLines.pythonMatches
  dsimp only
  constructor
  · intro shown
    obtain ⟨found, member, rfl⟩ := shown
    obtain ⟨hit, scanned, rfl⟩ := mem_map.mp member
    obtain ⟨turn, -, place, -⟩ := FileLines.mem_scan_iff.mp scanned
    have same : hit.1 = turn + 1 := by omega
    refine ⟨turn, by simp [same], ?_⟩
    rw [within_map, ← same]
    exact ⟨hit.2, scanned⟩
  · intro marked
    obtain ⟨index, rfl, within⟩ := marked
    obtain ⟨text, scanned⟩ := within_map.mp within
    exact ⟨_, mem_map_of_mem scanned, by simp⟩

theorem path_pythonMatches {lower : String → String} {query : FileLines.Terms}
    {policy : FileLines.Policy} {file : File} {found : Match}
    (member : found ∈ FileLines.pythonMatches lower query context policy path file) : found.path = path := by
  obtain ⟨hit, -, rfl⟩ := mem_map.mp member
  rfl

theorem mem_pythonLineMatches :
    (∃ found ∈ pythonLineMatches world dir request context, found.path = path ∧ found.line = line) ↔
      ∃ index : Nat, line = index + 1 ∧ path ∈ fallbackFiles world dir request.glob ∧
        world.isBinary path = false ∧ Within (maxMatchesPerFile world dir)
          (fallbackMarks world request request.patterns path) index := by
  constructor
  · intro shown
    obtain ⟨found, member, same, placed⟩ := shown
    obtain ⟨file, searched, member⟩ := mem_flatMap.mp member
    split at member
    · cases member
    · rename_i text
      have named := path_pythonMatches member
      obtain rfl : file = path := by rw [← named, same]
      obtain ⟨index, place, within⟩ := mem_pythonMatches.mp ⟨found, member, placed⟩
      exact ⟨index, place, searched, by simpa using text, within⟩
  · intro marked
    obtain ⟨index, place, searched, text, within⟩ := marked
    have within : Within (filePolicy world dir).maxMatchesPerFile
        ((splitlines (readText (world.contents path))).map
          (foundIn world.lower ⟨request.patterns, request.caseSensitive⟩)) index := within
    obtain ⟨found, member, placed⟩ := mem_pythonMatches.mpr ⟨index, place, within⟩
    refine ⟨found, mem_flatMap.mpr ⟨path, searched, ?_⟩, path_pythonMatches member, placed⟩
    rw [text]
    exact member

theorem matched_shown :
    (∃ event : Event, event.isMatch = true ∧ event.Flat ∧ Matched world manual dir request event ∧
      event.path = path ∧ (event.number : Int) = line) ↔
        ∃ index : Nat, line = index + 1 ∧ ∃ reach, (path, reach) ∈ manual.searches dir request ∧
          index < reach ∧ Within (max 1 (maxMatchesPerFile world dir))
            (ripgrepMarks world manual request request.patterns path) index ∧
          FlatLine world path index := by
  constructor
  · intro reported
    obtain ⟨event, -, flat, ⟨reach, text, searched, scanned, told⟩, rfl, rfl⟩ := reported
    obtain ⟨read, scanned⟩ := scan_take.mp scanned
    obtain ⟨index, listed, place, -⟩ := FileLines.mem_scan_iff.mp scanned
    have number : event.number = index + 1 := by omega
    refine ⟨index, by omega, reach, searched, by omega, ?_, flat.1, ?_⟩
    · rw [number] at scanned
      exact within_map.mpr ⟨text, scanned⟩
    · intro line decoded same strict
      obtain rfl := Option.some.inj (same.symm.trans listed)
      apply flat.2
      rw [told, strict]
      rfl
  · intro marked
    obtain ⟨index, rfl, reach, searched, read, within, flat⟩ := marked
    obtain ⟨text, scanned⟩ := within_map.mp within
    obtain ⟨turn, listed, place, -⟩ := FileLines.mem_scan_iff.mp scanned
    obtain rfl : turn = index := by omega
    refine ⟨⟨true, path, turn + 1, (strictText text).map String.ofList⟩, rfl, ⟨flat.1, ?_⟩,
      ⟨reach, text, searched, scan_take.mpr ⟨read, scanned⟩, rfl⟩, rfl, by simp⟩
    intro decoded told
    obtain ⟨strict, same, rfl⟩ := Option.map_eq_some_iff.mp told
    exact flat.2 text strict listed same

theorem shown_osError (missing : world.ripgrep dir request context = .osError) :
    Shown world manual dir request context path index ↔
      request.fixed = true ∧ path ∈ fallbackFiles world dir request.glob ∧
        world.isBinary path = false ∧ Within (maxMatchesPerFile world dir)
          (fallbackMarks world request request.patterns path) index := by
  constructor
  · intro shown
    cases shown with
    | byRipgrep ended => cases missing.symm.trans ended
    | byFallback _ fixed searched text within => exact ⟨fixed, searched, text, within⟩
  · intro marked
    exact .byFallback missing marked.1 marked.2.1 marked.2.2.1 marked.2.2.2

theorem shown_ended {code : Int} {stdout : List Char}
    (ended : world.ripgrep dir request context = .ended code stdout) :
    Shown world manual dir request context path index ↔
      (code = 0 ∨ code = 1) ∧ ∃ reach, (path, reach) ∈ manual.searches dir request ∧ index < reach ∧
        Within (max 1 (maxMatchesPerFile world dir))
          (ripgrepMarks world manual request request.patterns path) index ∧
        FlatLine world path index := by
  constructor
  · intro shown
    cases shown with
    | byRipgrep other good searched read within flat =>
      cases ended.symm.trans other
      exact ⟨good, _, searched, read, within, flat⟩
    | byFallback missing => cases ended.symm.trans missing
  · intro marked
    obtain ⟨good, reach, searched, read, within, flat⟩ := marked
    exact .byRipgrep ended good searched read within flat

theorem mem_parseRgJson {blocks : List Block} (report : Report world manual dir request blocks)
    {maxLineChars : Int} {found : List Match}
    (parsed : parseRgJson world.loads (reportText blocks) context maxLineChars = some found) :
    (∃ hit ∈ found, hit.path = path ∧ hit.line = line) ↔
      ∃ event : Event, event.isMatch = true ∧ event.Flat ∧ Matched world manual dir request event ∧
        event.path = path ∧ (event.number : Int) = line := by
  obtain ⟨entries, read, rfl⟩ := Option.map_eq_some_iff.mp parsed
  rw [mem_entryMatches]
  constructor
  · intro shown
    obtain ⟨entry, member, isMatch, rfl, rfl⟩ := shown
    obtain ⟨block, inside, event, about, flat, rfl⟩ := (mem_entries_report report.prints read).mp member
    exact ⟨event, isMatch, flat, (report.matched event isMatch).mp ⟨block, inside, about⟩, rfl, rfl⟩
  · intro shown
    obtain ⟨event, isMatch, flat, matched, rfl, rfl⟩ := shown
    obtain ⟨block, inside, about⟩ := (report.matched event isMatch).mpr matched
    exact ⟨event.entry, (mem_entries_report report.prints read).mpr
      ⟨block, inside, event, about, flat, rfl⟩, isMatch, rfl, rfl⟩

theorem rgLineMatches_shown (documented : Documented world manual request context)
    (listed : dir ∈ world.dirs) {found : List Match}
    (searched : rgLineMatches world dir request context = some found) :
    (∃ hit ∈ found, hit.path = path ∧ hit.line = line) ↔
      ∃ index : Nat, line = index + 1 ∧ Shown world manual dir request context path index := by
  rw [rgLineMatches] at searched
  cases outcome : world.ripgrep dir request context with
  | osError =>
    rw [outcome] at searched
    simp only [shown_osError outcome]
    cases fixed : request.fixed with
    | false =>
      rw [fixed] at searched
      obtain rfl := Option.some.inj searched
      simp
    | true =>
      rw [fixed] at searched
      obtain rfl := Option.some.inj searched
      rw [mem_pythonLineMatches]
      simp
  | ended code stdout =>
    rw [outcome] at searched
    simp only [shown_ended outcome]
    by_cases good : code = 0 ∨ code = 1
    · obtain ⟨blocks, rfl, report⟩ := documented dir listed code stdout outcome good
      rw [runRg, if_pos good] at searched
      rw [mem_parseRgJson report searched, matched_shown]
      simp only [good, true_and]
    · rw [runRg, if_neg good] at searched
      obtain rfl := Option.some.inj searched
      simp only [good, false_and, and_false, exists_false, iff_false]
      intro shown
      obtain ⟨hit, member, -⟩ := shown
      cases member

end SourceLens.DirectorySearch
