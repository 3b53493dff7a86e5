import SourceLens.SearchReports
import SourceLens.SearchResults

/-! When a content search that is not marked as truncated shows each match line of each allowed file
once. -/

namespace SourceLens.DirectorySearch

open List
open FileLines (foundIn)
open TextLines (splitlines)
open WorkspaceSearch (Call Match Request Rerank Result alternatives applyRerank boundedResults
  orderedMatches patternsOf requestOf sliceTo totalCost uniqueMatches visibleMatches)

variable {Dir : Type} (world : World Dir) (manual : Manual Dir) (policy : WorkspaceSearch.Policy)
  (call : Call)

variable {dir : Dir} {index : Nat} {path : String}

def askedPatterns (query : String) (regex : Bool) : List String :=
  if regex then if query = "" then [] else [query]
  else (if (alternatives query).isEmpty then [query] else alternatives query).filter fun group =>
    decide (group ≠ "")

/-- Whether the patterns find the lines of a file, as the search of the directory reads it. -/
def marks (dir : Dir) (patterns : List String) (path : String) : List Bool :=
  if (runRg (world.ripgrep dir (requestOf call) call.contextLines)).isNone && !call.regex then
    fallbackMarks world (requestOf call) patterns path
  else ripgrepMarks world manual (requestOf call) patterns path

def MatchLine (path : String) (index : Nat) : Prop :=
  allowed world call.glob path = true ∧ ∃ dir ∈ world.dirs,
    (marks world manual call dir (askedPatterns call.query call.regex) path)[index]? = some true

def placeOf (path : String) (index : Nat) : String × Int := (citationPath world.isFile path, index + 1)

/-- A result that is not marked as truncated has each match line once. -/
def Complete (result : Result) : Prop :=
  result.truncated = false → ∀ path index, MatchLine world manual call path index →
    (result.matched.map Match.place).count (placeOf world path index) = 1

def Meets (rerank : Option Rerank) : Prop :=
  (∀ result, searchContent world policy call rerank = some result →
    Complete world manual call result) ∧
    ∀ matched, (applyRerank matched rerank).Perm matched

def Unreadable (loads : List Char → Loaded) (piece : List Char) : Prop :=
  loads piece = .raises ∨ ∃ event, loads piece = .value event ∧ entryOf event = none

/-- A pattern is searched, and a report has a piece whose reading raises. -/
def Stops : Prop :=
  (requestOf call).patterns.isEmpty = false ∧ ∃ dir ∈ world.dirs, ∃ stdout,
    runRg (world.ripgrep dir (requestOf call) call.contextLines) = some stdout ∧
      ∃ piece ∈ splitlines stdout, Unreadable world.loads piece

def limited (rerank : Option Rerank) : List Match :=
  sliceTo (boundedResults policy call.maxResults) (orderedMatches (workspace world) call rerank)

/-- The matches up to the limit, two of them or more, cost more than the budget. -/
def Exceeds (rerank : Option Rerank) : Prop :=
  0 < policy.searchPayloadChars ∧ 2 ≤ (limited world policy call rerank).length ∧
    policy.searchPayloadChars < totalCost (limited world policy call rerank)

def Fits : Prop :=
  (sliceTo (boundedResults policy call.maxResults) (visibleMatches (workspace world) call)).length =
    (visibleMatches (workspace world) call).length

def NothingLost : Prop :=
  ∀ path index, MatchLine world manual call path index →
    ∃ dir ∈ world.dirs, Shown world manual dir (requestOf call) call.contextLines path index

theorem readEntries_none {loads : List Char → Loaded} {pieces : List (List Char)} :
    readEntries loads pieces = none ↔ ∃ piece ∈ pieces, Unreadable loads piece := by
  induction pieces with
  | nil => simp [readEntries]
  | cons piece pieces ih =>
    rw [readEntries, exists_mem_cons_iff, ← ih, Unreadable]
    cases loaded : loads piece with
    | raises => simp
    | valueError => simp
    | value event =>
      cases taken : entryOf event with
      | none => simp [taken]
      | some entry =>
        cases later : readEntries loads pieces with
        | none => simp [taken]
        | some entries => simp [taken]

theorem rgLineMatches_none {request : Request} {context : Int} :
    rgLineMatches world dir request context = none ↔
      ∃ stdout, runRg (world.ripgrep dir request context) = some stdout ∧
        ∃ piece ∈ splitlines stdout, Unreadable world.loads piece := by
  rw [rgLineMatches]
  cases runRg (world.ripgrep dir request context) with
  | none => cases fixed : request.fixed <;> simp
  | some stdout => simp [parseRgJson, readEntries_none]

theorem raises_iff : raises world (requestOf call) call.contextLines = true ↔ Stops world call := by
  simp [raises, Stops, rgLineMatches_none]

variable {world manual call}

theorem askedPatterns_patternsOf {query pattern : String} {regex : Bool}
    (member : pattern ∈ patternsOf query regex) : pattern ∈ askedPatterns query regex := by
  cases regex with
  | true => exact member
  | false =>
    rw [patternsOf, if_neg Bool.false_ne_true, WorkspaceSearch.queryGroups, mem_filter] at member
    rw [askedPatterns, if_neg Bool.false_ne_true, mem_filter]
    refine ⟨?_, member.2⟩
    split
    · rename_i none
      rw [if_pos none] at member
      exact member.1
    · rename_i some
      rw [if_neg some] at member
      exact mem_of_mem_take member.1

theorem map_any_mono {Line : Type} {found : String → Line → Bool} {few many : List String}
    (less : few ⊆ many) {lines : List Line}
    (marked : (lines.map fun line => few.any (found · line))[index]? = some true) :
    (lines.map fun line => many.any (found · line))[index]? = some true := by
  rw [List.getElem?_map, Option.map_eq_some_iff] at marked ⊢
  obtain ⟨line, listed, fits⟩ := marked
  obtain ⟨pattern, member, finds⟩ := any_eq_true.mp fits
  exact ⟨line, listed, any_eq_true.mpr ⟨pattern, less member, finds⟩⟩

theorem foundIn_eq (lower : String → String) (patterns : List String) (caseSensitive : Bool) :
    foundIn lower ⟨patterns, caseSensitive⟩ = fun line => patterns.any fun pattern =>
      FileLines.contains (if caseSensitive then line else (lower (String.ofList line)).toList)
        (if caseSensitive then pattern else lower pattern).toList := by
  funext line
  cases caseSensitive with
  | true => rfl
  | false => simp [foundIn, any_map, Function.comp_def]

theorem marks_mono {few many : List String} (less : few ⊆ many)
    (marked : (marks world manual call dir few path)[index]? = some true) :
    (marks world manual call dir many path)[index]? = some true := by
  unfold marks at marked ⊢
  split
  · rename_i fallback
    rw [if_pos fallback] at marked
    unfold fallbackMarks at marked ⊢
    rw [foundIn_eq] at marked ⊢
    exact map_any_mono less marked
  · rename_i ripgrep
    rw [if_neg ripgrep] at marked
    exact map_any_mono less marked

theorem Shown.marked (shown : Shown world manual dir (requestOf call) call.contextLines path index) :
    (marks world manual call dir (patternsOf call.query call.regex) path)[index]? = some true := by
  unfold marks
  cases shown with
  | byRipgrep ended good _ _ within =>
    rw [ended, runRg, if_pos good, Option.isNone_some, Bool.false_and, if_neg Bool.false_ne_true]
    exact within.1
  | byFallback missing fixed _ _ within =>
    have literal : (!call.regex) = true := fixed
    rw [missing, runRg, Option.isNone_none, literal, Bool.true_and, if_pos rfl]
    exact within.1

theorem Shown.matchLine (listed : dir ∈ world.dirs) (passes : allowed world call.glob path = true)
    (shown : Shown world manual dir (requestOf call) call.contextLines path index) :
    MatchLine world manual call path index :=
  ⟨passes, dir, listed, marks_mono (fun _ => askedPatterns_patternsOf) shown.marked⟩

theorem Shown.patterns
    (shown : Shown world manual dir (requestOf call) call.contextLines path index) :
    (requestOf call).patterns.isEmpty = false := by
  have marked := shown.marked
  cases patterns : patternsOf call.query call.regex with
  | nil =>
    rw [patterns] at marked
    unfold marks fallbackMarks ripgrepMarks at marked
    rw [foundIn_eq] at marked
    split at marked <;> simp [List.getElem?_replicate] at marked
  | cons pattern rest =>
    rw [requestOf, patterns]
    rfl

theorem mem_places_unique {matched : List Match} {place : String × Int} :
    place ∈ (uniqueMatches matched).map Match.place ↔ place ∈ matched.map Match.place := by
  constructor
  · intro member
    obtain ⟨found, listed, rfl⟩ := mem_map.mp member
    exact mem_map_of_mem (WorkspaceSearch.mem_of_mem_unique listed)
  · intro member
    obtain ⟨found, listed, rfl⟩ := mem_map.mp member
    obtain ⟨kept, listed, same⟩ := WorkspaceSearch.exists_unique_place listed
    exact mem_map.mpr ⟨kept, listed, same⟩

theorem rgLineMatches_some (answers : raises world (requestOf call) call.contextLines = false)
    (asked : (requestOf call).patterns.isEmpty = false) (listed : dir ∈ world.dirs) :
    ∃ found, rgLineMatches world dir (requestOf call) call.contextLines = some found := by
  cases searched : rgLineMatches world dir (requestOf call) call.contextLines with
  | some found => exact ⟨found, rfl⟩
  | none =>
    have raised : raises world (requestOf call) call.contextLines = true := by
      rw [raises, asked, Bool.not_false, Bool.true_and, any_eq_true]
      exact ⟨dir, listed, by rw [searched]; rfl⟩
    exact absurd (answers.symm.trans raised) Bool.false_ne_true

theorem mem_visible_places (documented : Documented world manual (requestOf call) call.contextLines)
    (answers : raises world (requestOf call) call.contextLines = false) (place : String × Int) :
    place ∈ (visibleMatches (workspace world) call).map Match.place ↔
      ∃ path index, allowed world call.glob path = true ∧ placeOf world path index = place ∧
        ∃ dir ∈ world.dirs, Shown world manual dir (requestOf call) call.contextLines path index := by
  rw [visibleMatches, mem_places_unique, map_map, mem_map]
  simp only [mem_filter]
  constructor
  · intro member
    obtain ⟨found, ⟨listed, passes⟩, rfl⟩ := member
    rw [WorkspaceSearch.perDir] at listed
    split at listed
    · cases listed
    · rename_i asked
      obtain ⟨dir, inside, listed⟩ := mem_flatMap.mp listed
      obtain ⟨all, searched⟩ := rgLineMatches_some answers (by simpa using asked) inside
      have member : found ∈ (rgLineMatches world dir (requestOf call) call.contextLines).getD [] := listed
      rw [searched, Option.getD_some] at member
      obtain ⟨index, line, shown⟩ :=
        (rgLineMatches_shown documented inside searched).mp ⟨found, member, rfl, rfl⟩
      refine ⟨found.path, index, passes, ?_, dir, inside, shown⟩
      rw [placeOf, ← line]
      rfl
  · intro shown
    obtain ⟨path, index, passes, rfl, dir, inside, shown⟩ := shown
    obtain ⟨all, searched⟩ := rgLineMatches_some answers shown.patterns inside
    obtain ⟨found, member, rfl, line⟩ :=
      (rgLineMatches_shown documented inside searched).mpr ⟨index, rfl, shown⟩
    refine ⟨found, ⟨?_, passes⟩, ?_⟩
    · rw [WorkspaceSearch.perDir, shown.patterns, if_neg Bool.false_ne_true]
      refine mem_flatMap.mpr ⟨dir, inside, ?_⟩
      change found ∈ (rgLineMatches world dir (requestOf call) call.contextLines).getD []
      rw [searched]
      exact member
    · rw [placeOf, ← line]
      rfl

theorem limited_sublist (world : World Dir) (policy : WorkspaceSearch.Policy) (call : Call)
    (rerank : Option Rerank) : (limited world policy call rerank).Sublist (orderedMatches (workspace world) call rerank) :=
  take_sublist _ _

theorem ordered_places (world : World Dir) (call : Call) (rerank : Option Rerank) :
    ((orderedMatches (workspace world) call rerank).map Match.place).Perm
      ((visibleMatches (workspace world) call).map Match.place) :=
  (WorkspaceSearch.orderedMatches_perm (workspace world) call rerank).map _

theorem limited_places_nodup (world : World Dir) (policy : WorkspaceSearch.Policy) (call : Call)
    (rerank : Option Rerank) : ((limited world policy call rerank).map Match.place).Nodup := by
  have distinct := (ordered_places world call rerank).nodup_iff.mpr
    (WorkspaceSearch.unique_places _)
  exact distinct.sublist ((limited_sublist world policy call rerank).map _)

theorem searchContent_bounded (world : World Dir) (policy : WorkspaceSearch.Policy) (call : Call)
    (rerank : Option Rerank) :
    let result := WorkspaceSearch.searchContent (workspace world) policy call rerank
    let bounded :=
      WorkspaceSearch.boundMatches (limited world policy call rerank) policy.searchPayloadChars
    result.matched = bounded.1 ∧ result.truncated = bounded.2 := by
  unfold WorkspaceSearch.searchContent limited
  dsimp only
  split
  · rename_i none
    rw [isEmpty_iff.mp none]
    simp [sliceTo, WorkspaceSearch.boundMatches, WorkspaceSearch.boundFrom]
  · exact ⟨rfl, rfl⟩

theorem allowed_retrieval {glob : String} (passes : allowed world glob path = true) :
    retrievalPath world.isFile path = path := by
  rw [allowed, Bool.and_eq_true, Bool.and_eq_true] at passes
  exact of_decide_eq_true passes.1.2

theorem placeOf_injective {glob other : String} {otherIndex : Nat}
    (first : allowed world glob path = true) (second : allowed world glob other = true)
    (same : placeOf world path index = placeOf world other otherIndex) :
    path = other ∧ index = otherIndex := by
  obtain ⟨paths, lines⟩ := Prod.mk.inj same
  exact ⟨citationPath_injective (allowed_retrieval first) (allowed_retrieval second) paths, by omega⟩

variable {policy}

theorem fits_iff (rerank : Option Rerank) : Fits world policy call ↔
    (limited world policy call rerank).length = (orderedMatches (workspace world) call rerank).length := by
  have lengths := (WorkspaceSearch.orderedMatches_perm (workspace world) call rerank).length_eq
  rw [Fits, limited, WorkspaceSearch.sliceTo_length _ lengths, lengths]

theorem limited_complete_iff (documented : Documented world manual (requestOf call) call.contextLines)
    (answers : raises world (requestOf call) call.contextLines = false) (rerank : Option Rerank) :
    (∀ path index, MatchLine world manual call path index →
      placeOf world path index ∈ (limited world policy call rerank).map Match.place) ↔
        Fits world policy call ∧ NothingLost world manual call := by
  have places := mem_visible_places documented answers
  have ordered := ordered_places world call rerank
  have fewer := (limited_sublist world policy call rerank).map Match.place
  constructor
  · intro complete
    constructor
    · rw [fits_iff rerank]
      have every : (orderedMatches (workspace world) call rerank).map Match.place ⊆
          (limited world policy call rerank).map Match.place := by
        intro place member
        obtain ⟨path, index, passes, rfl, dir, listed, shown⟩ := (places _).mp (ordered.mem_iff.mp member)
        exact complete path index (shown.matchLine listed passes)
      have distinct := ordered.nodup_iff.mpr (WorkspaceSearch.unique_places _)
      have atMost := (subperm_of_subset distinct every).length_le
      have atLeast := fewer.length_le
      rw [length_map, length_map] at atMost atLeast
      omega
    · intro path index line
      have member := ordered.mem_iff.mp (fewer.subset (complete path index line))
      obtain ⟨other, otherIndex, passes, same, shown⟩ := (places _).mp member
      obtain ⟨rfl, rfl⟩ := placeOf_injective passes line.1 same
      exact shown
  · intro kept path index line
    obtain ⟨dir, listed, shown⟩ := kept.2 path index line
    have whole : limited world policy call rerank = orderedMatches (workspace world) call rerank :=
      WorkspaceSearch.sliceTo_whole ((fits_iff rerank).mp kept.1)
    rw [whole, ordered.mem_iff]
    exact (places _).mpr ⟨path, index, line.1, rfl, dir, listed, shown⟩

/-- A search does what is expected of it exactly when it raises, when it marks its result, or when no
line is lost. -/
theorem searchContent_iff (documented : Documented world manual (requestOf call) call.contextLines)
    (rerank : Option Rerank) :
    Meets world manual policy call rerank ↔ Stops world call ∨ Exceeds world policy call rerank ∨
      Fits world policy call ∧ NothingLost world manual call := by
  have reorders (matched : List Match) := WorkspaceSearch.applyRerank_perm matched rerank
  rw [← raises_iff]
  cases raised : raises world (requestOf call) call.contextLines with
  | true =>
    simp only [true_or, iff_true]
    refine ⟨?_, reorders⟩
    intro result searched
    rw [searchContent, raised, if_pos rfl] at searched
    cases searched
  | false =>
    obtain ⟨matched, truncated⟩ := searchContent_bounded world policy call rerank
    have cut := WorkspaceSearch.boundMatches_cut_iff (limited world policy call rerank)
      policy.searchPayloadChars
    rw [← limited_complete_iff documented raised rerank]
    simp only [Bool.false_eq_true, false_or]
    rw [Exceeds, ← cut, ← truncated]
    constructor
    · intro meets
      cases marked : (WorkspaceSearch.searchContent (workspace world) policy call rerank).truncated with
      | true => exact .inl rfl
      | false =>
        right
        intro path index line
        have complete := meets.1 _ (by rw [searchContent, raised, if_neg Bool.false_ne_true])
          marked path index line
        rw [truncated] at marked
        rw [matched, WorkspaceSearch.boundMatches_whole marked] at complete
        apply count_pos_iff.mp
        omega
    · intro kept
      refine ⟨?_, reorders⟩
      intro result searched unmarked path index line
      rw [searchContent, raised, if_neg Bool.false_ne_true] at searched
      obtain rfl := Option.some.inj searched
      rcases kept with marked | complete
      · cases unmarked.symm.trans marked
      · rw [truncated] at unmarked
        rw [matched, WorkspaceSearch.boundMatches_whole unmarked]
        exact count_eq_one_of_mem (limited_places_nodup world policy call rerank) (complete path index line)

def braced (text : List Char) : List Char := '\x7b' :: (text ++ ['\x7d'])

/-- Spelled out, since the characters of a string are slow to take apart. -/
def fileText : List Char :=
  ['"', 'p', 'a', 't', 'h', '"', ':'] ++
  braced
    ['"', 't', 'e', 'x', 't', '"', ':', '"', '/', 'w', '/', 'a', '"']

def elapsedText : List Char :=
  braced
    ['"', 's', 'e', 'c', 's', '"', ':', '0', ',', '"', 'n', 'a', 'n', 'o', 's', '"', ':', '9', '0',
     '0', '0', ',', '"', 'h', 'u', 'm', 'a', 'n', '"', ':', '"', '0', '.', '0', '0', '0', '0', '0',
     '9', 's', '"']

def statsText : List Char :=
  ['"', 's', 't', 'a', 't', 's', '"', ':'] ++
  braced (
    ['"', 'e', 'l', 'a', 'p', 's', 'e', 'd', '"', ':'] ++
    elapsedText ++
    [',', '"', 's', 'e', 'a', 'r', 'c', 'h', 'e', 's', '"', ':', '1', ',', '"', 's', 'e', 'a', 'r',
     'c', 'h', 'e', 's', '_', 'w', 'i', 't', 'h', '_', 'm', 'a', 't', 'c', 'h', '"', ':', '1', ',',
     '"', 'b', 'y', 't', 'e', 's', '_', 's', 'e', 'a', 'r', 'c', 'h', 'e', 'd', '"', ':', '2', ',',
     '"', 'b', 'y', 't', 'e', 's', '_', 'p', 'r', 'i', 'n', 't', 'e', 'd', '"', ':', '2', '1', '1',
     ',', '"', 'm', 'a', 't', 'c', 'h', 'e', 'd', '_', 'l', 'i', 'n', 'e', 's', '"', ':', '1', ',',
     '"', 'm', 'a', 't', 'c', 'h', 'e', 's', '"', ':', '1'])

def beginText : List Char :=
  braced (
    ['"', 't', 'y', 'p', 'e', '"', ':', '"', 'b', 'e', 'g', 'i', 'n', '"', ',', '"', 'd', 'a', 't',
     'a', '"', ':'] ++
    braced fileText)

def matchText : List Char :=
  braced (
    ['"', 't', 'y', 'p', 'e', '"', ':', '"', 'm', 'a', 't', 'c', 'h', '"', ',', '"', 'd', 'a', 't',
     'a', '"', ':'] ++
    braced (
      fileText ++
      [',', '"', 'l', 'i', 'n', 'e', 's', '"', ':'] ++
      braced
        ['"', 't', 'e', 'x', 't', '"', ':', '"', 'x', '\\', 'n', '"'] ++
      [',', '"', 'l', 'i', 'n', 'e', '_', 'n', 'u', 'm', 'b', 'e', 'r', '"', ':', '1', ',', '"',
       'a', 'b', 's', 'o', 'l', 'u', 't', 'e', '_', 'o', 'f', 'f', 's', 'e', 't', '"', ':', '0',
       ',', '"', 's', 'u', 'b', 'm', 'a', 't', 'c', 'h', 'e', 's', '"', ':', '['] ++
      braced (
        ['"', 'm', 'a', 't', 'c', 'h', '"', ':'] ++
        braced
          ['"', 't', 'e', 'x', 't', '"', ':', '"', 'x', '"'] ++
        [',', '"', 's', 't', 'a', 'r', 't', '"', ':', '0', ',', '"', 'e', 'n', 'd', '"', ':',
          '1']) ++
      [']']))

def endText : List Char :=
  braced (
    ['"', 't', 'y', 'p', 'e', '"', ':', '"', 'e', 'n', 'd', '"', ',', '"', 'd', 'a', 't', 'a', '"',
     ':'] ++
    braced (
      fileText ++
      [',', '"', 'b', 'i', 'n', 'a', 'r', 'y', '_', 'o', 'f', 'f', 's', 'e', 't', '"', ':', 'n',
       'u', 'l', 'l', ','] ++
      statsText))

def summaryText : List Char :=
  braced (
    ['"', 'd', 'a', 't', 'a', '"', ':'] ++
    braced (
      ['"', 'e', 'l', 'a', 'p', 's', 'e', 'd', '_', 't', 'o', 't', 'a', 'l', '"', ':'] ++
      elapsedText ++
      [','] ++
      statsText) ++
    [',', '"', 't', 'y', 'p', 'e', '"', ':', '"', 's', 'u', 'm', 'm', 'a', 'r', 'y', '"'])

def fileField : String × Json := ("path", .obj [("text", .str "/w/a")])

def elapsedObject : Json :=
  .obj [("secs", .int 0), ("nanos", .int 9000), ("human", .str "0.000009s")]

def statsField : String × Json :=
  ("stats", .obj [("elapsed", elapsedObject), ("searches", .int 1), ("searches_with_match", .int 1),
    ("bytes_searched", .int 2), ("bytes_printed", .int 211), ("matched_lines", .int 1),
    ("matches", .int 1)])

def beginFields : List (String × Json) := [("type", .str "begin"), ("data", .obj [fileField])]

def matchFields : List (String × Json) :=
  [("type", .str "match"), ("data", .obj [fileField, ("lines", .obj [("text", .str "x\n")]),
    ("line_number", .int 1), ("absolute_offset", .int 0), ("submatches", .arr [.obj
      [("match", .obj [("text", .str "x")]), ("start", .int 0), ("end", .int 1)]])])]

def endFields : List (String × Json) :=
  [("type", .str "end"), ("data", .obj [fileField, ("binary_offset", .null), statsField])]

def summaryFields : List (String × Json) :=
  [("data", .obj [("elapsed_total", elapsedObject), statsField]), ("type", .str "summary")]

def reportLoads (raw : List Char) : Loaded :=
  if raw = beginText then .value (.obj beginFields)
  else if raw = matchText then .value (.obj matchFields)
  else if raw = endText then .value (.obj endFields)
  else if raw = summaryText then .value (.obj summaryFields)
  else .valueError

def matchEvent : Event := ⟨true, "/w/a", 1, some "x\n"⟩

def oneMatch : List Block :=
  [(none, beginText), (some matchEvent, matchText), (none, endText),
    (none, summaryText)]

def oneFile (text : String) (outcome : Outcome) : World Unit where
  dirs := [()]
  scope _ := ⟨none, none⟩
  policy := ⟨none, none⟩
  contents _ := text.toList.map .char
  isFile path := decide (path = "/w/a")
  isBinary _ := false
  isPathAllowed _ path := decide (path = "/w/a")
  sourceMatchesScope _ _ _ := true
  walked _ := ["/w/a"]
  ripgrep _ _ _ := outcome
  loads := reportLoads
  lower := id
  filesWithMatches _ _ := []
  counts _ _ := []
  newest _ := ["/w/a"]

def literalManual : Manual Unit where
  finds _ _ pattern line := FileLines.contains ((FileLines.strictText line).getD []) pattern.toList
  searches _ _ := [("/w/a", 1)]

def callFor (maxResults : Int) : Call where
  query := "x"
  maxResults := maxResults
  regex := false
  glob := ""
  outputMode := "content"
  contextLines := 0
  caseSensitive := true

def reported : World Unit := oneFile "x\n" (.ended 0 (reportText oneMatch))

theorem silent_of_type {printed : List Char} {fields : List (String × Json)} {kind : String}
    (whole : TextLines.Unbroken printed) (loaded : reportLoads printed = .value (.obj fields))
    (named : Json.getOrNull fields "type" = .str kind) (other : kind ≠ "match" ∧ kind ≠ "context") :
    Prints reportLoads printed none := by
  right
  constructor
  · intro line none
    cases none
  · intro piece listed others otherKind read same
    rw [TextLines.splitlines_line _ _ whole] at listed
    obtain rfl := mem_singleton.mp listed
    rw [loaded] at read
    cases read
    rw [named] at same
    cases same
    exact other

theorem reportLoads_begin : reportLoads beginText = .value (.obj beginFields) := by
  rw [reportLoads]
  exact if_pos rfl

theorem reportLoads_match : reportLoads matchText = .value (.obj matchFields) := by
  have first : matchText ≠ beginText := by decide
  rw [reportLoads, if_neg first]
  exact if_pos rfl

theorem reportLoads_end : reportLoads endText = .value (.obj endFields) := by
  have first : endText ≠ beginText := by decide
  have second : endText ≠ matchText := by decide
  rw [reportLoads, if_neg first, if_neg second]
  exact if_pos rfl

theorem reportLoads_summary : reportLoads summaryText = .value (.obj summaryFields) := by
  have first : summaryText ≠ beginText := by decide
  have second : summaryText ≠ matchText := by decide
  have third : summaryText ≠ endText := by decide
  rw [reportLoads, if_neg first, if_neg second, if_neg third]
  exact if_pos rfl

theorem flat_of_all {text : String} (all : (text.toList.all fun c => !isInnerBreak c) = true) :
    Flat text := by
  simpa [Flat] using all

theorem matchEvent_flat : matchEvent.Flat := by
  constructor
  · exact flat_of_all (by decide)
  · intro text told
    obtain rfl := Option.some.inj told
    exact flat_of_all (by decide)

theorem matchEvent_object : matchEvent.Object matchFields :=
  ⟨rfl, _, "", rfl, rfl, rfl, rfl⟩

theorem texts_unbroken : TextLines.Unbroken beginText ∧ TextLines.Unbroken matchText ∧
    TextLines.Unbroken endText ∧ TextLines.Unbroken summaryText := by
  decide +kernel

theorem begin_prints : Prints reportLoads beginText none :=
  silent_of_type texts_unbroken.1 reportLoads_begin rfl (by decide)

theorem match_prints : Prints reportLoads matchText (some matchEvent) :=
  .inl ⟨matchEvent, rfl, matchEvent_flat, texts_unbroken.2.1, matchFields, reportLoads_match,
    matchEvent_object⟩

theorem end_prints : Prints reportLoads endText none :=
  silent_of_type texts_unbroken.2.2.1 reportLoads_end rfl (by decide)

theorem summary_prints : Prints reportLoads summaryText none :=
  silent_of_type texts_unbroken.2.2.2 reportLoads_summary rfl (by decide)

theorem oneMatch_prints : ∀ block ∈ oneMatch, Prints reportLoads block.2 block.1 := by
  simp only [oneMatch, forall_mem_cons]
  exact ⟨begin_prints, match_prints, end_prints, summary_prints, nofun⟩

theorem reported_lines : LineEnds.linesBy FileLines.rgEnds (reported.contents "/w/a") =
    [[.char 'x', .char '\n']] := by decide

theorem oneMatch_matched {event : Event} (isMatch : event.isMatch = true) :
    (∃ block ∈ oneMatch, block.1 = some event) ↔
      Matched reported literalManual () (requestOf (callFor 0)) event := by
  constructor
  · intro listed
    obtain ⟨block, member, about⟩ := listed
    simp only [oneMatch, mem_cons, not_mem_nil, or_false] at member
    rcases member with rfl | rfl | rfl | rfl
    · cases about
    · obtain rfl := Option.some.inj about
      exact ⟨1, [.char 'x', .char '\n'], mem_singleton_self _, by decide, by decide⟩
    · cases about
    · cases about
  · intro matched
    obtain ⟨reach, line, searched, scanned, told⟩ := matched
    obtain ⟨path, rfl⟩ := Prod.mk.inj (mem_singleton.mp searched)
    rw [path, reported_lines] at scanned
    obtain ⟨index, listed, place, -⟩ := FileLines.mem_scan_iff.mp scanned
    cases index with
    | succ index => cases listed
    | zero =>
      obtain rfl := Option.some.inj listed
      refine ⟨(some matchEvent, matchText), by simp [oneMatch], ?_⟩
      obtain ⟨eventMatch, eventPath, number, text⟩ := event
      dsimp only at isMatch path place told
      subst isMatch path place told
      rfl

theorem reported_documented :
    Documented reported literalManual (requestOf (callFor 0)) (callFor 0).contextLines := by
  intro dir _ code stdout ended _
  obtain ⟨-, same⟩ := Outcome.ended.inj ended
  exact ⟨oneMatch, same.symm, oneMatch_prints, fun _ => oneMatch_matched⟩

theorem reported_nothingLost : NothingLost reported literalManual (callFor 0) := by
  intro path index line
  obtain ⟨passes, dir, listed, marked⟩ := line
  rw [allowed, Bool.and_eq_true, Bool.and_eq_true, pathAllowedInDirs, any_eq_true] at passes
  obtain ⟨⟨⟨other, -, inside⟩, -⟩, -⟩ := passes
  have named : path = "/w/a" := of_decide_eq_true (Bool.and_eq_true_iff.mp inside).1
  subst named
  have lines : marks reported literalManual (callFor 0) ()
      (askedPatterns (callFor 0).query (callFor 0).regex) "/w/a" = [true] := by decide +kernel
  rw [lines] at marked
  cases index with
  | succ index => cases marked
  | zero =>
    refine ⟨(), listed, .byRipgrep rfl (.inl rfl) (mem_singleton_self _) (by decide) ?_ ?_⟩
    · exact ⟨by decide, by decide⟩
    · constructor
      · exact matchEvent_flat.1
      · intro text decoded first strict
        rw [reported_lines] at first
        obtain rfl := Option.some.inj first
        obtain rfl := Option.some.inj strict
        exact matchEvent_flat.2 _ rfl

theorem reported_fits : Fits reported ⟨50, 12000⟩ (callFor 0) := by
  unfold Fits
  decide +kernel

theorem one_match_shown : Meets reported literalManual ⟨50, 12000⟩ (callFor 0) none :=
  (searchContent_iff reported_documented none).mpr (.inr (.inr ⟨reported_fits, reported_nothingLost⟩))

/-- Of two match lines a limit of one leaves one, and the result is not marked. -/
theorem second_match_lost :
    ¬Meets (oneFile "x\nx\n" .osError) literalManual ⟨50, 12000⟩ (callFor 1) none := by
  intro meets
  have shown : (searchContent (oneFile "x\nx\n" .osError) ⟨50, 12000⟩ (callFor 1) none).map
      (fun result => (result.matched.map Match.place, result.truncated)) = some ([("/w/a", 1)], false) := by
    decide
  obtain ⟨result, searched, same⟩ := Option.map_eq_some_iff.mp shown
  obtain ⟨places, unmarked⟩ := Prod.mk.inj same
  have line : MatchLine (oneFile "x\nx\n" .osError) literalManual (callFor 1) "/w/a" 1 :=
    ⟨by decide, (), mem_singleton_self _, by decide⟩
  have once := meets.1 result searched unmarked "/w/a" 1 line
  rw [places] at once
  exact absurd once (by decide)

end SourceLens.DirectorySearch
