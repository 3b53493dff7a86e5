import SourceLens.WorkspaceSearch
import SourceLens.Library.Histories
import SourceLens.Library.Transition
import Mathlib.Data.List.Induction
import Mathlib.Data.List.TakeWhile

/-! The search tool of a run: a search that ran before under the same key is answered from a
cache, without its results. -/

namespace SourceLens.SearchCache

open Histories Transition WorkspaceSearch List
open PyText (isSpace strip)

variable {c : Char} {earlier later : Search} {few many : List Match}

structure Key where
  query : String
  regex : Bool
  glob : String
  outputMode : String
  contextLines : Int
  caseSensitive : Bool
  deriving DecidableEq

structure Entry where
  mode : String
  paths : List String

structure Search where
  call : Call
  rerank : Option Rerank

inductive Reply
  | fresh (result : Result)
  | cached (mode note : String) (paths : List String)

structure Tool where
  cache : OrderedDict Key Entry := .empty
  replies : List (Search × Reply) := []

def keyOf (call : Call) : Key where
  query := stripText call.query
  regex := call.regex
  glob := stripText call.glob
  outputMode := if call.outputMode = "" then "content" else call.outputMode
  contextLines := call.contextLines
  caseSensitive := call.caseSensitive

def repeatNote : String :=
  "This exact search already ran earlier in this run and returned the same results. Do NOT " ++
    "repeat it. Reuse those matches, refine the keywords (batch variants with '|'), add a glob, " ++
    "or read the matched files with read_workspace_file."

def matchedPaths (matched : List Match) : List String := (matched.map Match.path).eraseDups

variable {Dir : Type} (workspace : Workspace Dir) (policy : Policy)

def Search.result (asked : Search) : Result := search workspace policy asked.call asked.rerank

def searchWorkspace (tool : Tool) (asked : Search) : Option Tool :=
  match tool.cache.get? (keyOf asked.call) with
  | some entry =>
    some { tool with
      replies := tool.replies ++ [(asked, .cached entry.mode repeatNote (entry.paths.take 10))] }
  | none =>
    let result := asked.result workspace policy
    some {
      cache := tool.cache.set (keyOf asked.call) ⟨result.mode, matchedPaths result.matched⟩
      replies := tool.replies ++ [(asked, .fresh result)] }

structure Covers (earlier later : Result) : Prop where
  mode : later.mode = earlier.mode
  matched : later.matched ⊆ earlier.matched
  paths : matchedPaths later.matched ⊆ matchedPaths earlier.matched
  files : later.files ⊆ earlier.files
  counts : later.counts ⊆ earlier.counts

/-- A call answered from the cache would find nothing that an earlier one did not return. -/
def NothingNew (tool : Tool) : Prop :=
  Along (fun before answered => ∀ mode note paths, answered.2 = .cached mode note paths →
    ∃ earlier result, (earlier, Reply.fresh result) ∈ before ∧
      Covers result (answered.1.result workspace policy) ∧
        mode = (answered.1.result workspace policy).mode) tool.replies

def Uncut (asked : Search) : Prop :=
  let limit := boundedResults policy asked.call.maxResults
  if asked.call.outputMode = "files" then (matchingFiles workspace asked.call).length ≤ limit
  else if asked.call.outputMode = "count" then (rankedCounts workspace asked.call).length ≤ limit
  else (orderedMatches workspace asked.call asked.rerank).length ≤ limit ∧ 8 ≤ limit

/-- Nothing that the key leaves out differs, but for a limit that shows no more. -/
structure AsksTheSame (earlier later : Search) : Prop where
  glob : later.call.glob = earlier.call.glob
  query : later.call.regex = true ∨ alternatives later.call.query = [] →
    later.call.query = earlier.call.query
  limit : boundedResults policy later.call.maxResults = boundedResults policy earlier.call.maxResults ∨
    0 ≤ boundedResults policy later.call.maxResults ∧
      (boundedResults policy later.call.maxResults ≤ boundedResults policy earlier.call.maxResults ∨
        Uncut workspace policy earlier)
  rerank : later.rerank.map (· (rankedMatches workspace earlier.call)) =
    earlier.rerank.map (· (rankedMatches workspace earlier.call))

def Repeats (tool : Tool) (asked : Search) : Prop :=
  ∀ earlier result, (earlier, Reply.fresh result) ∈ tool.replies →
    keyOf earlier.call = keyOf asked.call → AsksTheSame workspace policy earlier asked

theorem strip_cons (space : isSpace c = true) (text : List Char) :
    strip isSpace (c :: text) = strip isSpace text := by
  rw [strip, strip, PyText.stripLeft, PyText.stripLeft, dropWhile_cons_of_pos space]

theorem strip_concat (space : isSpace c = true) (text : List Char) :
    strip isSpace (text ++ [c]) = strip isSpace text := by
  rw [strip, strip, PyText.stripLeft, PyText.stripLeft]
  by_cases blank : ∀ d ∈ text, isSpace d = true
  · rw [dropWhile_append_of_pos blank, dropWhile_cons_of_pos space, dropWhile_nil,
      dropWhile_eq_nil_iff.mpr blank]
  · have other : (text ++ [c]).dropWhile isSpace = text.dropWhile isSpace ++ [c] := by
      rw [dropWhile_append, if_neg]
      intro empty
      exact blank (dropWhile_eq_nil_iff.mp (isEmpty_iff.mp empty))
    rw [other, PyText.stripRight, reverse_concat, dropWhile_cons_of_pos space]
    rfl

theorem splitOnP_concat (plain : isBar c = false) (text : List Char) :
    ∃ chunks last, text.splitOnP isBar = chunks ++ [last] ∧
      (text ++ [c]).splitOnP isBar = chunks ++ [last ++ [c]] := by
  induction text with
  | nil =>
    refine ⟨[], [], rfl, ?_⟩
    rw [nil_append, splitOnP_cons_eq_if_modifyHead, if_neg (by simp [plain])]
    rfl
  | cons d text ih =>
    obtain ⟨chunks, last, before, after⟩ := ih
    rw [cons_append, splitOnP_cons_eq_if_modifyHead,
      splitOnP_cons_eq_if_modifyHead, before, after]
    by_cases bar : isBar d = true
    · rw [if_pos bar, if_pos bar]
      exact ⟨[] :: chunks, last, rfl, rfl⟩
    · rw [if_neg bar, if_neg bar]
      cases chunks with
      | nil => exact ⟨[], d :: last, rfl, rfl⟩
      | cons chunk chunks => exact ⟨(d :: chunk) :: chunks, last, rfl, rfl⟩

theorem space_plain (space : isSpace c = true) : isBar c = false := by
  rw [isBar, Bool.or_eq_false_iff, decide_eq_false_iff_not, decide_eq_false_iff_not]
  constructor
  · rintro rfl
    exact absurd space (by decide)
  · rintro rfl
    exact absurd space (by decide)

def strippedChunks (text : List Char) : List (List Char) :=
  (text.splitOnP isBar).map (strip isSpace)

theorem strippedChunks_dropWhile (text : List Char) :
    strippedChunks (text.dropWhile isSpace) = strippedChunks text := by
  induction text with
  | nil => rfl
  | cons c text ih =>
    by_cases space : isSpace c = true
    · rw [dropWhile_cons_of_pos space, ih, strippedChunks, strippedChunks,
        splitOnP_cons_eq_if_modifyHead, if_neg (by simp [space_plain space])]
      cases text.splitOnP isBar with
      | nil => rfl
      | cons chunk chunks =>
        rw [modifyHead_cons, map_cons, map_cons, strip_cons space]
    · rw [dropWhile_cons_of_neg space]

theorem strippedChunks_concat (space : isSpace c = true) (text : List Char) :
    strippedChunks (text ++ [c]) = strippedChunks text := by
  obtain ⟨chunks, last, before, after⟩ := splitOnP_concat (space_plain space) text
  rw [strippedChunks, strippedChunks, before, after, map_append, map_append,
    map_singleton, map_singleton, strip_concat space]

theorem strippedChunks_strip (text : List Char) :
    strippedChunks (strip isSpace text) = strippedChunks text := by
  have right : ∀ text, strippedChunks (PyText.stripRight isSpace text) = strippedChunks text := by
    intro text
    induction text using List.reverseRecOn with
    | nil => rfl
    | append_singleton text c ih =>
      by_cases space : isSpace c = true
      · rw [strippedChunks_concat space, ← ih, PyText.stripRight, PyText.stripRight,
          reverse_concat, dropWhile_cons_of_pos space]
      · rw [PyText.stripRight, reverse_concat, dropWhile_cons_of_neg space,
          reverse_cons, reverse_reverse]
  rw [strip, right, PyText.stripLeft, strippedChunks_dropWhile]

theorem alternatives_stripText (query : String) :
    alternatives (stripText query) = alternatives query := by
  have chunks : ∀ query : String, alternatives query =
      ((strippedChunks query.toList).map String.ofList).filter fun group => decide (group ≠ "") := by
    intro query
    rw [alternatives, strippedChunks, map_map]
    rfl
  rw [chunks, chunks, stripText, String.toList_ofList, strippedChunks_strip]

variable {workspace policy}

theorem AsksTheSame.request (same : AsksTheSame workspace policy earlier later)
    (key : keyOf earlier.call = keyOf later.call) : requestOf later.call = requestOf earlier.call ∧
      rankedMatches workspace later.call = rankedMatches workspace earlier.call := by
  have query : stripText earlier.call.query = stripText later.call.query := congrArg Key.query key
  have regex : earlier.call.regex = later.call.regex := congrArg Key.regex key
  have context : earlier.call.contextLines = later.call.contextLines :=
    congrArg Key.contextLines key
  have letters : earlier.call.caseSensitive = later.call.caseSensitive :=
    congrArg Key.caseSensitive key
  have groups : queryGroups later.call.query = queryGroups earlier.call.query := by
    have other : alternatives later.call.query = alternatives earlier.call.query := by
      rw [← alternatives_stripText, ← query, alternatives_stripText]
    by_cases exact' : alternatives later.call.query = []
    · rw [same.query (.inr exact')]
    · have filled : (alternatives later.call.query).isEmpty = false :=
        Bool.eq_false_iff.mpr fun empty => exact' (isEmpty_iff.mp empty)
      rw [queryGroups, queryGroups, if_neg (by simp [filled]), if_neg (by simp [← other, filled]),
        other]
  have patterns : patternsOf later.call.query later.call.regex =
      patternsOf earlier.call.query earlier.call.regex := by
    rw [regex]
    by_cases pattern : later.call.regex = true
    · rw [same.query (.inl pattern)]
    · rw [patternsOf, patternsOf, if_neg pattern, if_neg pattern, groups]
  have request : requestOf later.call = requestOf earlier.call := by
    rw [requestOf, requestOf, patterns, regex, letters, same.glob]
  refine ⟨request, ?_⟩
  rw [rankedMatches, rankedMatches, visibleMatches, visibleMatches, request, same.glob, context,
    regex, queryTerms, queryTerms, groups]

theorem sliceTo_begins {Item : Type} {later earlier : Int} {items : List Item}
    (limit : later = earlier ∨ 0 ≤ later ∧ (later ≤ earlier ∨ items.length ≤ earlier)) :
    sliceTo later items <+: sliceTo earlier items := by
  rcases limit with rfl | ⟨positive, within⟩
  · exact prefix_refl _
  · rw [sliceTo, sliceTo, if_neg (by omega), if_neg (by omega)]
    rcases within with less | all
    · exact take_prefix_take_left (by omega)
    · rw [take_of_length_le (i := earlier.toNat) (by omega)]
      exact take_prefix _ _

theorem boundFrom_prefix (budget used : Int) (kept : Bool) (less : few <+: many) :
    (boundFrom budget used kept few).1 <+: (boundFrom budget used kept many).1 := by
  induction few generalizing many used kept with
  | nil => exact nil_prefix
  | cons found few ih =>
    obtain ⟨rest, rfl⟩ := less
    rw [cons_append, boundFrom, boundFrom]
    split
    · exact prefix_refl _
    · exact cons_prefix_cons.mpr ⟨rfl, ih _ _ (prefix_append _ _)⟩

theorem boundMatches_prefix (less : few <+: many) (budget : Int) :
    (boundMatches few budget).1 <+: (boundMatches many budget).1 := by
  rw [boundMatches, boundMatches]
  split
  · exact less
  · exact boundFrom_prefix budget 0 false less

theorem navigation_begins (used : Nat) {few many : List String} (less : few <+: many) :
    navigation used few <+: navigation used many := by
  induction few generalizing many used with
  | nil => exact nil_prefix
  | cons path few ih =>
    obtain ⟨rest, rfl⟩ := less
    rw [cons_append, navigation, navigation]
    split
    · exact prefix_refl _
    · exact cons_prefix_cons.mpr ⟨rfl, ih _ (prefix_append _ _)⟩

theorem matchedPaths_subset (less : few ⊆ many) : matchedPaths few ⊆ matchedPaths many := by
  intro path member
  rw [matchedPaths, mem_eraseDups] at member ⊢
  exact map_subset _ less member

theorem covers_of_prefix {earlier later : Result} (mode : later.mode = earlier.mode)
    (matched : later.matched <+: earlier.matched) (files : later.files <+: earlier.files)
    (counts : later.counts <+: earlier.counts) : Covers earlier later :=
  ⟨mode, matched.subset, matchedPaths_subset matched.subset, files.subset, counts.subset⟩

theorem applyRerank_congr {matched : List Match} {one other : Option Rerank}
    (same : one.map (· matched) = other.map (· matched)) :
    applyRerank matched one = applyRerank matched other := by
  cases one with
  | none =>
    cases other with
    | none => rfl
    | some other => cases same
  | some one =>
    cases other with
    | none => cases same
    | some other =>
      have answers : one matched = other matched := Option.some.inj same
      rw [applyRerank, applyRerank, answers]

theorem boundedResults_sample {maxResults : Int} (room : 0 ≤ boundedResults policy maxResults) :
    boundedResults policy (min 8 (boundedResults policy maxResults)) =
      min 8 (boundedResults policy maxResults) := by
  simp only [boundedResults, maxSearchMatches] at room ⊢
  split at room
  · rename_i small
    simp only [if_pos small]
    split <;> omega
  · rename_i large
    simp only [if_neg large]
    split <;> omega

theorem sample_begins (same : AsksTheSame workspace policy earlier later)
    (other : earlier.call.outputMode ≠ "files" ∧ earlier.call.outputMode ≠ "count") :
    globFiles workspace policy (navigationGlob later.call.glob)
        (min 8 (boundedResults policy later.call.maxResults)) <+:
      globFiles workspace policy (navigationGlob earlier.call.glob)
        (min 8 (boundedResults policy earlier.call.maxResults)) := by
  rw [globFiles, globFiles, same.glob]
  refine sliceTo_begins ?_
  rcases same.limit with equal | ⟨room, within⟩
  · exact .inl (by rw [equal])
  · have reach : min 8 (boundedResults policy later.call.maxResults) ≤
        min 8 (boundedResults policy earlier.call.maxResults) ∧
          0 ≤ boundedResults policy earlier.call.maxResults := by
      rcases within with less | uncut
      · omega
      · rw [Uncut, if_neg other.1, if_neg other.2] at uncut
        omega
    rw [boundedResults_sample room, boundedResults_sample reach.2]
    exact .inr ⟨by omega, .inl reach.1⟩

theorem AsksTheSame.covers (same : AsksTheSame workspace policy earlier later)
    (key : keyOf earlier.call = keyOf later.call) :
    Covers (earlier.result workspace policy) (later.result workspace policy) := by
  obtain ⟨request, ranked⟩ := same.request key
  have modes : (if earlier.call.outputMode = "" then "content" else earlier.call.outputMode) =
      if later.call.outputMode = "" then "content" else later.call.outputMode :=
    congrArg Key.outputMode key
  have agrees : ∀ mode, mode ≠ "" → mode ≠ "content" →
      (later.call.outputMode = mode ↔ earlier.call.outputMode = mode) := by
    intro mode filled other
    constructor
    · intro named
      rw [named, if_neg filled] at modes
      split at modes
      · exact absurd modes.symm other
      · exact modes
    · intro named
      rw [named, if_neg filled] at modes
      split at modes
      · exact absurd modes other
      · exact modes.symm
  have files := agrees "files" (by decide) (by decide)
  have count := agrees "count" (by decide) (by decide)
  rw [Search.result, Search.result, search, search]
  by_cases inFiles : earlier.call.outputMode = "files"
  · rw [if_pos inFiles, if_pos (files.mpr inFiles)]
    have found : matchingFiles workspace later.call = matchingFiles workspace earlier.call := by
      rw [matchingFiles, matchingFiles, request, same.glob]
    refine covers_of_prefix rfl nil_prefix ?_ nil_prefix
    rw [searchFiles, searchFiles, found]
    refine sliceTo_begins (same.limit.imp_right (And.imp_right (Or.imp_right fun uncut => ?_)))
    rwa [Uncut, if_pos inFiles] at uncut
  · rw [if_neg inFiles, if_neg fun named => inFiles (files.mp named)]
    by_cases inCount : earlier.call.outputMode = "count"
    · rw [if_pos inCount, if_pos (count.mpr inCount)]
      have found : rankedCounts workspace later.call = rankedCounts workspace earlier.call := by
        rw [rankedCounts, rankedCounts, request, same.glob]
      refine covers_of_prefix rfl nil_prefix nil_prefix ?_
      rw [searchCounts, searchCounts, found]
      refine sliceTo_begins (same.limit.imp_right (And.imp_right (Or.imp_right fun uncut => ?_)))
      rwa [Uncut, if_neg inFiles, if_pos inCount] at uncut
    · rw [if_neg inCount, if_neg fun named => inCount (count.mp named)]
      have found : orderedMatches workspace later.call later.rerank =
          orderedMatches workspace earlier.call earlier.rerank := by
        rw [orderedMatches, orderedMatches, ranked]
        exact applyRerank_congr same.rerank
      rw [searchContent, searchContent, found]
      by_cases empty : (orderedMatches workspace earlier.call earlier.rerank).isEmpty = true
      · rw [if_pos empty, if_pos empty]
        refine covers_of_prefix rfl nil_prefix ?_ nil_prefix
        exact navigation_begins 0 (sample_begins same ⟨inFiles, inCount⟩)
      · rw [if_neg empty, if_neg empty]
        refine covers_of_prefix rfl ?_ nil_prefix nil_prefix
        refine boundMatches_prefix (sliceTo_begins ?_) _
        refine same.limit.imp_right (And.imp_right (Or.imp_right fun uncut => ?_))
        rw [Uncut, if_neg inFiles, if_neg inCount] at uncut
        exact uncut.1

variable (workspace policy) in
structure Sound (tool : Tool) : Prop where
  cached : ∀ key entry, tool.cache.get? key = some entry →
    ∃ earlier result, (earlier, Reply.fresh result) ∈ tool.replies ∧ keyOf earlier.call = key ∧
      entry.mode = result.mode
  logged : ∀ earlier result, (earlier, Reply.fresh result) ∈ tool.replies →
    result = earlier.result workspace policy
  nothingNew : NothingNew workspace policy tool

theorem Sound.step {tool next : Tool} {asked : Search} (sound : Sound workspace policy tool)
    (repeats : Repeats workspace policy tool asked)
    (taken : searchWorkspace workspace policy tool asked = some next) :
    Sound workspace policy next := by
  rw [searchWorkspace] at taken
  cases held : tool.cache.get? (keyOf asked.call) with
  | some entry =>
    rw [held] at taken
    obtain rfl := Option.some.inj taken
    obtain ⟨earlier, result, listed, key, mode⟩ := sound.cached _ entry held
    obtain rfl := sound.logged earlier result listed
    have covers := (repeats earlier _ listed key).covers key
    refine ⟨?_, ?_, ?_⟩
    · intro key entry found
      obtain ⟨other, result, inside, same⟩ := sound.cached key entry found
      exact ⟨other, result, mem_append_left _ inside, same⟩
    · intro other result inside
      rcases mem_append.mp inside with old | new
      · exact sound.logged other result old
      · cases mem_singleton.mp new
    · refine along_concat.mpr ⟨sound.nothingNew, ?_⟩
      rintro _ _ _ ⟨⟩
      exact ⟨earlier, _, listed, covers, mode.trans covers.mode.symm⟩
  | none =>
    rw [held] at taken
    obtain rfl := Option.some.inj taken
    refine ⟨?_, ?_, ?_⟩
    · intro key entry found
      dsimp only at found
      rw [OrderedDict.get?_set] at found
      split at found
      · rename_i same
        obtain rfl := Option.some.inj found
        exact ⟨asked, _, mem_append_right _ (mem_singleton_self _), same.symm, rfl⟩
      · obtain ⟨other, result, inside, same⟩ := sound.cached key entry found
        exact ⟨other, result, mem_append_left _ inside, same⟩
    · intro other result inside
      rcases mem_append.mp inside with old | new
      · exact sound.logged other result old
      · cases mem_singleton.mp new
        rfl
    · refine along_concat.mpr ⟨sound.nothingNew, ?_⟩
      intro _ _ _ again
      cases again

theorem repeats_nothingNew (workspace : Workspace Dir) (policy : Policy) {asked : List Search}
    {tool : Tool} (run : Steps (searchWorkspace workspace policy) (Repeats workspace policy) {}
      asked tool) : NothingNew workspace policy tool := by
  have start : Sound workspace policy {} := ⟨nofun, nofun, along_nil⟩
  exact (run.invariant (Sound workspace policy)
    (fun _ _ _ sound allowed taken => sound.step allowed taken) start).nothingNew

def foundLine (line : Int) : Match := ⟨"a", line, "x", [], []⟩

def twoLines : Workspace Unit where
  dirs := [()]
  lineMatches _ _ _ := [foundLine 1, foundLine 2]
  filesWithMatches _ _ := ["a"]
  counts _ _ := [("a", 2)]
  allowed _ _ := true
  citationPath := id
  newest _ := ["a"]
  lower := id

def plainPolicy : Policy := ⟨50, 12000⟩

def askFor (query : String) (maxResults : Int) : Search :=
  ⟨⟨query, maxResults, false, "", "content", 0, false⟩, none⟩

theorem again_nothingNew : ∃ tool,
    exec (searchWorkspace twoLines plainPolicy) {} [askFor "x" 50, askFor " x" 1] = some tool ∧
      NothingNew twoLines plainPolicy tool := by
  have repeats : ∀ first, searchWorkspace twoLines plainPolicy {} (askFor "x" 50) = some first →
      Repeats twoLines plainPolicy first (askFor " x" 1) := by
    rintro _ ⟨⟩ earlier result listed _
    cases mem_singleton.mp listed
    exact ⟨rfl, by decide, .inr ⟨by decide, .inl (by decide)⟩, rfl⟩
  obtain ⟨first, began⟩ : ∃ first,
      searchWorkspace twoLines plainPolicy {} (askFor "x" 50) = some first := ⟨_, rfl⟩
  obtain ⟨second, ended⟩ : ∃ second,
      searchWorkspace twoLines plainPolicy first (askFor " x" 1) = some second := by
    rw [searchWorkspace]
    split <;> exact ⟨_, rfl⟩
  have run : Steps (searchWorkspace twoLines plainPolicy) (Repeats twoLines plainPolicy) {}
      [askFor "x" 50, askFor " x" 1] second :=
    .cons (fun _ _ listed => absurd listed not_mem_nil) began
      (.cons (repeats first began) ended (.nil second))
  exact ⟨second, run.exec_eq, repeats_nothingNew twoLines plainPolicy run⟩

/-- The second search would show a line more. -/
theorem larger_limit_hides : ∃ tool,
    exec (searchWorkspace twoLines plainPolicy) {} [askFor "x" 1, askFor "x" 50] = some tool ∧
      ¬ NothingNew twoLines plainPolicy tool := by
  refine ⟨_, rfl, fun nothingNew => ?_⟩
  obtain ⟨earlier, result, listed, covers, -⟩ :=
    nothingNew [_] _ [] rfl _ _ _ rfl
  cases mem_singleton.mp listed
  have second : foundLine 2 ∈ ((askFor "x" 50).result twoLines plainPolicy).matched := by decide
  exact absurd (covers.matched second) (by decide)

end SourceLens.SearchCache
