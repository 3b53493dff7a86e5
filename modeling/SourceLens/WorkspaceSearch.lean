import SourceLens.Library.OrderedDict
import SourceLens.Library.PyText
import Mathlib.Data.List.Sort

/-! A search of the workspace (`search_workspace` of `workspace.py`): what the searches of the
single directories return is filtered, ranked, reordered and cut. -/

namespace SourceLens.WorkspaceSearch

open PyText (isSpace strip)

structure Match where
  path : String
  line : Int
  text : String
  before : List (Int × String)
  after : List (Int × String)
  deriving DecidableEq

structure Request where
  patterns : List String
  fixed : Bool
  glob : String
  caseSensitive : Bool
  deriving DecidableEq

structure Call where
  query : String
  maxResults : Int
  regex : Bool
  glob : String
  outputMode : String
  contextLines : Int
  caseSensitive : Bool
  deriving DecidableEq

/-- The indices to bring forward, an entry that is no integer as `none`; `none` for an order
that is left as it is. -/
abbrev Rerank := List Match → Option (List (Option Int))

structure Policy where
  maxSearchMatches : Int
  searchPayloadChars : Int

/-- The selected directories, and what is found in them while nothing changes. -/
structure Workspace (Dir : Type) where
  dirs : List Dir
  /-- The line matches of a directory, with so many lines of context. -/
  lineMatches : Dir → Request → Int → List Match
  filesWithMatches : Dir → Request → List String
  counts : Dir → Request → List (String × Int)
  /-- The path gate of a call with the glob. -/
  allowed : String → String → Bool
  /-- `citation_path` -/
  citationPath : String → String
  /-- The files that a glob finds, the newest first. -/
  newest : String → List String
  /-- `str.lower` -/
  lower : String → String

structure Result where
  mode : String
  matched : List Match := []
  files : List String := []
  counts : List (String × Int) := []
  truncated : Bool := false
  note : Option String := none
  deriving DecidableEq

/-- A bar of `SEARCH_OR_SEPARATOR`. -/
def isBar (c : Char) : Bool := decide (c = '|') || decide (c = '｜')

def stripText (text : String) : String := String.ofList (strip isSpace text.toList)

def alternatives (query : String) : List String :=
  ((query.toList.splitOnP isBar).map fun chunk => String.ofList (strip isSpace chunk)).filter
    fun group => decide (group ≠ "")

def maxQueryGroups : Nat := 20

def queryGroups (query : String) : List String :=
  if (alternatives query).isEmpty then [query] else (alternatives query).take maxQueryGroups

variable {Dir : Type} (workspace : Workspace Dir) (policy : Policy)

def queryTerms (query : String) : List String :=
  (((queryGroups query).filter fun group => decide (group ≠ "")).map workspace.lower).eraseDups

def patternsOf (query : String) (regex : Bool) : List String :=
  if regex then if query = "" then [] else [query]
  else (queryGroups query).filter fun group => decide (group ≠ "")

def requestOf (call : Call) : Request where
  patterns := patternsOf call.query call.regex
  fixed := !call.regex
  glob := call.glob
  caseSensitive := call.caseSensitive

/-- `items[:stop]` -/
def sliceTo {Item : Type} (stop : Int) (items : List Item) : List Item :=
  items.take (if stop < 0 then items.length + stop else stop).toNat

def maxSearchMatches : Int := 200

def boundedResults (maxResults : Int) : Int :=
  min (if maxResults ≤ 0 then policy.maxSearchMatches else maxResults) maxSearchMatches

def recordOverhead : Int := 64

def contextCost (context : List (Int × String)) : Int :=
  context.foldr (fun item cost => item.2.length + 8 + cost) 0

def matchCost (found : Match) : Int :=
  found.text.length + recordOverhead + contextCost found.before + contextCost found.after

/-- The matches that fit, behind some that were kept, and whether one was dropped. -/
def boundFrom (budget used : Int) (kept : Bool) : List Match → List Match × Bool
  | [] => ([], false)
  | found :: rest =>
    if kept && decide (budget < used + matchCost found) then ([], true)
    else
      let next := boundFrom budget (used + matchCost found) true rest
      (found :: next.1, next.2)

def boundMatches (matched : List Match) (budget : Int) : List Match × Bool :=
  if budget ≤ 0 then (matched, false) else boundFrom budget 0 false matched

def uniqueMatches (matched : List Match) : List Match :=
  (matched.foldl (fun unique found => unique.setDefault (found.path, found.line) found)
    (OrderedDict.empty : OrderedDict (String × Int) Match)).values

/-- `term in text` -/
def includes (text term : String) : Bool :=
  text.toList.tails.any fun rest => term.toList.isPrefixOf rest

def coverage (terms : List String) (matched : List Match) (path : String) : Nat :=
  (terms.filter fun term => matched.any fun found =>
    decide (found.path = path) && includes (workspace.lower found.text) term).length

def matchCount (matched : List Match) (path : String) : Nat :=
  (matched.filter fun found => decide (found.path = path)).length

/-- The order of `sort_key`. -/
def Ranks (terms : List String) (matched : List Match) (one other : Match) : Prop :=
  coverage workspace terms matched other.path < coverage workspace terms matched one.path ∨
  coverage workspace terms matched other.path = coverage workspace terms matched one.path ∧
    (matchCount matched other.path < matchCount matched one.path ∨
    matchCount matched other.path = matchCount matched one.path ∧
      (one.path < other.path ∨ one.path = other.path ∧ one.line ≤ other.line))

instance (terms : List String) (matched : List Match) :
    DecidableRel (Ranks workspace terms matched) := fun one other => by
  unfold Ranks
  infer_instance

def rankMatches (matched : List Match) (terms : List String) : List Match :=
  if matched.isEmpty || terms.isEmpty then matched
  else matched.insertionSort (Ranks workspace terms matched)

def chosenIndices (count : Nat) (order : List (Option Int)) : List Nat :=
  ((order.filterMap id).filterMap fun (index : Int) =>
    if 0 ≤ index ∧ index < count then some index.toNat else none).eraseDups

def applyRerank (matched : List Match) (rerank : Option Rerank) : List Match :=
  match rerank with
  | none => matched
  | some rerank =>
    if matched.length < 2 then matched
    else
      match rerank matched with
      | none => matched
      | some order =>
        let seen := chosenIndices matched.length order
        seen.filterMap (matched[·]?) ++
          (matched.zipIdx.filter fun entry => !seen.any (decide <| · = entry.2)).map Prod.fst

def visiblePaths (glob : String) (paths : List String) : List String :=
  ((paths.filter (workspace.allowed glob)).map workspace.citationPath).eraseDups

def visibleCounts (glob : String) (counts : List (String × Int)) : List (String × Int) :=
  ((counts.filter fun item => workspace.allowed glob item.1).foldl
    (fun (visible : OrderedDict String Int) item =>
      visible.set (workspace.citationPath item.1)
        ((visible.get? (workspace.citationPath item.1)).getD 0 + item.2)) .empty).entries

def CountRanks (one other : String × Int) : Prop :=
  other.2 < one.2 ∨ other.2 = one.2 ∧ (one.1 < other.1 ∨ one.1 = other.1)

instance : DecidableRel CountRanks := fun one other => by
  unfold CountRanks
  infer_instance

def perDir {Item : Type} (request : Request) (search : Dir → List Item) : List Item :=
  if request.patterns.isEmpty then [] else workspace.dirs.flatMap search

def matchingFiles (call : Call) : List String :=
  visiblePaths workspace call.glob
    (perDir workspace (requestOf call) fun dir => workspace.filesWithMatches dir (requestOf call))

def searchFiles (call : Call) : Result where
  mode := "files"
  files := sliceTo (boundedResults policy call.maxResults) (matchingFiles workspace call)

def rankedCounts (call : Call) : List (String × Int) :=
  (visibleCounts workspace call.glob (perDir workspace (requestOf call) fun dir =>
    workspace.counts dir (requestOf call))).insertionSort CountRanks

def searchCounts (call : Call) : Result where
  mode := "count"
  counts := sliceTo (boundedResults policy call.maxResults) (rankedCounts workspace call)

def visibleMatches (call : Call) : List Match :=
  uniqueMatches (((perDir workspace (requestOf call) fun dir =>
      workspace.lineMatches dir (requestOf call) call.contextLines).filter fun found =>
        workspace.allowed call.glob found.path).map fun found =>
          { found with path := workspace.citationPath found.path })

def rankedMatches (call : Call) : List Match :=
  rankMatches workspace (visibleMatches workspace call)
    (if call.regex then [] else queryTerms workspace call.query)

def orderedMatches (call : Call) (rerank : Option Rerank) : List Match :=
  applyRerank (rankedMatches workspace call) rerank

def truncatedNote : String :=
  "Only the highest-ranked matches are shown to keep the result small. Refine the query " ++
    "(batch more specific keywords with '|', add a glob, or narrow the terms) instead of " ++
    "re-running a broad one."

def navigationNote : String :=
  "No matching text. The small file sample is navigation only, not evidence for an answer. " ++
    "Use find_files for more paths or read a relevant file. Queries match literal phrases; " ++
    "use '|' for alternatives."

def navigationGlob (glob : String) : String :=
  if glob = "" then "**/*"
  else if glob.toList.any (decide <| · = '/') || glob.toList.head?.any (decide <| · = '!') then glob
  else "**/" ++ glob

/-- The paths up to 2000 characters, behind some that were taken. -/
def navigation (used : Nat) : List String → List String
  | [] => []
  | path :: rest =>
    if 2000 < used + path.length then [] else path :: navigation (used + path.length) rest

def globFiles (pattern : String) (maxResults : Int) : List String :=
  sliceTo (boundedResults policy maxResults) (workspace.newest pattern)

def searchContent (call : Call) (rerank : Option Rerank) : Result :=
  let limit := boundedResults policy call.maxResults
  let matched := orderedMatches workspace call rerank
  if matched.isEmpty then
    { mode := "content"
      files := navigation 0 (globFiles workspace policy (navigationGlob call.glob) (min 8 limit))
      note := some navigationNote }
  else
    let bounded := boundMatches (sliceTo limit matched) policy.searchPayloadChars
    { mode := "content"
      matched := bounded.1
      truncated := bounded.2
      note := if bounded.2 then some truncatedNote else none }

def search (call : Call) (rerank : Option Rerank) : Result :=
  if call.outputMode = "files" then searchFiles workspace policy call
  else if call.outputMode = "count" then searchCounts workspace policy call
  else searchContent workspace policy call rerank

end SourceLens.WorkspaceSearch
