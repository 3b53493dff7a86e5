import SourceLens.FileLines
import SourceLens.Library.Json
import Mathlib

/-! The search of one directory (`_rg_line_matches` of `workspace.py`), through ripgrep's report or,
where ripgrep cannot be started, file by file; and the gate that a match has to pass. -/

namespace SourceLens.DirectorySearch

open FileLines (File pythonMatches truncate)
open Json (getOrNull)
open PyText (stripRight)
open TextLines (splitlines)
open WorkspaceSearch (Call Match Request Rerank Result Workspace)

/-! ### Conversions

Paths are written as `pathlib` writes them. -/

def sidecarTail : List Char := ".sourcelens/content.md".toList

def contentPath (path : String) : String := String.ofList (path.toList ++ sidecarTail)

def beforeTail (path : String) : List Char :=
  path.toList.take (path.toList.length - sidecarTail.length)

/-- `converted_source_path`; a source without a name is none. -/
def convertedSourcePath (isFile : String → Bool) (path : String) : Option String :=
  let source := beforeTail path
  if isFile path && sidecarTail.isSuffixOf path.toList &&
      !source.getLast?.all (decide <| · = '/') && isFile (String.ofList source) then
    some (String.ofList source)
  else none

def citationPath (isFile : String → Bool) (path : String) : String :=
  (convertedSourcePath isFile path).getD path

def retrievalPath (isFile : String → Bool) (path : String) : String :=
  if isFile path && decide (convertedSourcePath isFile (contentPath path) = some path) then
    contentPath path
  else path

/-- What `json.loads` makes of a text. -/
inductive Loaded
  | value (value : Json)
  | valueError
  | raises

structure Entry where
  path : String
  line : Int
  text : List Char
  isMatch : Bool
  deriving DecidableEq

/-- `fields.get(key) or {}`; nothing has a `get` but an object. -/
def objectAt (fields : List (String × Json)) (key : String) : Option (List (String × Json)) :=
  if (getOrNull fields key).truthy then
    match getOrNull fields key with
    | .obj inner => some inner
    | _ => none
  else some []

/-- The line that the data of an event is about; `none` when they are not of ripgrep's types. -/
def lineOf (isMatch : Bool) (fields : List (String × Json)) : Option (Option Entry) := do
  let data ← objectAt fields "data"
  let path ← objectAt data "path"
  let lines ← objectAt data "lines"
  match getOrNull path "text", getOrNull data "line_number", (Json.get? lines "text").getD (.str "") with
  | .null, _, _ => some none
  | _, .null, _ => some none
  | .str path, .int line, .str text =>
    some (some ⟨path, line, stripRight (decide <| · = '\n') text.toList, isMatch⟩)
  | _, _, _ => none

/-- What is read of an event; `none` when reading it raises. -/
def entryOf : Json → Option (Option Entry)
  | .obj fields =>
    match getOrNull fields "type" with
    | .str kind =>
      if kind = "match" then lineOf true fields
      else if kind = "context" then lineOf false fields
      else some none
    | .arr _ => none
    | .obj _ => none
    | _ => some none
  | _ => none

def readEntries (loads : List Char → Loaded) : List (List Char) → Option (List Entry)
  | [] => some []
  | raw :: rest =>
    match loads raw with
    | .raises => none
    | .valueError => readEntries loads rest
    | .value event => do
        let entry ← entryOf event
        let entries ← readEntries loads rest
        some (entry.toList ++ entries)

/-- `line_map.get(number)` -/
def textAt (entries : List Entry) (number : Int) : Option (List Char) :=
  (entries.filter fun entry => decide (entry.line = number)).getLast?.map Entry.text

def contextLines (maxLineChars : Int) (entries : List Entry) (start stop : Int) : List (Int × String) :=
  (List.range (stop - start).toNat).filterMap fun turn =>
    (textAt entries (start + turn)).map fun text =>
      (start + turn, String.ofList (truncate text maxLineChars))

def entryMatch (context maxLineChars : Int) (entries : List Entry) (entry : Entry) : Match where
  path := entry.path
  line := entry.line
  text := String.ofList (truncate entry.text maxLineChars)
  before := contextLines maxLineChars entries (entry.line - context) entry.line
  after := contextLines maxLineChars entries (entry.line + 1) (entry.line + 1 + context)

def entryMatches (context maxLineChars : Int) (entries : List Entry) : List Match :=
  (entries.map Entry.path).eraseDups.flatMap fun path =>
    let items := entries.filter fun entry => decide (entry.path = path)
    (items.filter Entry.isMatch).map (entryMatch context maxLineChars items)

/-- `_parse_rg_json`; `none` when it raises. -/
def parseRgJson (loads : List Char → Loaded) (stdout : List Char) (context maxLineChars : Int) :
    Option (List Match) :=
  (readEntries loads (splitlines stdout)).map (entryMatches context maxLineChars)

structure Options where
  maxMatchesPerFile : Option Int
  maxLineChars : Option Int

inductive Outcome
  | osError
  | ended (code : Int) (stdout : List Char)

structure World (Dir : Type) where
  dirs : List Dir
  scope : Dir → Options
  policy : Options
  contents : String → File
  isFile : String → Bool
  isBinary : String → Bool
  isPathAllowed : Dir → String → Bool
  /-- `_source_matches_scope` of a directory and a glob. -/
  sourceMatchesScope : Dir → String → String → Bool
  /-- The files that `os.walk` comes to, under each include pattern in turn, that match it. -/
  walked : Dir → List String
  /-- ripgrep, run with so many lines of context. -/
  ripgrep : Dir → Request → Int → Outcome
  loads : List Char → Loaded
  lower : String → String
  /-- What the other modes find, and `glob_files`. -/
  filesWithMatches : Dir → Request → List String
  counts : Dir → Request → List (String × Int)
  newest : String → List String

variable {Dir : Type} (world : World Dir)

def maxMatchesPerFile (dir : Dir) : Int :=
  ((world.scope dir).maxMatchesPerFile <|> world.policy.maxMatchesPerFile).getD 15

def maxLineChars (dir : Dir) : Int :=
  ((world.scope dir).maxLineChars <|> world.policy.maxLineChars).getD 2000

def fileListLimit : Nat := 100

def pathParts (path : String) : List (List Char) := path.toList.splitOnP (decide <| · = '/')

/-- `_iter_scope_files` -/
def scopeFiles (dir : Dir) : List String :=
  ((((world.walked dir).filter (world.isPathAllowed dir)).take fileListLimit).eraseDups.insertionSort
    fun one other => pathParts one ≤ pathParts other).take fileListLimit

def fallbackFiles (dir : Dir) (glob : String) : List String :=
  (((((scopeFiles world dir).map (citationPath world.isFile)).filter
    (world.sourceMatchesScope dir glob)).map (retrievalPath world.isFile)).filter
      (world.isPathAllowed dir)).eraseDups

def filePolicy (dir : Dir) : FileLines.Policy where
  maxLineChars := maxLineChars world dir
  maxReadLines := 250
  maxMatchesPerFile := maxMatchesPerFile world dir

/-- `_python_line_matches` -/
def pythonLineMatches (dir : Dir) (request : Request) (context : Int) : List Match :=
  (fallbackFiles world dir request.glob).flatMap fun path =>
    if world.isBinary path then []
    else pythonMatches world.lower ⟨request.patterns, request.caseSensitive⟩ context
      (filePolicy world dir) path (world.contents path)

/-- `_run_rg` -/
def runRg : Outcome → Option (List Char)
  | .osError => none
  | .ended code stdout => if code = 0 ∨ code = 1 then some stdout else some []

/-- `_rg_line_matches` of a request with a pattern; `none` when it raises. -/
def rgLineMatches (dir : Dir) (request : Request) (context : Int) : Option (List Match) :=
  match runRg (world.ripgrep dir request context) with
  | none => if request.fixed then some (pythonLineMatches world dir request context) else some []
  | some stdout => parseRgJson world.loads stdout context (maxLineChars world dir)

/-- `_path_allowed_in_dirs` -/
def pathAllowedInDirs (path : String) : Bool :=
  world.dirs.any fun dir => world.isPathAllowed dir path &&
    (convertedSourcePath world.isFile path).all (world.isPathAllowed dir)

/-- `_path_gate` -/
def allowed (glob path : String) : Bool :=
  pathAllowedInDirs world path && decide (retrievalPath world.isFile path = path) &&
    world.dirs.any fun dir => world.sourceMatchesScope dir glob (citationPath world.isFile path)

def workspace : Workspace Dir where
  dirs := world.dirs
  lineMatches dir request context := (rgLineMatches world dir request context).getD []
  filesWithMatches := world.filesWithMatches
  counts := world.counts
  allowed := allowed world
  citationPath := citationPath world.isFile
  newest := world.newest
  lower := world.lower

def raises (request : Request) (context : Int) : Bool :=
  !request.patterns.isEmpty &&
    world.dirs.any fun dir => (rgLineMatches world dir request context).isNone

/-- `search_workspace` in content mode; `none` when it raises. -/
def searchContent (policy : WorkspaceSearch.Policy) (call : Call) (rerank : Option Rerank) :
    Option Result :=
  if raises world (WorkspaceSearch.requestOf call) call.contextLines then none
  else some (WorkspaceSearch.searchContent (workspace world) policy call rerank)

end SourceLens.DirectorySearch
