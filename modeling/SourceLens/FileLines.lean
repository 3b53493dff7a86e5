import SourceLens.Library.LineEnds
import SourceLens.Library.TextLines
import SourceLens.WorkspaceSearch

/-! The lines of a text file as a search numbers them (ripgrep, or `_python_line_matches` of
`workspace.py`), as `read_workspace_window` does, and as `_unnumbered_source` of `agent_tools.py`
takes the numbers off again. -/

namespace SourceLens.FileLines

open LineEnds
open PyText (isLineBreak stripRight)
open TextLines (universalNewlines splitlines joinLines Unbroken)
open WorkspaceSearch (Match sliceTo)

inductive Decoded
  | char (c : Char)
  | malformed
  deriving DecidableEq

/-- A file in which `_is_binary` finds no null byte. -/
abbrev File := List Decoded

/-- The text that `errors="strict"` gives, if it gives one. -/
def strictText : File → Option (List Char)
  | [] => some []
  | .char c :: rest => (strictText rest).map (c :: ·)
  | .malformed :: _ => none

def ignoredText : File → List Char
  | [] => []
  | .char c :: rest => c :: ignoredText rest
  | .malformed :: rest => ignoredText rest

def replacedText : File → List Char
  | [] => []
  | .char c :: rest => c :: replacedText rest
  | .malformed :: rest => '\uFFFD' :: replacedText rest

/-- `_read_text` -/
def readText (file : File) : List Char :=
  universalNewlines ((strictText file).getD (ignoredText file))

structure Policy where
  maxLineChars : Int
  maxReadLines : Int
  maxMatchesPerFile : Int

def truncate (text : List Char) (maxChars : Int) : List Char :=
  if (text.length : Int) ≤ maxChars then text else sliceTo maxChars text ++ "…[truncated]".toList

/-- The lines found, with their numbers, until there are as many as may be. -/
def scan {Line : Type} (found : Line → Bool) (cap : Int) : Nat → Nat → List Line → List (Nat × Line)
  | _, _, [] => []
  | count, index, line :: lines =>
    if cap ≤ count then []
    else if found line then (index + 1, line) :: scan found cap (count + 1) (index + 1) lines
    else scan found cap count (index + 1) lines

def rgEnds : Ends Decoded := fun item _ => decide (item = .char '\n')

def rgMatches (found : File → Bool) (policy : Policy) (file : File) : List Nat :=
  (scan found (max 1 policy.maxMatchesPerFile) 0 0 (linesBy rgEnds file)).map Prod.fst

/-- The lines from one index up to another one, with their numbers. -/
def numberedLines (policy : Policy) (lines : List (List Char)) (start stop : Int) : List (Int × String) :=
  (List.range (stop - start).toNat).filterMap fun turn =>
    lines[start.toNat + turn]?.map fun line =>
      (start + turn + 1, String.ofList (truncate line policy.maxLineChars))

structure Terms where
  terms : List String
  caseSensitive : Bool

/-- `term in text` -/
def contains (text term : List Char) : Bool := text.tails.any fun rest => term.isPrefixOf rest

/-- Whether the fallback finds the line, under `str.lower`. -/
def foundIn (lower : String → String) (query : Terms) (line : List Char) : Bool :=
  let patterns := if query.caseSensitive then query.terms else query.terms.map lower
  let value := if query.caseSensitive then line else (lower (String.ofList line)).toList
  patterns.any fun term => contains value term.toList

/-- What `_python_line_matches` finds in one file. -/
def pythonMatches (lower : String → String) (query : Terms) (contextLines : Int) (policy : Policy)
    (path : String) (file : File) : List Match :=
  let lines := splitlines (readText file)
  (scan (foundIn lower query) policy.maxMatchesPerFile 0 0 lines).map fun hit =>
    let index : Int := hit.1 - 1
    { path := path
      line := hit.1
      text := String.ofList (truncate hit.2 policy.maxLineChars)
      before := numberedLines policy lines (max 0 (index - contextLines)) index
      after := numberedLines policy lines (index + 1) (min lines.length (index + 1 + contextLines)) }

def maxReadLimit : Int := 1000

def boundedLimit (limit : Option Int) (policy : Policy) : Int :=
  let value := limit.getD policy.maxReadLines
  min (if value ≤ 0 then policy.maxReadLines else value) maxReadLimit

/-- A file handle in universal newline mode ends a line at a newline and at a carriage return. -/
def handleEnds : Ends Decoded := fun item rest =>
  decide (item = .char '\n') ||
    decide (item = .char '\r') && !decide (rest.head? = some (.char '\n'))

structure Raw where
  number : Nat
  passed : File
  line : File
  deriving DecidableEq

/-- `islice(handle, offset - 1, offset - 1 + limit)` -/
def window (file : File) : Nat → Nat → List Raw
  | _, 0 => []
  | offset, limit + 1 =>
    match lineAt handleEnds file (offset - 1) with
    | some (passed, line) => ⟨offset, passed, line⟩ :: window file (offset + 1) limit
    | none => []

def lineText (policy : Policy) (line : File) : List Char :=
  truncate (stripRight (fun c => decide (c = '\n')) (universalNewlines (replacedText line)))
    policy.maxLineChars

structure Window where
  path : String
  startLine : Nat
  endLine : Nat
  returnedLines : Nat
  hasMore : Bool
  content : List Char
  deriving DecidableEq

def numberPrefix (number : Nat) : List Char := (toString number).toList ++ ['\t']

/-- `none` when `islice` refuses a negative stop. -/
def readWorkspaceWindow (path : String) (file : File) (offset : Int) (limit : Option Int)
    (policy : Policy) : Option Window :=
  let limit := boundedLimit limit policy
  let offset := (max 1 offset).toNat
  if offset - 1 + limit < 0 then none
  else
    let lines := (window file offset limit.toNat).map fun raw => (raw.number, lineText policy raw.line)
    some {
      path := path
      startLine := if lines.isEmpty then 0 else offset
      endLine := offset + lines.length - 1
      returnedLines := lines.length
      hasMore := (lineAt handleEnds file (offset - 1 + limit.toNat)).isSome
      content := joinLines (lines.map fun line => numberPrefix line.1 ++ line.2) }

def unnumberedLine (number : Nat) (line : List Char) : List Char :=
  if (numberPrefix number).isPrefixOf line then line.drop (numberPrefix number).length else line

def unnumberedLines : Nat → List (List Char) → List (List Char)
  | _, [] => []
  | number, line :: lines => unnumberedLine number line :: unnumberedLines (number + 1) lines

/-- `_unnumbered_source` -/
def unnumberedSource (window : Window) : List Char :=
  if window.content.isEmpty then []
  else joinLines (unnumberedLines window.startLine (splitlines window.content))

end SourceLens.FileLines
