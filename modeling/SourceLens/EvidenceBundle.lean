import SourceLens.FileLines
import SourceLens.Library.Json
import SourceLens.Library.PosixPath

/-! Evidence bundles (`build_evidence_bundle` of `planned_evidence.py`): raw items are ranked and
cut to a budget of tokens, and citations of a model are checked against what is left
(`validate_citations`). -/

namespace SourceLens.EvidenceBundle

open PosixPath (Path)
open PyText (isSpace strip)
open TextLines (splitlines)

/-- No code reads `whole`, the text of the window that a source item was read from. -/
structure EvidenceItem where
  evidenceType : String
  content : List Char
  path : String
  symbol : String
  startLine : Option Int
  endLine : Option Int
  provenance : String
  score : Int
  whole : List Char
  deriving DecidableEq

/-- The fields of a raw item, with the empty text for one that is missing. -/
structure RawFields where
  evidenceType : String
  content : List Char
  path : String
  symbol : String
  startLine : Option Int
  endLine : Option Int
  provenance : String
  whole : List Char
  deriving DecidableEq

inductive RawItem
  | item (item : EvidenceItem)
  | fields (fields : RawFields)
  deriving DecidableEq

def scoreOf (evidenceType : String) : Int :=
  match evidenceType with
  | "source" => 4
  | "structural" => 3
  | "runtime" => 2
  | "literal" => 2
  | _ => 1

def evidenceItem : RawItem → EvidenceItem
  | .item item => item
  | .fields fields =>
    let evidenceType := if fields.evidenceType = "" then "unknown" else fields.evidenceType
    { evidenceType := evidenceType
      content := fields.content
      path := fields.path
      symbol := fields.symbol
      startLine := fields.startLine
      endLine := fields.endLine
      provenance := fields.provenance
      score := scoreOf evidenceType
      whole := fields.whole }

structure Key where
  evidenceType : String
  path : String
  symbol : String
  startLine : Option Int
  endLine : Option Int
  content : List Char
  deriving DecidableEq

def keyOf (item : EvidenceItem) : Key :=
  ⟨item.evidenceType, item.path, item.symbol, item.startLine, item.endLine, item.content⟩

def uniqueItems (seen : List Key) : List EvidenceItem → List EvidenceItem
  | [] => []
  | item :: rest =>
    if seen.any (decide <| · = keyOf item) then uniqueItems seen rest
    else item :: uniqueItems (keyOf item :: seen) rest

def Ranks (one other : EvidenceItem) : Prop :=
  other.score < one.score ∨ other.score = one.score ∧
    (one.path < other.path ∨ one.path = other.path ∧ one.startLine.getD 0 ≤ other.startLine.getD 0)

instance : DecidableRel Ranks := fun one other => by
  unfold Ranks
  infer_instance

def estimateTokens (text : List Char) : Nat := max 1 ((text.length + 3) / 4)

/-- What fits into the tokens that are left when so many are used. -/
def selectItems (maxTokens used : Int) : List EvidenceItem → List EvidenceItem
  | [] => []
  | item :: rest =>
    let remaining := maxTokens - used
    if remaining ≤ 0 then []
    else
      let content := item.content.take (remaining * 4).toNat
      if content.isEmpty then selectItems maxTokens used rest
      else { item with content } :: selectItems maxTokens (used + estimateTokens content) rest

structure Metrics where
  evidenceItemCount : Nat
  deduplicatedItemCount : Nat
  evidenceTokens : Nat
  evidenceFiles : Nat
  deriving DecidableEq

structure Bundle where
  items : List EvidenceItem
  metrics : Metrics
  deriving DecidableEq

def ranked (raw : List RawItem) : List EvidenceItem :=
  (uniqueItems [] (raw.map evidenceItem)).insertionSort Ranks

def buildEvidenceBundle (raw : List RawItem) (maxTokens : Int) : Bundle where
  items := selectItems maxTokens 0 (ranked raw)
  metrics :=
    let selected := selectItems maxTokens 0 (ranked raw)
    { evidenceItemCount := selected.length
      deduplicatedItemCount := raw.length - (ranked raw).length
      evidenceTokens := selected.foldr (fun item total => estimateTokens item.content + total) 0
      evidenceFiles :=
        ((selected.map EvidenceItem.path).filter fun path => decide (path ≠ "")).eraseDups.length }

/-- The workspace, the digest of the evidence identifiers, and `str`. -/
structure Env where
  root : Path
  /-- `path.resolve()` of an absolute path; `none` when it raises. -/
  resolve : Path → Option Path
  isFile : Path → Bool
  digest : List Char → String
  str : Json → String

/-- The parts of the citation context, empty where they are missing. -/
structure Context where
  project : String
  repository : String
  revision : String

structure Citation where
  id : String
  evidenceId : String
  project : String
  repository : String
  revision : String
  path : List Char
  symbol : String
  startLine : Int
  endLine : Int
  supports : String
  source : List Char
  deriving DecidableEq

/-- `str(line or "")` -/
def lineNumberText (line : Option Int) : List Char :=
  match line with
  | none => []
  | some number => if number = 0 then [] else (toString number).toList

def evidenceId (env : Env) (item : EvidenceItem) : String :=
  "evidence-" ++ env.digest (['\x00'].intercalate
    [item.evidenceType.toList, item.path.toList, item.symbol.toList, lineNumberText item.startLine,
      lineNumberText item.endLine, item.content])

/-- `evidence_by_id`: of the items with one identifier the last one. -/
def sourceItem (env : Env) (bundle : Bundle) (id : String) : Option EvidenceItem :=
  (bundle.items.filter fun item => decide (item.evidenceType = "source")).reverse.find? fun item =>
    decide (evidenceId env item = id)

/-- `str(citation.get(key) or "").strip()` -/
def textField (env : Env) (citation : Json) (key : String) : String :=
  match citation with
  | .obj fields =>
    let value := Json.getOrNull fields key
    if value.truthy then String.ofList (strip isSpace (env.str value).toList) else ""
  | _ => ""

def relativePath (env : Env) (item : EvidenceItem) : Option Path :=
  (env.resolve (PosixPath.join env.root item.path.toList)).bind fun path =>
    if env.root <+: path then if env.isFile path then some (path.drop env.root.length) else none
    else none

def orWorkspace (text : String) : String := if text = "" then "workspace" else text

/-- The citation that the checks make of an item, if it passes them. -/
def citationOf (env : Env) (context : Context) (id supports : String) (item : EvidenceItem) :
    Option Citation :=
  match relativePath env item, item.startLine, item.endLine with
  | some path, some start, some stop =>
    if start < 1 ∨ stop < start ∨ ((splitlines item.content).length : Int) < stop - start + 1 then none
    else some {
      id := id
      evidenceId := id
      project := orWorkspace context.project
      repository := orWorkspace context.repository
      revision := orWorkspace context.revision
      path := PosixPath.asPosix path
      symbol := item.symbol
      startLine := start
      endLine := stop
      supports := supports
      source := item.content }
  | _, _, _ => none

def validateCitation (env : Env) (context : Context) (bundle : Bundle) (citation : Json) :
    Option Citation :=
  let id := textField env citation "evidence_id"
  let supports := textField env citation "supports"
  (sourceItem env bundle id).bind fun item =>
    if supports = "" then none else citationOf env context id supports item

def missingId : String := "<missing-evidence-id>"

/-- `validate_citations`: the citations that pass, and the identifiers of those that do not. -/
def validateCitations (env : Env) (context : Context) (citations : List Json) (bundle : Bundle) :
    List Citation × List String :=
  (citations.filterMap (validateCitation env context bundle),
    (citations.filter fun citation => (validateCitation env context bundle citation).isNone).map
      fun citation =>
        let id := textField env citation "evidence_id"
        if id = "" then missingId else id)

end SourceLens.EvidenceBundle
