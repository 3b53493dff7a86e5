import SourceLens.Library.Json
import SourceLens.Library.PosixPath
import SourceLens.Library.TextLines

/-! The source citations of a run: sanitized when a result is stored, and once more
whenever the stored result is shown. -/

namespace SourceLens.Citations

open List
open PyText (isSpace strip)
open PosixPath (Path Named parts asPosix isAbsolute)
open TextLines (splitlines)

abbrev Text := List Char

def maxCitationSourceChars : Nat := 100000

def maxLineNumber : Int := 10000000

structure Env where
  /-- `str` of a value that is no text -/
  repr : Json → Text
  /-- `int` of a text; `none` for a `ValueError` -/
  intOf : String → Option Int

/-- What `int(value)` raises; an infinity is an `OverflowError`. -/
inductive Raised
  | typeOrValue
  | overflow
  deriving DecidableEq

@[ext] structure Citation where
  id : Text
  evidenceId : Text
  project : Text
  repository : Text
  revision : Text
  path : Text
  symbol : Text
  startLine : Int
  endLine : Int
  supports : Text
  source : Text
  deriving DecidableEq

def citationIdPattern (text : Text) : Bool :=
  text ≠ [] && text.length ≤ 128 &&
    text.all fun c => c.isAlphanum || c = '.' || c = '_' || c = ':' || c = '-'

def isHex (c : Char) : Bool := c.isDigit || ('a' ≤ c && c ≤ 'f')

/-- `ds_` with 32 hexadecimal digits, and perhaps `_` with 8 to 32 more. -/
def datasourceMountPattern (name : Text) : Bool :=
  let digits := (name.drop 3).take 32
  name.take 3 = "ds_".toList && digits.length = 32 && digits.all isHex &&
    match name.drop 35 with
    | [] => true
    | mark :: more => mark = '_' && 8 ≤ more.length && more.length ≤ 32 && more.all isHex

/-- The parts without a mount that something lies below. -/
def publicParts : Path → Path
  | mount :: first :: rest =>
    if datasourceMountPattern mount then first :: rest else mount :: first :: rest
  | path => path

def publicPath (path : Path) : Text := asPosix (publicParts path)

/-- The identifier or the path is no citation's. -/
def placeRefused (citationId path : Text) : Bool :=
  !citationIdPattern citationId || path = [] || isAbsolute path || ['.', '.'] ∈ parts path ||
    '\\' ∈ path

def sourceRefused (startLine endLine : Int) (source : Text) : Bool :=
  startLine < 1 || endLine < startLine || endLine > maxLineNumber || source = [] ||
    source.length > maxCitationSourceChars ||
      (splitlines source).length < endLine - startLine + 1

section Reading

variable (env : Env)

def str : Json → Text
  | .str text => text.toList
  | value => env.repr value

/-- `str(value or "")` -/
def textOr (value : Json) : Text := if value.truthy then str env value else []

def strippedText (value : Json) : Text := strip isSpace (textOr env value)

def boundedText (value : Json) (limit : Nat) : Text := (strippedText env value).take limit

def int : Json → Except Raised Int
  | .int value => .ok value
  | .bool value => .ok (if value then 1 else 0)
  | .float value => .ok (value.num.tdiv value.den)
  | .str text => (env.intOf text).elim (.error .typeOrValue) .ok
  | .nonFinite name => .error (if name = "NaN" then .typeOrValue else .overflow)
  | _ => .error .typeOrValue

variable (fields : List (String × Json))

def citationId : Text := strippedText env (Json.getOrNull fields "id")

def pathText : Text := strippedText env (Json.getOrNull fields "path")

/-- The two lines, or none where one of them is no number. -/
def lineSpan : Except Raised (Option (Int × Int)) :=
  match int env (Json.getOrNull fields "start_line") with
  | .error .typeOrValue => .ok none
  | .error .overflow => .error .overflow
  | .ok startLine =>
    match int env (Json.getOrNull fields "end_line") with
    | .error .typeOrValue => .ok none
    | .error .overflow => .error .overflow
    | .ok endLine => .ok (some (startLine, endLine))

def sourceText : Text := textOr env (Json.getOrNull fields "source")

/-- `value.get("evidence_id") or citation_id` -/
def evidenceValue : Json :=
  let value := Json.getOrNull fields "evidence_id"
  if value.truthy then value
  else .str (String.ofList (citationId env fields))

def citationOf (startLine endLine : Int) : Citation where
  id := citationId env fields
  evidenceId := boundedText env (evidenceValue env fields) 128
  project := boundedText env (Json.getOrNull fields "project") 160
  repository := boundedText env (Json.getOrNull fields "repository") 240
  revision := boundedText env (Json.getOrNull fields "revision") 160
  path := publicPath (parts (pathText env fields))
  symbol := boundedText env (Json.getOrNull fields "symbol") 500
  startLine := startLine
  endLine := endLine
  supports := boundedText env (Json.getOrNull fields "supports") 1000
  source := sourceText env fields

end Reading

/-- The checks of `_sanitize_citation`: the lines of an item that passes them all. -/
def checkedLines (env : Env) (fields : List (String × Json)) : Except Raised (Option (Int × Int)) :=
  if placeRefused (citationId env fields) (pathText env fields) then .ok none
  else
    match lineSpan env fields with
    | .ok (some (startLine, endLine)) =>
      if sourceRefused startLine endLine (sourceText env fields) ||
          boundedText env (Json.getOrNull fields "revision") 160 = [] ||
          boundedText env (Json.getOrNull fields "supports") 1000 = [] then .ok none
      else .ok (some (startLine, endLine))
    | other => other

def sanitizeCitation (env : Env) : Json → Except Raised (Option Citation)
  | .obj fields => (Option.map fun lines => citationOf env fields lines.1 lines.2) <$>
      checkedLines env fields
  | _ => .ok none

/-- The loop: the first citation of each path. -/
def keepCitations (env : Env) : List Json → List Text → Except Raised (List Citation)
  | [], _ => .ok []
  | item :: rest, seen =>
    match sanitizeCitation env item with
    | .error raised => .error raised
    | .ok none => keepCitations env rest seen
    | .ok (some citation) =>
      if citation.path ∈ seen then keepCitations env rest seen
      else (citation :: ·) <$> keepCitations env rest (citation.path :: seen)

def sanitizeRunCitations (env : Env) : Json → Except Raised (List Citation)
  | .arr items => keepCitations env items []
  | _ => .ok []

/-- The stored form of a citation. -/
def fieldsOf (citation : Citation) : List (String × Json) :=
  let text := fun value : Text => Json.str (String.ofList value)
  [("id", text citation.id), ("evidence_id", text citation.evidenceId),
    ("project", text citation.project), ("repository", text citation.repository),
    ("revision", text citation.revision), ("path", text citation.path),
    ("symbol", text citation.symbol), ("start_line", .int citation.startLine),
    ("end_line", .int citation.endLine), ("supports", text citation.supports),
    ("source", text citation.source)]

def stored (citations : List Citation) : Json := .arr (citations.map fun item => .obj (fieldsOf item))

def publicCitationFields : List String :=
  ["id", "project", "repository", "revision", "path", "symbol", "start_line", "end_line", "supports"]

def publicFields (citation : Citation) : Json :=
  .obj (publicCitationFields.map fun field => (field, Json.getOrNull (fieldsOf citation) field))

def publicRunCitations (env : Env) (value : Json) : Except Raised (List Json) :=
  (·.map publicFields) <$> sanitizeRunCitations env value

/-- Sanitizing what is stored changes nothing, and what is shown is what is stored. -/
def Repeatable (env : Env) (citations : List Citation) : Prop :=
  sanitizeRunCitations env (stored citations) = .ok citations ∧
    publicRunCitations env (stored citations) = .ok (citations.map publicFields)

/-- Nothing of a text is white space at its ends. -/
def Bare (text : Text) : Prop :=
  (∀ c ∈ text.head?, isSpace c = false) ∧ ∀ c ∈ text.getLast?, isSpace c = false

/-- A cut that does not end behind white space. -/
def CutClean (text : Text) (limit : Nat) : Prop := ∀ c ∈ (text.take limit).getLast?, isSpace c = false

def boundedFields : List (String × Nat) :=
  [("project", 160), ("repository", 240), ("revision", 160), ("symbol", 500), ("supports", 1000)]

/-- No text is cut behind white space, the evidence is not named by white space alone, and the
path below the mount is bare and no mount again. -/
structure Stable (env : Env) (fields : List (String × Json)) : Prop where
  texts : ∀ field ∈ boundedFields, CutClean (strippedText env (Json.getOrNull fields field.1)) field.2
  evidence : CutClean (strippedText env (evidenceValue env fields)) 128
  named : strippedText env (evidenceValue env fields) ≠ []
  bare : Bare (publicPath (parts (pathText env fields)))
  unmounted : publicParts (publicParts (parts (pathText env fields))) =
    publicParts (parts (pathText env fields))

/-- The items that pass every check and show a path that none before them shows. -/
def firstOfPath (env : Env) : List Json → List Text → List (List (String × Json))
  | .obj fields :: rest, seen =>
    let path := publicPath (parts (pathText env fields))
    match checkedLines env fields with
    | .ok (some _) =>
      if path ∈ seen then firstOfPath env rest seen
      else fields :: firstOfPath env rest (path :: seen)
    | _ => firstOfPath env rest seen
  | _ :: rest, seen => firstOfPath env rest seen
  | [], _ => []

def items : Json → List Json
  | .arr items => items
  | _ => []

section Texts

variable {env : Env} {text : Text}

theorem bare_iff : strip isSpace text = text ↔ Bare text := by
  constructor
  · intro same
    rw [← same]
    exact ⟨PyText.strip_opens, PyText.stripRight_closes⟩
  · intro bare
    exact PyText.strip_self bare.1 bare.2

theorem bare_strip (text : Text) : Bare (strip isSpace text) :=
  ⟨PyText.strip_opens, PyText.stripRight_closes⟩

theorem strip_strip (text : Text) : strip isSpace (strip isSpace text) = strip isSpace text :=
  bare_iff.mpr (bare_strip text)

theorem strip_of_le (long : text.length ≤ (strip isSpace text).length) : strip isSpace text = text :=
  (PyText.strip_within isSpace text).eq_of_length_le long

theorem cut_again_iff (bare : Bare text) (limit : Nat) :
    (strip isSpace (text.take limit)).take limit = text.take limit ↔ CutClean text limit := by
  constructor
  · intro same
    have long : (text.take limit).length ≤ (strip isSpace (text.take limit)).length := by
      conv_lhs => rw [← same]
      exact length_take_le' _ _
    exact (bare_iff.mp (strip_of_le long)).2
  · intro clean
    have opens : ∀ c ∈ (text.take limit).head?, isSpace c = false := by
      intro c first
      rw [List.head?_take] at first
      split at first
      · cases first
      · exact bare.1 c first
    rw [bare_iff.mpr ⟨opens, clean⟩, take_take, Nat.min_self]

theorem textOr_str (text : Text) : textOr env (.str (String.ofList text)) = text := by
  cases text with
  | nil => rfl
  | cons c rest =>
    have filled : (Json.str (String.ofList (c :: rest))).truthy = true := bne_iff_ne.mpr (by simp)
    rw [textOr, if_pos filled, str, String.toList_ofList]

theorem strippedText_str (text : Text) :
    strippedText env (.str (String.ofList text)) = strip isSpace text := by
  rw [strippedText, textOr_str]

end Texts

section Paths

variable {path : Path} {text : Text}

theorem intercalate_sublist {less more : Path} (sub : List.Sublist less more) :
    List.Sublist (['/'].intercalate less) (['/'].intercalate more) := by
  induction sub with
  | slnil => exact List.Sublist.refl _
  | @cons less more part sub ih =>
    cases more with
    | nil => exact ih.trans (nil_sublist _)
    | cons next more =>
      rw [intercalate_cons_cons]
      exact ih.trans (sublist_append_right _ _)
  | @cons_cons less more part sub ih =>
    cases less with
    | nil =>
      cases more with
      | nil => exact List.Sublist.refl _
      | cons next more =>
        rw [intercalate_singleton, intercalate_cons_cons, append_assoc]
        exact sublist_append_left _ _
    | cons first less =>
      cases more with
      | nil => cases sub
      | cons next more =>
        rw [intercalate_cons_cons, intercalate_cons_cons]
        exact ih.append_left _

theorem publicParts_sublist (path : Path) : List.Sublist (publicParts path) path := by
  unfold publicParts
  split
  · split
    · exact sublist_cons_self _ _
    · exact List.Sublist.refl _
  · exact List.Sublist.refl _

/-- What a path text shows is written with its own characters, in their order. -/
theorem publicPath_sublist (filled : publicParts (parts text) ≠ []) :
    List.Sublist (publicPath (parts text)) text := by
  have within := intercalate_sublist ((publicParts_sublist (parts text)).trans filter_sublist)
  rw [intercalate_splitOn] at within
  rwa [publicPath, asPosix, if_neg filled]

theorem publicPath_le (filled : text ≠ []) : (publicPath (parts text)).length ≤ text.length := by
  by_cases empty : publicParts (parts text) = []
  · rw [publicPath, empty]
    exact length_pos_iff.mpr filled
  · exact (publicPath_sublist empty).length_le

theorem parts_asPosix_self (named : ∀ part ∈ path, Named part) : parts (asPosix path) = path := by
  cases path with
  | nil => decide
  | cons part rest => exact PosixPath.parts_asPosix _ named (cons_ne_nil _ _)

theorem publicParts_named (text : Text) : ∀ part ∈ publicParts (parts text), Named part :=
  fun part member => PosixPath.parts_named text part ((publicParts_sublist _).subset member)

theorem placeRefused_iff (citationId path : Text) : placeRefused citationId path = false ↔
    citationIdPattern citationId = true ∧ path ≠ [] ∧ isAbsolute path = false ∧
      ['.', '.'] ∉ parts path ∧ '\\' ∉ path := by
  simp [placeRefused, and_assoc]

theorem place_again_iff {citationId : Text} (passed : placeRefused citationId text = false) :
    (placeRefused citationId (strip isSpace (publicPath (parts text))) = false ∧
        publicPath (parts (strip isSpace (publicPath (parts text)))) = publicPath (parts text)) ↔
      Bare (publicPath (parts text)) ∧
        publicParts (publicParts (parts text)) = publicParts (parts text) := by
  obtain ⟨named, filled, -, straight, plain⟩ := (placeRefused_iff _ _).mp passed
  have whole : parts (publicPath (parts text)) = publicParts (parts text) :=
    parts_asPosix_self (publicParts_named text)
  constructor
  · intro again
    rcases again with ⟨accepted, same⟩
    have long : (publicPath (parts text)).length ≤
        (strip isSpace (publicPath (parts text))).length := by
      conv_lhs => rw [← same]
      exact publicPath_le ((placeRefused_iff _ _).mp accepted).2.1
    have unchanged := strip_of_le long
    rw [unchanged, whole] at same
    have unmounted := congrArg parts same
    rw [whole, publicPath, parts_asPosix_self fun part member =>
      publicParts_named text part ((publicParts_sublist _).subset member)] at unmounted
    exact ⟨bare_iff.mp unchanged, unmounted⟩
  · intro stable
    rcases stable with ⟨bare, unmounted⟩
    rw [bare_iff.mpr bare, whole, placeRefused_iff, whole]
    refine ⟨⟨named, ?_, ?_, ?_, ?_⟩, congrArg asPosix unmounted⟩
    · exact PosixPath.asPosix_ne_nil _ (publicParts_named text)
    · exact PosixPath.asPosix_relative _ (publicParts_named text)
    · exact fun member => straight ((publicParts_sublist _).subset member)
    · intro member
      by_cases empty : publicParts (parts text) = []
      · rw [publicPath, empty] at member
        exact absurd member (by decide)
      · exact plain ((publicPath_sublist empty).subset member)

end Paths

section Citations

variable {env : Env} {fields : List (String × Json)} {startLine endLine : Int}

theorem checkedLines_iff : checkedLines env fields = .ok (some (startLine, endLine)) ↔
    placeRefused (citationId env fields) (pathText env fields) = false ∧
      lineSpan env fields = .ok (some (startLine, endLine)) ∧
      sourceRefused startLine endLine (sourceText env fields) = false ∧
      boundedText env (Json.getOrNull fields "revision") 160 ≠ [] ∧
      boundedText env (Json.getOrNull fields "supports") 1000 ≠ [] := by
  rw [checkedLines]
  split
  · rename_i refused
    simp [refused]
  · rename_i place
    cases span : lineSpan env fields with
    | error raised => simp
    | ok lines =>
      cases lines with
      | none => simp
      | some lines =>
        dsimp only
        split <;> grind

theorem sanitizeCitation_iff {citation : Citation} :
    sanitizeCitation env (.obj fields) = .ok (some citation) ↔ ∃ startLine endLine,
      checkedLines env fields = .ok (some (startLine, endLine)) ∧
        citationOf env fields startLine endLine = citation := by
  rw [sanitizeCitation]
  cases checkedLines env fields with
  | error raised => simp
  | ok lines =>
    cases lines with
    | none => simp
    | some lines => simp [Prod.ext_iff]

theorem citationOf_fieldsOf (citation : Citation) :
    citationOf env (fieldsOf citation) startLine endLine =
      { id := strip isSpace citation.id
        evidenceId := boundedText env (evidenceValue env (fieldsOf citation)) 128
        project := (strip isSpace citation.project).take 160
        repository := (strip isSpace citation.repository).take 240
        revision := (strip isSpace citation.revision).take 160
        path := publicPath (parts (strip isSpace citation.path))
        symbol := (strip isSpace citation.symbol).take 500
        startLine := startLine
        endLine := endLine
        supports := (strip isSpace citation.supports).take 1000
        source := citation.source } := by
  apply Citation.ext
  case source => exact textOr_str citation.source
  case evidenceId => rfl
  case startLine => rfl
  case endLine => rfl
  case path => exact congrArg (fun text => publicPath (parts text)) (strippedText_str citation.path)
  case id => exact strippedText_str citation.id
  all_goals exact congrArg (List.take _) (strippedText_str _)

theorem evidence_again_iff (filled : strip isSpace (citationId env fields) ≠ []) :
    boundedText env (evidenceValue env (fieldsOf (citationOf env fields startLine endLine))) 128 =
        (citationOf env fields startLine endLine).evidenceId ↔
      CutClean (strippedText env (evidenceValue env fields)) 128 ∧
        strippedText env (evidenceValue env fields) ≠ [] := by
  have value : Json.getOrNull (fieldsOf (citationOf env fields startLine endLine)) "evidence_id" =
      .str (String.ofList ((strippedText env (evidenceValue env fields)).take 128)) := rfl
  have other : citationId env (fieldsOf (citationOf env fields startLine endLine)) =
      strip isSpace (citationId env fields) := strippedText_str _
  have bare : Bare (strippedText env (evidenceValue env fields)) := bare_strip _
  change _ = (strippedText env (evidenceValue env fields)).take 128 ↔ _
  rw [boundedText, evidenceValue, value]
  generalize strippedText env (evidenceValue env fields) = evidence at bare ⊢
  cases evidence with
  | nil =>
    rw [take_nil, if_neg (by decide), other, strippedText_str, strip_strip]
    constructor
    · intro none
      rcases take_eq_nil_iff.mp none with no | no
      · cases no
      · exact absurd no filled
    · intro both
      exact absurd rfl both.2
  | cons c rest =>
    have truthy : (Json.str (String.ofList ((c :: rest).take 128))).truthy = true :=
      bne_iff_ne.mpr (by simp)
    rw [if_pos truthy, strippedText_str, cut_again_iff bare]
    exact ⟨fun clean => ⟨clean, cons_ne_nil c rest⟩, fun both => both.1⟩

theorem again_iff (passed : checkedLines env fields = .ok (some (startLine, endLine))) :
    sanitizeCitation env (.obj (fieldsOf (citationOf env fields startLine endLine))) =
        .ok (some (citationOf env fields startLine endLine)) ↔
      Stable env fields := by
  obtain ⟨place, span, shown, revision, supports⟩ := checkedLines_iff.mp passed
  have named := ((placeRefused_iff _ _).mp place).1
  have id : strip isSpace (citationId env fields) = citationId env fields := strip_strip _
  have filled : strip isSpace (citationId env fields) ≠ [] := by
    intro empty
    rw [← id, empty] at named
    exact absurd named (by decide)
  generalize made : citationOf env fields startLine endLine = citation
  have again := @citationOf_fieldsOf env startLine endLine citation
  have whole : sanitizeCitation env (.obj (fieldsOf citation)) = .ok (some citation) ↔
      placeRefused (citationId env fields) (strip isSpace citation.path) = false ∧
        citationOf env (fieldsOf citation) startLine endLine = citation := by
    have lines : lineSpan env (fieldsOf citation) = .ok (some (startLine, endLine)) := by
      rw [← made]
      rfl
    have path : pathText env (fieldsOf citation) = strip isSpace citation.path := strippedText_str _
    have named : citationId env (fieldsOf citation) = citationId env fields := by
      rw [← made]
      exact (strippedText_str _).trans id
    rw [sanitizeCitation_iff]
    constructor
    · intro passes
      obtain ⟨first, last, passes, same⟩ := passes
      obtain ⟨accepted, found, -⟩ := checkedLines_iff.mp passes
      rw [lines] at found
      cases found
      rw [path, named] at accepted
      exact ⟨accepted, same⟩
    · intro both
      rcases both with ⟨accepted, same⟩
      refine ⟨startLine, endLine, checkedLines_iff.mpr ⟨?_, lines, ?_, ?_, ?_⟩, same⟩
      · rw [path, named]
        exact accepted
      · rw [show sourceText env (fieldsOf citation) = citation.source from textOr_str _, ← made]
        exact shown
      · have revised := congrArg Citation.revision (same.trans made.symm)
        exact fun empty => revision (revised.symm.trans empty)
      · have supported := congrArg Citation.supports (same.trans made.symm)
        exact fun empty => supports (supported.symm.trans empty)
  rw [whole, again, Citation.ext_iff]
  subst made
  dsimp only
  constructor
  · intro second
    obtain ⟨accepted, -, evidence, project, repository, revised, path, symbol, -, -, supported, -⟩ :=
      second
    obtain ⟨cut, kept⟩ := (evidence_again_iff filled).mp evidence
    obtain ⟨bare, unmounted⟩ := (place_again_iff place).mp ⟨accepted, path⟩
    refine ⟨?_, cut, kept, bare, unmounted⟩
    simp only [boundedFields, forall_mem_cons, not_mem_nil, false_implies, implies_true,
      and_true]
    exact ⟨(cut_again_iff (bare_strip _) _).mp project,
      (cut_again_iff (bare_strip _) _).mp repository, (cut_again_iff (bare_strip _) _).mp revised,
      (cut_again_iff (bare_strip _) _).mp symbol, (cut_again_iff (bare_strip _) _).mp supported⟩
  · intro stable
    have texts := stable.texts
    simp only [boundedFields, forall_mem_cons] at texts
    obtain ⟨accepted, path⟩ := (place_again_iff place).mpr ⟨stable.bare, stable.unmounted⟩
    exact ⟨accepted, id, (evidence_again_iff filled).mpr ⟨stable.evidence, stable.named⟩,
      (cut_again_iff (bare_strip _) _).mpr texts.1, (cut_again_iff (bare_strip _) _).mpr texts.2.1,
      (cut_again_iff (bare_strip _) _).mpr texts.2.2.1, path,
      (cut_again_iff (bare_strip _) _).mpr texts.2.2.2.1, rfl, rfl,
      (cut_again_iff (bare_strip _) _).mpr texts.2.2.2.2.1, rfl⟩

end Citations

section Loop

variable {env : Env}

theorem keepCitations_le (items : List Json) (seen : List Text) (citations : List Citation)
    (kept : keepCitations env items seen = .ok citations) : citations.length ≤ items.length := by
  induction items generalizing seen citations with
  | nil =>
    cases kept
    exact Nat.le_refl 0
  | cons item rest ih =>
    rw [keepCitations] at kept
    split at kept
    · cases kept
    · exact Nat.le_succ_of_le (ih _ _ kept)
    · split at kept
      · exact Nat.le_succ_of_le (ih _ _ kept)
      · cases later : keepCitations env rest _ with
        | error raised =>
          rw [later] at kept
          cases kept
        | ok more =>
          rw [later] at kept
          cases kept
          exact Nat.succ_le_succ (ih _ _ later)

/-- One citation more in front: it is read again as it is, and so are the ones behind it. -/
theorem keepCitations_cons_iff (citation : Citation) (rest : List Citation) (seen : List Text)
    (fresh : citation.path ∉ seen) :
    keepCitations env ((citation :: rest).map fun item => .obj (fieldsOf item)) seen =
        .ok (citation :: rest) ↔
      sanitizeCitation env (.obj (fieldsOf citation)) = .ok (some citation) ∧
        keepCitations env (rest.map fun item => .obj (fieldsOf item)) (citation.path :: seen) =
          .ok rest := by
  have shorter : ∀ seen,
      keepCitations env (rest.map fun item => .obj (fieldsOf item)) seen ≠ .ok (citation :: rest) := by
    intro seen kept
    have le := keepCitations_le _ _ _ kept
    rw [length_map] at le
    exact absurd le (Nat.not_succ_le_self _)
  rw [map_cons, keepCitations]
  split
  · rename_i raised stops
    exact iff_of_false (fun same => nomatch same) fun both => nomatch stops.symm.trans both.1
  · rename_i refused
    exact iff_of_false (shorter seen) fun both => nomatch refused.symm.trans both.1
  · rename_i other out
    split
    · rename_i known
      refine iff_of_false (shorter seen) fun both => ?_
      cases out.symm.trans both.1
      exact fresh known
    · rw [out]
      constructor
      · intro kept
        cases later : keepCitations env _ (other.path :: seen) with
        | error raised =>
          rw [later] at kept
          cases kept
        | ok more =>
          rw [later] at kept
          cases kept
          exact ⟨rfl, later⟩
      · intro both
        cases both.1
        rw [both.2]
        rfl

theorem keep_again_iff (items : List Json) (seen : List Text) (citations : List Citation)
    (kept : keepCitations env items seen = .ok citations) :
    keepCitations env (citations.map fun item => .obj (fieldsOf item)) seen = .ok citations ↔
      ∀ fields ∈ firstOfPath env items seen, Stable env fields := by
  induction items generalizing seen citations with
  | nil =>
    cases kept
    exact iff_of_true rfl (forall_mem_nil _)
  | cons item rest ih =>
    rw [keepCitations] at kept
    cases item with
    | obj fields =>
      rw [firstOfPath]
      rw [sanitizeCitation] at kept
      cases passed : checkedLines env fields with
      | error raised =>
        rw [passed] at kept
        cases kept
      | ok lines =>
        rw [passed] at kept
        cases lines with
        | none => exact ih _ _ kept
        | some lines =>
          have again := again_iff passed
          change (if publicPath (parts (pathText env fields)) ∈ seen then _ else _) = _ at kept
          split at kept
          · rename_i known
            rw [if_pos known]
            exact ih _ _ kept
          · rename_i fresh
            rw [if_neg fresh, forall_mem_cons]
            cases later : keepCitations env rest _ with
            | error raised =>
              rw [later] at kept
              cases kept
            | ok more =>
              rw [later] at kept
              cases kept
              rw [keepCitations_cons_iff _ more seen fresh, again]
              exact and_congr_right fun _ => ih _ _ later
    | _ => exact ih _ _ kept

end Loop

/-- What was stored is what is shown just where every item that was kept is stable. -/
theorem repeatable_iff (env : Env) (value : Json) (citations : List Citation)
    (sanitized : sanitizeRunCitations env value = .ok citations) :
    Repeatable env citations ↔ ∀ fields ∈ firstOfPath env (items value) [], Stable env fields := by
  have kept : keepCitations env (items value) [] = .ok citations := by
    cases value <;> exact sanitized
  rw [← keep_again_iff _ _ _ kept, Repeatable]
  constructor
  · intro both
    exact both.1
  · intro again
    refine ⟨again, ?_⟩
    rw [publicRunCitations, show sanitizeRunCitations env (stored citations) = _ from again]
    rfl

/-- A citation of one line, as a node sends it. -/
def snapshot (path : String) : Json :=
  .obj [("id", .str "c1"), ("path", .str path), ("start_line", .int 1), ("end_line", .str "1"),
    ("source", .str "x = 1"), ("revision", .str "r1"), ("supports", .str "the default")]

def sampleEnv : Env := ⟨fun _ => [], PyText.intOfStr⟩

def citationAt (path : String) : Citation :=
  ⟨"c1".toList, "c1".toList, [], [], "r1".toList, path.toList, [], 1, 1, "the default".toList,
    "x = 1".toList⟩

theorem plain_path_stable : Repeatable sampleEnv [citationAt "src/a.py"] ∧
    ∀ fields ∈ firstOfPath sampleEnv (items (.arr [snapshot " src/a.py"])) [],
      Stable sampleEnv fields := by
  have again : Repeatable sampleEnv [citationAt "src/a.py"] := ⟨by decide +kernel, by decide +kernel⟩
  exact ⟨again, (repeatable_iff _ (.arr [snapshot " src/a.py"]) _ (by decide +kernel)).mp again⟩

/-- Below two mounts the path loses the second one when it is shown, and the citation that is
stored under the path left is gone. -/
theorem nested_mount_dropped :
    let mount := "ds_0123456789abcdef0123456789abcdef/"
    let citations := [citationAt (mount ++ "a.py"), citationAt "a.py"]
    sanitizeRunCitations sampleEnv (.arr [snapshot (mount ++ mount ++ "a.py"),
        snapshot "a.py"]) = .ok citations ∧
      sanitizeRunCitations sampleEnv (stored citations) = .ok [citationAt "a.py"] ∧
      ¬Repeatable sampleEnv citations := by
  intro mount citations
  exact ⟨by decide +kernel, by decide +kernel, fun both => absurd both.1 (by decide +kernel)⟩

end SourceLens.Citations
