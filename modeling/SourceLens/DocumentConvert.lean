import SourceLens.Library.Json
import SourceLens.Library.PosixPath
import SourceLens.Library.Transition

/-! Conversion of datasource files: the candidates of a sync, the exits of a candidate,
and the sidecar record that each of them leaves. -/

namespace SourceLens.DocumentConvert

abbrev LocalPath := List Char

def officeDocumentExtensions : List String := [".pdf", ".docx", ".pptx", ".xlsx"]

def plainTextExtensions : List String :=
  [".txt", ".md", ".csv", ".tsv", ".json", ".html", ".htm", ".xml"]

def documentExtensions : List String := officeDocumentExtensions ++ plainTextExtensions

def imageExtensions : List String := [".png", ".jpg", ".jpeg", ".gif", ".webp", ".bmp"]

def defaultMaxImages : Int := 100
def defaultMaxFileSizeMb : Int := 100
def defaultMaxPages : Int := 500
def maxAutomaticConversionAttempts : Nat := 3
def detailItemsLimit : Nat := 200

/-- `context["conversion"]`; a number that is absent is 0. The options that only the
converters read are `converterOptions` where the fingerprint has them. -/
structure Conversion where
  document : Bool := false
  image : Bool := false
  embeddedImage : Bool := false
  maxImages : Int := 0
  maxFileSizeMb : Int := 0
  maxPages : Int := 0
  visionModelRef : String := ""
  queue : String := ""
  workers : Int := 0
  converterOptions : List (String × Json) := []
  otherOptions : List (String × Json) := []
  deriving DecidableEq

def orDefault (value default : Int) : Int := if value = 0 then default else value

def conversionEnabled (conversion : Conversion) : Bool :=
  conversion.document || conversion.image || conversion.embeddedImage

/-- `path.suffix.lower()`. -/
def suffixOf (path : LocalPath) : String :=
  String.ofList ((PosixPath.suffix (PosixPath.lastName path)).map Char.toLower)

def isImagePath (path : LocalPath) : Bool := decide (suffixOf path ∈ imageExtensions)

def isConvertible (path : LocalPath) (conversion : Conversion) : Bool :=
  (conversion.document && decide (suffixOf path ∈ documentExtensions)) ||
    (conversion.image && isImagePath path)

inductive Converter
  | plainText
  | markItDown
  | gatewayImage
  deriving DecidableEq

/-- `CONVERTERS.converter_for`: the first converter with the suffix. -/
def converterFor (path : LocalPath) : Option Converter :=
  if suffixOf path ∈ plainTextExtensions then some .plainText
  else if suffixOf path ∈ officeDocumentExtensions then some .markItDown
  else if isImagePath path then some .gatewayImage
  else none

inductive Status
  | success
  | skipped
  | failed
  | notConverted
  deriving DecidableEq

/-- The entries of `meta.json` that are read again. -/
structure Meta where
  size : Nat
  mtime : String
  sourceSha256 : String
  status : Status
  error : String
  fingerprint : String
  attempts : Nat
  options : Conversion
  deriving DecidableEq

structure File (Content : Type) where
  content : Content
  mtime : String

/-- The files of the target by local path, and beside each its sidecar: what `read_json`
reads of `meta.json`, and whether `content.md` is a file. -/
structure Workspace (Content : Type) where
  files : LocalPath → Option (File Content)
  metas : LocalPath → Option Meta
  contents : LocalPath → Bool

def Workspace.empty (Content : Type) : Workspace Content :=
  ⟨fun _ => none, fun _ => none, fun _ => false⟩

/-- What is hashed for a fingerprint; numbers have their defaults. -/
structure FingerprintPayload where
  sourceSha256 : String
  options : Conversion
  tool : Option Converter

/-- The digest, the sizes and the hash of a fingerprint payload, which has no collisions. -/
structure Tools (Content : Type) where
  sourceSha256 : Content → String
  size : Content → Nat
  pageCount : Content → Nat
  hash : FingerprintPayload → String
  collisionFree : ∀ one other, hash one = hash other → one.sourceSha256 = other.sourceSha256

variable {Content : Type}

/-- `source_sha256(path)`, and the empty string where there is no file. -/
def digestAt (tools : Tools Content) (workspace : Workspace Content) (path : LocalPath) : String :=
  ((workspace.files path).map fun file => tools.sourceSha256 file.content).getD ""

def sizeAt (tools : Tools Content) (workspace : Workspace Content) (path : LocalPath) : Nat :=
  ((workspace.files path).map fun file => tools.size file.content).getD 0

def mtimeAt (workspace : Workspace Content) (path : LocalPath) : String :=
  ((workspace.files path).map (·.mtime)).getD "1970-01-01T00:00:00Z"

/-- `pdf_page_count`. -/
def pdfPageCount (tools : Tools Content) (workspace : Workspace Content) (path : LocalPath) : Nat :=
  if suffixOf path = ".pdf" then
    ((workspace.files path).map fun file => tools.pageCount file.content).getD 0
  else 0

def conversionFingerprint (tools : Tools Content) (conversion : Conversion) (path : LocalPath)
    (digest : String) : String :=
  tools.hash {
    sourceSha256 := digest
    options := { conversion with
      maxImages := orDefault conversion.maxImages defaultMaxImages
      maxFileSizeMb := orDefault conversion.maxFileSizeMb defaultMaxFileSizeMb
      maxPages := orDefault conversion.maxPages defaultMaxPages
      queue := ""
      workers := 0
      otherOptions := [] }
    tool := converterFor path }

/-- The argument `conversion` of `write_meta`. -/
structure Record where
  status : Status
  error : String := ""
  fingerprint : String := ""
  sourceSha256 : String := ""
  attempts : Nat := 0

def writeMeta (tools : Tools Content) (conversion : Conversion) (workspace : Workspace Content)
    (path : LocalPath) (record : Record) : Workspace Content :=
  { workspace with
    metas := Function.update workspace.metas path (some {
      size := sizeAt tools workspace path
      mtime := mtimeAt workspace path
      sourceSha256 := record.sourceSha256
      status := record.status
      error := record.error
      fingerprint := record.fingerprint
      attempts := record.attempts
      options := conversion }) }

def writeSkippedMeta (tools : Tools Content) (conversion : Conversion)
    (workspace : Workspace Content) (path : LocalPath) (reason : String) : Workspace Content :=
  writeMeta tools conversion workspace path { status := .skipped, error := reason }

def writeSuccessMeta (tools : Tools Content) (conversion : Conversion)
    (workspace : Workspace Content) (path : LocalPath) (digest fingerprint : String) :
    Workspace Content :=
  writeMeta tools conversion workspace path
    { status := .success, fingerprint := fingerprint, sourceSha256 := digest }

def writeFailedMeta (tools : Tools Content) (conversion : Conversion)
    (workspace : Workspace Content) (path : LocalPath) (error : String) : Workspace Content :=
  let digest := digestAt tools workspace path
  let attempts := match workspace.metas path with
    | some previous =>
      if previous.status = .failed ∧ previous.options = conversion ∧
          previous.sourceSha256 = digest then previous.attempts + 1 else 1
    | none => 1
  writeMeta tools conversion workspace path
    { status := .failed, error := error, sourceSha256 := digest, attempts := attempts }

def ensureSourceMetadata (tools : Tools Content) (conversion : Conversion)
    (workspace : Workspace Content) (path : LocalPath) : Workspace Content :=
  match workspace.files path with
  | none => workspace
  | some file =>
    let digest := tools.sourceSha256 file.content
    let recorded : Bool := match workspace.metas path with
      | some previous =>
        (previous.sourceSha256 != "" && previous.size == tools.size file.content &&
          previous.mtime == file.mtime) || previous.sourceSha256 == digest
      | none => false
    if recorded then workspace
    else writeMeta tools conversion workspace path { status := .notConverted, sourceSha256 := digest }

structure Item where
  localPath : LocalPath
  status : String := "synced"
  deriving DecidableEq

/-- The arguments of `post_process_documents`. `changedPaths` is `none` where the sync
result is not `changed_only`; `foreign` tells the paths below an excluded root or another
datasource's marker. -/
structure Sync where
  items : List Item
  changedPaths : Option (List LocalPath)
  conversion : Conversion
  force : Bool
  visionConfigured : Bool
  foreign : LocalPath → Bool

def optionsForRecheck (conversion : Conversion) : Conversion :=
  { conversion with queue := "", workers := 0 }

def conversionNeedsRecheck (sync : Sync) : Option Meta → Bool
  | none => true
  | some previous =>
    if sync.force ∨ optionsForRecheck previous.options ≠ optionsForRecheck sync.conversion then true
    else match previous.status with
      | .success => false
      | .skipped => previous.error == "VISION_NOT_CONFIGURED" && sync.visionConfigured
      | .failed => decide (previous.attempts < maxAutomaticConversionAttempts)
      | .notConverted => true

def convertible (sync : Sync) (workspace : Workspace Content) (item : Item) : Bool :=
  item.status != "deleted" && item.localPath != [] && (workspace.files item.localPath).isSome &&
    !sync.foreign item.localPath && isConvertible item.localPath sync.conversion

def inChangedSet (sync : Sync) (item : Item) : Bool :=
  match sync.changedPaths with
  | none => true
  | some changed => decide (item.localPath ∈ changed)

def conversionCandidates (sync : Sync) (workspace : Workspace Content) : List Item :=
  sync.items.filter fun item => convertible sync workspace item &&
    (inChangedSet sync item || conversionNeedsRecheck sync (workspace.metas item.localPath))

structure Detail where
  status : String
  path : LocalPath
  reason : String
  deriving DecidableEq

structure Summary where
  candidates : Nat := 0
  converted : Nat := 0
  skipped : Nat := 0
  failed : Nat := 0
  imagesSkipped : Nat := 0
  imagesDuplicate : Nat := 0
  warnings : List String := []
  items : List Detail := []
  itemsTruncated : Nat := 0
  deriving DecidableEq

def appendConversionDetail (summary : Summary) (item : Item) (status reason : String) : Summary :=
  if detailItemsLimit ≤ summary.items.length then
    { summary with itemsTruncated := summary.itemsTruncated + 1 }
  else { summary with items := summary.items ++ [⟨status, item.localPath, reason⟩] }

/-- `warnings.append`, where there is a warning. -/
def warn (summary : Summary) (warning : String) : Summary :=
  if warning = "" then summary else { summary with warnings := summary.warnings ++ [warning] }

structure Triage (Content : Type) where
  workspace : Workspace Content
  imageCount : Nat
  imageDigests : List String
  jobs : List Item
  summary : Summary

def skipImage (summary : Summary) (item : Item) (reason : String) : Summary :=
  appendConversionDetail { summary with
    skipped := summary.skipped + 1
    imagesSkipped := summary.imagesSkipped + 1 } item "skipped" reason

def triageItem (tools : Tools Content) (sync : Sync) (triage : Triage Content) (item : Item) :
    Triage Content :=
  let digest := digestAt tools triage.workspace item.localPath
  if !isImagePath item.localPath then { triage with jobs := triage.jobs ++ [item] }
  else if orDefault sync.conversion.maxImages defaultMaxImages < triage.imageCount + 1 then
    { triage with
      workspace := writeSkippedMeta tools sync.conversion triage.workspace item.localPath
        "CONVERSION_MAX_IMAGES_EXCEEDED"
      imageCount := triage.imageCount + 1
      summary := warn (skipImage triage.summary item "CONVERSION_MAX_IMAGES_EXCEEDED")
        "CONVERSION_MAX_IMAGES_EXCEEDED" }
  else if digest ∈ triage.imageDigests then
    -- the only exit that leaves the sidecar as it is
    { triage with
      imageCount := triage.imageCount + 1
      summary := { skipImage triage.summary item "IMAGE_DUPLICATE" with
        imagesDuplicate := triage.summary.imagesDuplicate + 1 } }
  else
    { triage with
      imageCount := triage.imageCount + 1
      imageDigests := digest :: triage.imageDigests
      jobs := triage.jobs ++ [item] }

def triageItems (tools : Tools Content) (sync : Sync) (workspace : Workspace Content)
    (items : List Item) : Triage Content :=
  items.foldl (triageItem tools sync) ⟨workspace, 0, [], [], { candidates := items.length }⟩

/-- How `converter.convert` ends. -/
inductive ConverterOutcome
  | text (warning : String)
  | skipped (reason : String)
  | raises (reason : String)
  | runCancelled
  deriving DecidableEq

inductive JobResult
  | skipped (reason warning : String)
  | converted (warning : String)
  | raised (reason : String)
  | runCancelled

/-- The sidecar holds a successful conversion with the fingerprint. -/
def converted (sync : Sync) (workspace : Workspace Content) (path : LocalPath)
    (fingerprint : String) : Bool :=
  match workspace.metas path with
  | some previous =>
    !sync.force && previous.fingerprint == fingerprint && previous.status == .success &&
      workspace.contents path
  | none => false

def convertOne (tools : Tools Content) (sync : Sync) (workspace : Workspace Content)
    (path : LocalPath) (outcome : ConverterOutcome) : Workspace Content × JobResult :=
  let conversion := sync.conversion
  let skip (reason : String) := writeSkippedMeta tools conversion workspace path reason
  let digest := digestAt tools workspace path
  let fingerprint := conversionFingerprint tools conversion path digest
  if orDefault conversion.maxFileSizeMb defaultMaxFileSizeMb * 1024 * 1024 <
      sizeAt tools workspace path then
    (skip "FILE_TOO_LARGE", .skipped "FILE_TOO_LARGE" "")
  else if orDefault conversion.maxPages defaultMaxPages < pdfPageCount tools workspace path then
    (skip "PAGE_LIMIT_EXCEEDED", .skipped "PAGE_LIMIT_EXCEEDED" "")
  else if converted sync workspace path fingerprint then (workspace, .skipped "UNCHANGED" "")
  else if converterFor path = none then (skip "UNSUPPORTED_TYPE", .skipped "UNSUPPORTED_TYPE" "")
  else if isImagePath path && !sync.visionConfigured then
    (skip "VISION_NOT_CONFIGURED", .skipped "VISION_NOT_CONFIGURED" "VISION_NOT_CONFIGURED")
  else match outcome with
    | .runCancelled => (workspace, .runCancelled)
    | .raises reason => (workspace, .raised reason)
    | .skipped reason => (skip reason, .skipped reason "")
    | .text warning =>
      let written := { workspace with contents := Function.update workspace.contents path true }
      (writeSuccessMeta tools conversion written path digest fingerprint, .converted warning)

/-- One pass of the loop over `queue.run`; `none` where it raises. -/
def handleJob (tools : Tools Content) (sync : Sync) (state : Workspace Content × Summary)
    (job : Item × ConverterOutcome) : Option (Workspace Content × Summary) :=
  let (item, outcome) := job
  let (workspace, summary) := state
  match convertOne tools sync workspace item.localPath outcome with
  | (written, .skipped reason warning) =>
    some (written, appendConversionDetail
      (warn { summary with skipped := summary.skipped + 1 } warning) item "skipped" reason)
  | (written, .converted warning) =>
    some (written, warn (appendConversionDetail
      { summary with converted := summary.converted + 1 } item "converted" "") warning)
  | (written, .raised reason) =>
    some (writeFailedMeta tools sync.conversion written item.localPath reason,
      appendConversionDetail (warn { summary with failed := summary.failed + 1 }
        "CONVERSION_FILE_FAILED") item "failed" reason)
  | (_, .runCancelled) => none

/-- `order` lists the jobs as they are completed, with the outcome of their converter.
`none` where the function raises. -/
def postProcessDocuments (tools : Tools Content) (sync : Sync)
    (order : List (Item × ConverterOutcome)) (workspace : Workspace Content) :
    Option (Workspace Content × Summary) :=
  if !conversionEnabled sync.conversion then some (workspace, {})
  else
    let triage := triageItems tools sync workspace (conversionCandidates sync workspace)
    if (order.map Prod.fst).isPerm triage.jobs then
      (order.foldlM (handleJob tools sync) (triage.workspace, triage.summary)).map
        fun (written, summary) => (written, { summary with warnings := summary.warnings.eraseDups })
    else none

inductive Action (Content : Type)
  | writeFile (path : LocalPath) (file : File Content)
  | removeFile (path : LocalPath)
  | removeSidecar (path : LocalPath)
  | ensureSourceMetadata (conversion : Conversion) (path : LocalPath)
  | sync (sync : Sync) (order : List (Item × ConverterOutcome))
  /-- An exception in the loop over the candidates, after some of them. -/
  | triageRaises (sync : Sync) (count : Nat)
  /-- An exception in the loop over the jobs, after some of them. -/
  | queueRaises (sync : Sync) (order : List (Item × ConverterOutcome))

def step (tools : Tools Content) (workspace : Workspace Content) :
    Action Content → Option (Workspace Content)
  | .writeFile path file =>
    some { workspace with files := Function.update workspace.files path (some file) }
  | .removeFile path =>
    some { workspace with files := Function.update workspace.files path none }
  | .removeSidecar path =>
    some { workspace with
      metas := Function.update workspace.metas path none
      contents := Function.update workspace.contents path false }
  | .ensureSourceMetadata conversion path =>
    some (ensureSourceMetadata tools conversion workspace path)
  | .sync sync order => (postProcessDocuments tools sync order workspace).map Prod.fst
  | .triageRaises sync count =>
    some (triageItems tools sync workspace
      ((conversionCandidates sync workspace).take count)).workspace
  | .queueRaises sync order =>
    let triage := triageItems tools sync workspace (conversionCandidates sync workspace)
    if ∀ job ∈ order, job.1 ∈ triage.jobs then
      (order.foldlM (handleJob tools sync) (triage.workspace, triage.summary)).map Prod.fst
    else none

end SourceLens.DocumentConvert
