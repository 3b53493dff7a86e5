import SourceLens.PathRules
import SourceLens.Library.TextLines

/-! Archive uploads into a managed workspace: extraction into a staging
directory, removal of the files the last upload of the same archive listed,
and the move of the new members into their place. -/

namespace SourceLens.UploadArchive

open PosixPath (Name Path)
open FileTree
open PathRules (safeFilename)

inductive Content where
  | utf8 (text : List Char)
  | binary (bytes : List UInt8)
  deriving DecidableEq, Repr

abbrev Workspace := Hierarchy Content

inductive UploadError where
  | notSupported
  | filenameInvalid
  | contentInvalid
  | tooLarge
  | archivePathInvalid
  | archiveInvalid
  | fileLimit
  | sizeLimit
  | fileExists
  | unreadableArchive
  | embeddedNull
  | undecodableMarker
  | file (error : FileError)
  deriving DecidableEq, Repr

structure ZipInfo where
  filename : List Char
  flagBits : Nat
  externalAttr : Nat
  fileSize : Nat
  content : Option Content
  deriving DecidableEq, Repr

inductive TarKind where
  | regular
  | symlink
  | hardlink
  | other
  deriving DecidableEq, Repr

structure TarMember where
  name : List Char
  kind : TarKind
  size : Nat
  content : Option Content
  deriving DecidableEq, Repr

structure NameCodecs where
  encodeCp437 : List Char → Option (List UInt8)
  decodeUtf8 : List UInt8 → Option (List Char)
  decodeGbk : List UInt8 → Option (List Char)

structure Entry where
  name : List Char
  size : Nat
  content : Except UploadError Content

def readOr (failure : UploadError) : Option Content → Except UploadError Content
  | some content => .ok content
  | none => .error failure

def recodedName (name : List Char) : Option (List Char) → Option (List Char)
  | some decoded => if decoded ≠ [] ∧ decoded ≠ name then some decoded else none
  | none => none

def zipMemberName (codecs : NameCodecs) (info : ZipInfo) : List Char :=
  if info.flagBits &&& 0x800 ≠ 0 then info.filename
  else
    match codecs.encodeCp437 info.filename with
    | none => info.filename
    | some raw =>
      ((recodedName info.filename (codecs.decodeUtf8 raw)).or
        (recodedName info.filename (codecs.decodeGbk raw))).getD info.filename

def zipIsDir (info : ZipInfo) : Bool := info.filename.getLast? == some '/'

def zipIsLink (info : ZipInfo) : Bool := (info.externalAttr >>> 16) &&& 0o170000 == 0o120000

def zipEntries (codecs : NameCodecs) (infos : List ZipInfo) : List Entry :=
  (infos.filter fun info => !zipIsDir info && !zipIsLink info).map fun info =>
    ⟨zipMemberName codecs info, info.fileSize, readOr .unreadableArchive info.content⟩

def tarEntries (members : List TarMember) : List Entry :=
  (members.filter (·.kind = .regular)).map fun member =>
    ⟨member.name, member.size, readOr .archiveInvalid member.content⟩

def UPLOAD_MAX_EXTRACTED_BYTES : Nat := 100 * 1024 * 1024

def UPLOAD_MAX_EXTRACTED_FILES : Nat := 300

structure UploadLimits where
  maxBytes : Option Int
  maxExtractedBytes : Option Int
  maxExtractedFiles : Option Int
  deriving DecidableEq, Repr

def limitOr (limit : Option Int) (default : Nat) : Nat :=
  match limit with
  | some value => if 0 < value then value.toNat else default
  | none => default

def isInvalidPart (part : Name) : Bool := part ∈ [[], ['.'], ['.', '.']]

def normalizedName (name : List Char) : List Char :=
  name.map fun c => if c = '\\' then '/' else c

def archiveMemberPath (root : Path) (name : List Char) : Except UploadError Path :=
  let normalized := normalizedName name
  let member := PosixPath.parts normalized
  if PosixPath.isAbsolute normalized || member.any isInvalidPart then .error .archivePathInvalid
  else if normalized.any (·.toNat = 0) then .error .embeddedNull
  else
    let path := PosixPath.resolve (root ++ member)
    if PosixPath.resolve root <+: path then .ok path else .error .archivePathInvalid

def extractEntry (root : Path) (entry : Entry) (staged : Workspace) :
    Except UploadError (Path × Workspace) :=
  match archiveMemberPath root entry.name with
  | .error failure => .error failure
  | .ok path =>
    if present staged path then .error .fileExists
    else
      match mkdirs staged path.dropLast, entry.content with
      | .error failure, _ => .error (.file failure)
      | .ok _, .error failure => .error failure
      | .ok made, .ok content =>
        match writeFile made path content with
        | .error failure => .error (.file failure)
        | .ok written => .ok (path, written)

/-- The loop of both extractors, with the bytes and the files counted so far. -/
def extractEntries (maxBytes maxFiles : Nat) (root : Path) :
    List Entry → Nat → List Path → Workspace → Except UploadError (List Path × Workspace)
  | [], _, extracted, staged => .ok (extracted, staged)
  | entry :: rest, extractedBytes, extracted, staged =>
    if maxFiles ≤ extracted.length then .error .fileLimit
    else if maxBytes < extractedBytes + entry.size then .error .sizeLimit
    else
      match extractEntry root entry staged with
      | .error failure => .error failure
      | .ok (path, written) =>
        extractEntries maxBytes maxFiles root rest (extractedBytes + entry.size)
          (extracted ++ [path]) written

def extractArchive (limits : UploadLimits) (root : Path) (entries : List Entry)
    (staged : Workspace) : Except UploadError (List Path × Workspace) :=
  extractEntries (limitOr limits.maxExtractedBytes UPLOAD_MAX_EXTRACTED_BYTES)
    (limitOr limits.maxExtractedFiles UPLOAD_MAX_EXTRACTED_FILES) root entries 0 [] staged

def extractZipArchive (codecs : NameCodecs) (limits : UploadLimits) (root : Path)
    (infos : List ZipInfo) (staged : Workspace) : Except UploadError (List Path × Workspace) :=
  extractArchive limits root (zipEntries codecs infos) staged

def extractTarArchive (limits : UploadLimits) (root : Path) (members : List TarMember)
    (staged : Workspace) : Except UploadError (List Path × Workspace) :=
  extractArchive limits root (tarEntries members) staged

def markerName : Name := ".sourcelens-uploaded.sourcelens".toList

def stagingName : Name := ".sourcelens-upload-staging.sourcelens".toList

def readMarker (workspace : Workspace) (target : Path) : Except UploadError (List (List Char)) :=
  match workspace (target ++ [markerName]) with
  | none => .ok []
  | some .directory => .error (.file .isADirectory)
  | some (.file (.binary _)) => .error .undecodableMarker
  | some (.file (.utf8 text)) => .ok (TextLines.splitlines (TextLines.universalNewlines text))

/-- Each line joined to the target, resolved and unlinked when it is a file; also
the paths that were unlinked. -/
def unlinkLines (target : Path) : List (List Char) → Workspace → Workspace × List Path
  | [], workspace => (workspace, [])
  | line :: rest, workspace =>
    let candidate := PosixPath.resolve (PosixPath.join target line)
    if isFile workspace candidate then
      let (done, unlinked) := unlinkLines target rest (unlink workspace candidate)
      (done, candidate :: unlinked)
    else unlinkLines target rest workspace

/-- Move the members to their place; also the destinations reached and the error
that ended the loop. -/
def moveMembers (staging target : Path) :
    List (List Char) → Workspace → Workspace × List Path × Option UploadError
  | [], workspace => (workspace, [], none)
  | member :: rest, workspace =>
    let source := PosixPath.join staging member
    let destination := PosixPath.join target member
    match mkdirs workspace destination.dropLast with
    | .error failure => (workspace, [], some (.file failure))
    | .ok made =>
      match replaceFile made source destination with
      | .error failure => (made, [], some (.file failure))
      | .ok moved =>
        let (done, placed, failed) := moveMembers staging target rest moved
        (done, destination :: placed, failed)

/-- What the uploaded bytes are, and what the archive readers make of them. -/
structure Blob where
  bytes : Content
  size : Nat
  zip : Option (List ZipInfo)
  tar : Option (List TarMember)
  deriving DecidableEq, Repr

structure UploadCommand where
  sourceType : List Char
  filename : List Char
  blob : Option Blob
  limits : UploadLimits
  deriving DecidableEq, Repr

structure UploadReport where
  workspace : Workspace
  unlinked : List Path
  placed : List Path
  result : Except UploadError (List Path)

def endsWith (ending name : List Char) : Bool := ending.reverse.isPrefixOf name.reverse

def lowered (name : List Char) : List Char := name.map Char.toLower

def isUploadArchive (filename : Name) : Bool :=
  [".zip", ".tar", ".tar.gz", ".tgz"].any fun ending => endsWith ending.toList (lowered filename)

def uploadDatasourceRoot (workspacePath : Path) (datasourceUuid : List Char) : Path :=
  PosixPath.resolve workspacePath ++ ["datasources".toList, safeFilename datasourceUuid]

def uploadTarget (root : Path) (filename : Name) : Path :=
  if isUploadArchive filename then root ++ [safeFilename (PosixPath.stem filename)] else root

def stagingOf (root : Path) : Path := root ++ [stagingName]

def extractUpload (codecs : NameCodecs) (limits : UploadLimits) (filename : Name) (blob : Blob)
    (staging : Path) (staged : Workspace) : Except UploadError (List Path × Workspace) :=
  if endsWith ".zip".toList (lowered filename) then
    match blob.zip with
    | none => .error .unreadableArchive
    | some infos => extractZipArchive codecs limits staging infos staged
  else
    match blob.tar with
    | none => .error .unreadableArchive
    | some members => extractTarArchive limits staging members staged

def memberNames (staging : Path) (extracted : List Path) : List (List Char) :=
  extracted.map fun path => PosixPath.asPosix (path.drop staging.length)

/-- The archive branch after extraction; the staging directory is gone at the end. -/
def replaceUpload (staging target : Path) (extracted : List Path) (workspace : Workspace) :
    UploadReport :=
  match readMarker workspace target with
  | .error failure => ⟨rmtree workspace staging, [], [], .error failure⟩
  | .ok lines =>
    let (cleared, unlinked) := unlinkLines target lines workspace
    let members := memberNames staging extracted
    match moveMembers staging target members cleared with
    | (moved, placed, some failure) =>
      ⟨rmtree moved staging, unlinked, placed, .error failure⟩
    | (moved, placed, none) =>
      let text := TextLines.joinLines members
      match writeFile moved (target ++ [markerName]) (.utf8 text) with
      | .error failure => ⟨rmtree moved staging, unlinked, placed, .error (.file failure)⟩
      | .ok written => ⟨rmtree written staging, unlinked, placed, .ok extracted⟩

/-- The target and a fresh staging directory that holds the uploaded bytes. -/
def stageUpload (root target : Path) (filename : Name) (blob : Blob) (workspace : Workspace) :
    Except FileError Workspace := do
  let made ← mkdirs workspace target
  let fresh ← mkdirs (rmtree made (stagingOf root)) (stagingOf root)
  writeFile fresh (stagingOf root ++ [filename]) blob.bytes

def storeUpload (codecs : NameCodecs) (root : Path) (filename : Name) (limits : UploadLimits)
    (blob : Blob) (workspace : Workspace) : UploadReport :=
  let target := uploadTarget root filename
  let staging := stagingOf root
  match stageUpload root target filename blob workspace with
  | .error failure => ⟨workspace, [], [], .error (.file failure)⟩
  | .ok staged =>
    if isUploadArchive filename then
      match extractUpload codecs limits filename blob staging staged with
      | .error failure => ⟨rmtree staged staging, [], [], .error failure⟩
      | .ok (extracted, unpacked) => replaceUpload staging target extracted unpacked
    else
      let destination := target ++ [filename]
      match replaceFile staged (staging ++ [filename]) destination with
      | .error failure => ⟨rmtree staged staging, [], [], .error (.file failure)⟩
      | .ok moved => ⟨rmtree moved staging, [], [destination], .ok [destination]⟩

/-- `upload_managed_workspace` up to the conversion of what it stored. -/
def uploadManagedWorkspace (codecs : NameCodecs) (root : Path) (command : UploadCommand)
    (workspace : Workspace) : UploadReport :=
  let refused := fun failure => UploadReport.mk workspace [] [] (.error failure)
  let filename := safeFilename command.filename
  if command.sourceType ≠ "upload".toList then refused .notSupported
  else if filename = [] then refused .filenameInvalid
  else
    match command.blob with
    | none => refused .contentInvalid
    | some blob =>
      if limitOr command.limits.maxBytes (50 * 1024 * 1024) < blob.size then refused .tooLarge
      else storeUpload codecs root filename command.limits blob workspace

end SourceLens.UploadArchive
