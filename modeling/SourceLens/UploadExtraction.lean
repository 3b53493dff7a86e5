import Mathlib.Data.List.Forall2
import SourceLens.UploadArchive

/-! The extraction of one ZIP or tar archive below a directory, on a disk with symbolic
links and with what is left behind when it raises. -/

namespace SourceLens.UploadExtraction

open PosixPath (Path)
open FileTree
open UploadArchive (Content Workspace UploadError Entry ZipInfo TarMember NameCodecs UploadLimits
  limitOr readOr normalizedName isInvalidPart zipIsDir zipIsLink zipMemberName)

/-- A member as the loop of an extractor sees it: whether it passes the filters, and
whether the archive says that it is a regular file. -/
structure Member where
  taken : Bool
  regular : Bool
  entry : Entry

/-- The Unix file type of a ZIP member; 0 where the archive does not tell one. -/
def zipFileType (info : ZipInfo) : Nat := (info.externalAttr >>> 16) &&& 0o170000

def zipIsRegular (info : ZipInfo) : Bool :=
  !zipIsDir info && (zipFileType info == 0 || zipFileType info == 0o100000)

def zipMember (codecs : NameCodecs) (info : ZipInfo) : Member where
  taken := !zipIsDir info && !zipIsLink info
  regular := zipIsRegular info
  entry := ⟨zipMemberName codecs info, info.fileSize, readOr .unreadableArchive info.content⟩

def tarMember (member : TarMember) : Member where
  taken := member.kind = .regular
  regular := member.kind = .regular
  entry := ⟨member.name, member.size, readOr .archiveInvalid member.content⟩

/-- `resolve` follows the symbolic links of the disk and may raise; `broken` is what a
copy that fails leaves at its path, `none` where it fails before the file is opened. -/
structure Disk where
  resolve : Path → Except UploadError Path
  broken : Path → Option Content

def archiveMemberPath (disk : Disk) (root : Path) (name : List Char) : Except UploadError Path :=
  let normalized := normalizedName name
  let member := PosixPath.parts normalized
  if PosixPath.isAbsolute normalized || member.any isInvalidPart then .error .archivePathInvalid
  else if normalized.any (·.toNat = 0) then .error .embeddedNull
  else
    match disk.resolve (root ++ member), disk.resolve root with
    | .error failure, _ => .error failure
    | .ok _, .error failure => .error failure
    | .ok path, .ok base => if base <+: path then .ok path else .error .archivePathInvalid

structure Extraction (Value : Type) where
  workspace : Workspace
  result : Except UploadError Value

def copyMember (disk : Disk) (entry : Entry) (path : Path) (made : Workspace) :
    Extraction Path :=
  match entry.content with
  | .ok content =>
    match writeFile made path content with
    | .ok written => ⟨written, .ok path⟩
    | .error failure => ⟨made, .error (.file failure)⟩
  | .error failure =>
    match disk.broken path with
    | none => ⟨made, .error failure⟩
    | some left =>
      match writeFile made path left with
      | .ok written => ⟨written, .error failure⟩
      | .error _ => ⟨made, .error failure⟩

def placeMember (disk : Disk) (root : Path) (entry : Entry) (staged : Workspace) :
    Extraction Path :=
  match archiveMemberPath disk root entry.name with
  | .error failure => ⟨staged, .error failure⟩
  | .ok path =>
    if present staged path then ⟨staged, .error .fileExists⟩
    else
      match mkdirs staged path.dropLast with
      | .error failure => ⟨staged, .error (.file failure)⟩
      | .ok made => copyMember disk entry path made

def extractMembers (disk : Disk) (maxBytes maxFiles : Nat) (root : Path) :
    List Member → Nat → List Path → Workspace → Extraction (List Path)
  | [], _, extracted, staged => ⟨staged, .ok extracted⟩
  | member :: rest, extractedBytes, extracted, staged =>
    if member.taken = false then
      extractMembers disk maxBytes maxFiles root rest extractedBytes extracted staged
    else if maxFiles ≤ extracted.length then ⟨staged, .error .fileLimit⟩
    else if maxBytes < extractedBytes + member.entry.size then ⟨staged, .error .sizeLimit⟩
    else
      match placeMember disk root member.entry staged with
      | ⟨after, .error failure⟩ => ⟨after, .error failure⟩
      | ⟨after, .ok path⟩ =>
        extractMembers disk maxBytes maxFiles root rest
          (extractedBytes + member.entry.size) (extracted ++ [path]) after

def maxBytes (limits : UploadLimits) : Nat :=
  limitOr limits.maxExtractedBytes UploadArchive.UPLOAD_MAX_EXTRACTED_BYTES

def maxFiles (limits : UploadLimits) : Nat :=
  limitOr limits.maxExtractedFiles UploadArchive.UPLOAD_MAX_EXTRACTED_FILES

inductive Archive
  | zip (infos : List ZipInfo)
  | tar (members : List TarMember)

def Archive.members (codecs : NameCodecs) : Archive → List Member
  | .zip infos => infos.map (zipMember codecs)
  | .tar members => members.map tarMember

def extractZipArchive (disk : Disk) (codecs : NameCodecs) (limits : UploadLimits) (root : Path)
    (infos : List ZipInfo) (staged : Workspace) : Extraction (List Path) :=
  extractMembers disk (maxBytes limits) (maxFiles limits) root (infos.map (zipMember codecs))
    0 [] staged

def extractTarArchive (disk : Disk) (limits : UploadLimits) (root : Path)
    (members : List TarMember) (staged : Workspace) : Extraction (List Path) :=
  extractMembers disk (maxBytes limits) (maxFiles limits) root (members.map tarMember)
    0 [] staged

/-- `_extract_zip_archive` or `_extract_tar_archive`. -/
def extractArchive (disk : Disk) (codecs : NameCodecs) (limits : UploadLimits) (root : Path)
    (archive : Archive) (staged : Workspace) : Extraction (List Path) :=
  match archive with
  | .zip infos => extractZipArchive disk codecs limits root infos staged
  | .tar members => extractTarArchive disk limits root members staged

theorem extractArchive_members (disk : Disk) (codecs : NameCodecs) (limits : UploadLimits)
    (root : Path) (archive : Archive) (staged : Workspace) :
    extractArchive disk codecs limits root archive staged =
      extractMembers disk (maxBytes limits) (maxFiles limits) root (archive.members codecs)
        0 [] staged := by
  cases archive <;> rfl

def lexical (broken : Path → Option Content) : Disk where
  resolve path := .ok (PosixPath.resolve path)
  broken

end SourceLens.UploadExtraction
