import SourceLens.PathRules

/-! Feishu Drive items, their manifest entries, and the local path a download
goes to. -/

namespace SourceLens.FeishuPaths

open PosixPath (Name Path isAbsolute join lastName resolve)
open FileTree (Hierarchy present)
open PathRules (safeFilename suffixedName uniqueChildPath)

abbrev Text := List Char

/-- The comparable metadata of `_feishu_item_sync_metadata`; an empty text is no value. -/
structure SyncMetadata where
  modifiedTime : Text
  size : Text
  checksum : Text
  deriving DecidableEq, Repr

def SyncMetadata.none : SyncMetadata := ⟨[], [], []⟩

structure FeishuItem where
  token : Text
  name : Text
  itemType : Text
  metadata : SyncMetadata
  deriving DecidableEq, Repr

inductive ItemStatus where
  | synced
  | skipped
  | missing
  | deleted
  | failed
  deriving DecidableEq, Repr

/-- One manifest entry; a downloaded item has no status until the manifest is rebuilt. -/
structure ManifestItem where
  token : Text
  remoteToken : Text
  name : Text
  kind : Text
  itemType : Text
  remoteType : Text
  localPath : Text
  fileExtension : Text
  metadata : SyncMetadata
  status : Option ItemStatus
  missingScans : Nat
  deriving DecidableEq, Repr

def isFeishuExportableType (itemType : Text) : Bool :=
  itemType ∈ ["doc".toList, "docx".toList, "docs".toList, "sheet".toList, "slide".toList,
    "slides".toList, "bitable".toList, "base".toList]

def feishuExportExtension (itemType : Text) : Text :=
  if itemType = "sheet".toList ∨ itemType = "bitable".toList ∨ itemType = "base".toList then
    "xlsx".toList
  else if itemType = "slide".toList ∨ itemType = "slides".toList then "pptx".toList
  else "docx".toList

def lowered (text : Text) : Text := text.map Char.toLower

def extensionOf (name : Text) : Text :=
  (lowered (PosixPath.suffix (lastName name))).dropWhile (· = '.')

structure Signature where
  metadata : SyncMetadata
  itemType : Text
  fileExtension : Text
  token : Text
  name : Text
  deriving DecidableEq, Repr

/-- Token and name count only where there is nothing else to compare. -/
def signatureOf (metadata : SyncMetadata) (itemType fileExtension token name : Text) :
    Option Signature :=
  if metadata ≠ SyncMetadata.none ∨ fileExtension ≠ [] then
    some ⟨metadata, itemType, fileExtension, [], []⟩
  else if token ≠ [] ∨ name ≠ [] then some ⟨metadata, itemType, fileExtension, token, name⟩
  else none

def feishuItemSignature (item : FeishuItem) : Option Signature :=
  signatureOf item.metadata item.itemType
    (if isFeishuExportableType item.itemType then feishuExportExtension item.itemType
      else extensionOf item.name)
    item.token item.name

def orElse (first second : Text) : Text := if first = [] then second else first

def feishuManifestSignature (item : ManifestItem) : Option Signature :=
  signatureOf item.metadata (orElse item.remoteType item.itemType) item.fileExtension
    (orElse item.token item.remoteToken) item.name

/-- The absolute place of a manifest path below the datasource root. -/
def fileOf (root : Path) (localPath : Text) : Path := resolve (join root localPath)

/-- `relative_path(root, path)`; outside the root it raises. -/
def relativePath (root path : Path) : Option Text :=
  if root <+: path then some (PosixPath.asPosix (path.drop root.length)) else none

def feishuPreviousFilePaths (previousFile : Text) (targetDir rootDir : Path) : List Path :=
  if isAbsolute previousFile then [resolve (PosixPath.parts previousFile)]
  else
    [fileOf rootDir previousFile, fileOf targetDir (lastName previousFile),
      fileOf targetDir previousFile]

variable {α : Type}

/-- The first earlier place of an item that lies below the root and still exists. -/
def previousPlace (tree : Hierarchy α) (targetDir rootDir : Path) (previousFile : Text) : Option Path :=
  if previousFile = [] then none
  else
    (feishuPreviousFilePaths previousFile targetDir rootDir).find? fun path =>
      rootDir <+: path && present tree path

def feishuStablePath (stableSuffix : Text → Name) (targetDir : Path) (filename token : Text) : Path :=
  fileOf targetDir (suffixedName stableSuffix filename token)

def feishuTargetFilePath (stableSuffix : Text → Name) (tree : Hierarchy α) (targetDir rootDir : Path)
    (filename token previousFile : Text) : Path :=
  match previousPlace tree targetDir rootDir previousFile with
  | some path => path
  | none =>
    let path := uniqueChildPath stableSuffix tree targetDir filename token
    let stable := feishuStablePath stableSuffix targetDir filename token
    if present tree stable then stable else path

def feishuItemUnchanged (tree : Hierarchy α) (item : FeishuItem) (previous : Option ManifestItem)
    (targetDir rootDir : Path) : Bool :=
  match previous with
  | none => false
  | some entry =>
    entry.status ≠ some .deleted && (feishuItemSignature item).isSome &&
      feishuItemSignature item = feishuManifestSignature entry && entry.localPath ≠ [] &&
      (feishuPreviousFilePaths entry.localPath targetDir rootDir).any (present tree)

def feishuManifestItemFromPrevious (item : FeishuItem) (previous : ManifestItem) : ManifestItem :=
  { previous with
    kind := orElse previous.kind "document".toList
    token := item.token
    remoteToken := item.token
    name := item.name
    itemType := item.itemType
    remoteType := item.itemType
    metadata := item.metadata
    status := some .skipped
    missingScans := 0 }

structure Delivery (α : Type) where
  fileName : Text
  fileExtension : Text
  content : α
  deriving DecidableEq, Repr

def exportFilename (fileName fileExtension fallbackName fallbackType : Text) : Text :=
  let extension := orElse fileExtension (feishuExportExtension fallbackType)
  let stem := safeFilename (orElse fileName fallbackName)
  if ('.' :: lowered extension).reverse.isPrefixOf (lowered stem).reverse then stem
  else stem ++ '.' :: extension

def deliveryFilename (item : FeishuItem) (delivery : Delivery α) : Text :=
  if isFeishuExportableType item.itemType then
    exportFilename delivery.fileName delivery.fileExtension (orElse item.name item.token)
      item.itemType
  else safeFilename (orElse item.name item.token)

/-- The entry `_sync_feishu_drive_item` returns for a stored download. -/
def deliveredItem (item : FeishuItem) (delivery : Delivery α) (localPath : Text) : ManifestItem :=
  let exported := isFeishuExportableType item.itemType
  { token := item.token
    remoteToken := item.token
    name :=
      if exported then orElse delivery.fileName (orElse item.name item.token) else item.name
    kind := if exported then "document".toList else "file".toList
    itemType := item.itemType
    remoteType := item.itemType
    localPath := localPath
    fileExtension := if exported then delivery.fileExtension else extensionOf item.name
    metadata := item.metadata
    status := none
    missingScans := 0 }

/-- The place an item is about to take is not among the given places: its earlier file
where that still exists, else its plain name where that is free, else its suffixed name. -/
structure Clear (stableSuffix : Text → Name) (places : List Path) (tree : Hierarchy α)
    (targetDir rootDir : Path) (filename token previousFile : Text) : Prop where
  previous : ∀ path, previousPlace tree targetDir rootDir previousFile = some path → path ∉ places
  suffixed : previousPlace tree targetDir rootDir previousFile = none →
    present tree (feishuStablePath stableSuffix targetDir filename token) = true ∨
      present tree (fileOf targetDir filename) = true →
    feishuStablePath stableSuffix targetDir filename token ∉ places
  plain : previousPlace tree targetDir rootDir previousFile = none →
    present tree (feishuStablePath stableSuffix targetDir filename token) = false →
    present tree (fileOf targetDir filename) = false → fileOf targetDir filename ∉ places

variable (stableSuffix : Text → Name) (tree : Hierarchy α)

theorem feishuTargetFilePath_cases (targetDir rootDir : Path) (filename token previousFile : Text) :
    (∃ path, previousPlace tree targetDir rootDir previousFile = some path ∧
        feishuTargetFilePath stableSuffix tree targetDir rootDir filename token previousFile = path) ∨
      (previousPlace tree targetDir rootDir previousFile = none ∧
        (present tree (feishuStablePath stableSuffix targetDir filename token) = true ∨
          present tree (fileOf targetDir filename) = true) ∧
        feishuTargetFilePath stableSuffix tree targetDir rootDir filename token previousFile =
          feishuStablePath stableSuffix targetDir filename token) ∨
      (previousPlace tree targetDir rootDir previousFile = none ∧
        present tree (feishuStablePath stableSuffix targetDir filename token) = false ∧
        present tree (fileOf targetDir filename) = false ∧
        feishuTargetFilePath stableSuffix tree targetDir rootDir filename token previousFile =
          fileOf targetDir filename) := by
  cases earlier : previousPlace tree targetDir rootDir previousFile with
  | some path => exact Or.inl ⟨path, rfl, by simp [feishuTargetFilePath, earlier]⟩
  | none =>
    right
    cases stable : present tree (feishuStablePath stableSuffix targetDir filename token) with
    | true => exact Or.inl ⟨rfl, Or.inl rfl, by simp [feishuTargetFilePath, earlier, stable]⟩
    | false =>
      cases taken : present tree (fileOf targetDir filename) with
      | true =>
        refine Or.inl ⟨rfl, Or.inr rfl, ?_⟩
        simp only [fileOf] at taken
        simp [feishuTargetFilePath, earlier, uniqueChildPath, taken, feishuStablePath, fileOf]
      | false =>
        refine Or.inr ⟨rfl, rfl, rfl, ?_⟩
        simp only [fileOf] at taken
        simp [feishuTargetFilePath, earlier, stable, uniqueChildPath, taken, fileOf]

theorem clear_iff (places : List Path) (tree : Hierarchy α)
    (targetDir rootDir : Path) (filename token previousFile : Text) :
    Clear stableSuffix places tree targetDir rootDir filename token previousFile ↔
      feishuTargetFilePath stableSuffix tree targetDir rootDir filename token previousFile ∉
        places := by
  rcases feishuTargetFilePath_cases stableSuffix tree targetDir rootDir filename token previousFile
    with ⟨path, earlier, chosen⟩ | ⟨gone, exists_, chosen⟩ | ⟨gone, noStable, free, chosen⟩
  · rw [chosen]
    constructor
    · exact fun clear => clear.previous path earlier
    · intro apart
      constructor
      · intro other found
        rw [earlier] at found
        exact Option.some.inj found ▸ apart
      · intro none
        rw [earlier] at none
        exact absurd none (by simp)
      · intro none
        rw [earlier] at none
        exact absurd none (by simp)
  · rw [chosen]
    constructor
    · exact fun clear => clear.suffixed gone exists_
    · intro apart
      constructor
      · intro other found
        rw [gone] at found
        exact absurd found (by simp)
      · exact fun _ _ => apart
      · intro _ noStable free
        rw [noStable, free] at exists_
        exact absurd exists_ (by simp)
  · rw [chosen]
    constructor
    · exact fun clear => clear.plain gone noStable free
    · intro apart
      constructor
      · intro other found
        rw [gone] at found
        exact absurd found (by simp)
      · intro _ taken
        rw [noStable, free] at taken
        exact absurd taken (by simp)
      · exact fun _ _ _ => apart

theorem fileOf_plain (root : Path) (localPath : Text) (plain : PosixPath.Plain root) :
    PosixPath.Plain (fileOf root localPath) :=
  PosixPath.plain_resolve_join root localPath plain

theorem previousPlace_plain (targetDir rootDir path : Path) (previousFile : Text)
    (plainTarget : PosixPath.Plain targetDir) (plainRoot : PosixPath.Plain rootDir)
    (found : previousPlace tree targetDir rootDir previousFile = some path) :
    PosixPath.Plain path := by
  unfold previousPlace at found
  split at found
  · exact absurd found (by simp)
  · have listed := List.mem_of_find?_eq_some found
    unfold feishuPreviousFilePaths at listed
    split at listed
    · rw [List.mem_singleton] at listed
      rw [listed]
      exact PosixPath.plain_resolve _ (PosixPath.parts_named previousFile)
    · simp only [List.mem_cons, List.not_mem_nil, or_false] at listed
      rcases listed with rfl | rfl | rfl
      · exact fileOf_plain rootDir previousFile plainRoot
      · exact fileOf_plain targetDir _ plainTarget
      · exact fileOf_plain targetDir previousFile plainTarget

instance (stableSuffix : Text → Name) (places : List Path) (tree : Hierarchy α) (targetDir rootDir : Path)
    (filename token previousFile : Text) :
    Decidable (Clear stableSuffix places tree targetDir rootDir filename token previousFile) :=
  decidable_of_iff _ (clear_iff stableSuffix places tree targetDir rootDir filename token
    previousFile).symm

theorem feishuTargetFilePath_plain (targetDir rootDir : Path) (filename token previousFile : Text)
    (plainTarget : PosixPath.Plain targetDir) (plainRoot : PosixPath.Plain rootDir) :
    PosixPath.Plain
      (feishuTargetFilePath stableSuffix tree targetDir rootDir filename token previousFile) := by
  rcases feishuTargetFilePath_cases stableSuffix tree targetDir rootDir filename token previousFile
    with ⟨path, earlier, chosen⟩ | ⟨_, _, chosen⟩ | ⟨_, _, _, chosen⟩
  · rw [chosen]
    exact previousPlace_plain tree targetDir rootDir path previousFile plainTarget plainRoot earlier
  · rw [chosen]
    exact fileOf_plain targetDir _ plainTarget
  · rw [chosen]
    exact fileOf_plain targetDir _ plainTarget

theorem fileOf_relativePath (root path : Path) (localPath : Text) (plainRoot : PosixPath.Plain root)
    (plain : PosixPath.Plain path) (listed : relativePath root path = some localPath) :
    fileOf root localPath = path := by
  unfold relativePath at listed
  split at listed
  · rename_i below
    rcases below with ⟨rest, rfl⟩
    rw [List.drop_left] at listed
    rw [fileOf, ← Option.some.inj listed]
    exact PosixPath.resolve_join_asPosix root rest plainRoot
      ((PosixPath.plain_append root rest).mp plain).2
  · exact absurd listed (by simp)

end SourceLens.FeishuPaths
