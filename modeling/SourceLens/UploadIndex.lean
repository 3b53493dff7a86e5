import SourceLens.UploadReplacement
import SourceLens.Library.OrderedDict
import SourceLens.Library.Transition

/-! The content index of an upload datasource: uploads and deletions that may raise at
any point, and the lookup that skips a duplicate. -/

namespace SourceLens.UploadArchive

open PosixPath (Name Path Named)
open FileTree
open PathRules (safeFilename)
open Transition

structure IndexEntry where
  filename : Name
  version : Int
  path : List Char
  deriving DecidableEq, Repr

abbrev UploadIndex := OrderedDict (List Char) (List IndexEntry)

/-- `index` is what `read_upload_index` reads: the file is replaced as a whole, and no
upload is stored under its name, which opens with a dot. -/
structure Datasource where
  workspace : Workspace
  index : UploadIndex

/-- The datasource's place, the codecs of archive names and the digest of a file. -/
structure Site where
  workspacePath : Path
  datasourceUuid : List Char
  codecs : NameCodecs
  sourceSha256 : Content → List Char
  filled : ∀ content, lowered (sourceSha256 content) ≠ []

def Site.root (site : Site) : Path := uploadDatasourceRoot site.workspacePath site.datasourceUuid

def orOne (version : Int) : Int := if version = 0 then 1 else version

def isDuplicate (root : Path) (workspace : Workspace) (entry : IndexEntry) : Bool :=
  let candidate := PosixPath.resolve (PosixPath.join root entry.path)
  decide (PosixPath.resolve root <+: candidate) && decide (entry.path ≠ []) &&
    present workspace candidate

def findDuplicateUpload (root : Path) (sha256 : List Char) (datasource : Datasource) :
    Option IndexEntry :=
  if lowered sha256 = [] then none
  else
    (((datasource.index.get? (lowered sha256)).getD []).reverse).find?
      (isDuplicate root datasource.workspace)

/-- The entries that pass the test; a digest without entries goes. -/
def keepEntries (keep : IndexEntry → Bool) (entries : List IndexEntry) :
    Option (List IndexEntry) :=
  let kept := entries.filter keep
  if kept = [] then none else some kept

def recordUploadIndex (root : Path) (sha256 : List Char) (filename : Name) (version : Int)
    (target : Path) (index : UploadIndex) : UploadIndex :=
  let digest := lowered sha256
  if digest = [] then index
  else if PosixPath.resolve root <+: PosixPath.resolve target then
    let relative :=
      PosixPath.asPosix ((PosixPath.resolve target).drop (PosixPath.resolve root).length)
    let others := ((index.get? digest).getD []).filter fun entry => entry.path ≠ relative
    (index.set digest (others ++ [⟨filename, orOne version, relative⟩])).filterMapValues
      fun other entries =>
        if other = digest then some entries
        else keepEntries (fun entry => entry.path ≠ relative) entries
  else index

def removeUploadIndex (filename : Name) (version : Int) (index : UploadIndex) : UploadIndex :=
  index.filterMapValues fun _ entries =>
    keepEntries (fun entry =>
      !(entry.filename = filename && orOne entry.version = orOne version)) entries

/-- What `upload_managed_workspace` reads of its command. -/
structure UploadCall where
  command : UploadCommand
  sha256 : List Char
  version : Int
  deriving DecidableEq, Repr

def UploadCall.filename (call : UploadCall) : Name := safeFilename call.command.filename

def placeName (filename : Name) : Name :=
  if isUploadArchive filename then safeFilename (PosixPath.stem filename) else filename

def UploadCall.place (call : UploadCall) : Name := placeName call.filename

def uploadDigest (site : Site) (call : UploadCall) (blob : Blob) : List Char :=
  if lowered call.sha256 = [] then site.sourceSha256 blob.bytes else lowered call.sha256

/-- An exception the command itself does not cause: before the extraction, in it, after
some lines were unlinked or some members moved, in the write of the member list, or
after everything was stored and before the index is written. -/
inductive Fault where
  | staging
  | extracting
  | unlinking (count : Nat)
  | moving (count : Nat)
  | marking (left : Content)
  | unrecorded
  deriving DecidableEq, Repr

/-- How far a call came: nothing changed, the target directory exists and the upload is
staged, the replacement began, everything is stored. -/
inductive Reached where
  | refused
  | staged
  | replacing
  | stored
  deriving DecidableEq, Repr

def replaceCall (staging target : Path) (extracted : List Path) (workspace : Workspace)
    (fault : Option Fault) : Workspace × Reached :=
  match readMarker workspace target with
  | .error _ => (rmtree workspace staging, .staged)
  | .ok lines =>
    let cleared := (unlinkLines target lines workspace).1
    let members := memberNames staging extracted
    match fault with
    | some (.unlinking count) =>
      (rmtree (unlinkLines target (lines.take count) workspace).1 staging, .replacing)
    | some (.moving count) =>
      (rmtree (moveMembers staging target (members.take count) cleared).1 staging, .replacing)
    | some (.marking left) =>
      let moved := (moveMembers staging target members cleared).1
      (rmtree (put moved (markerOf target) (some (.file left))) staging, .replacing)
    | _ =>
      let report := replaceUpload staging target extracted workspace
      (report.workspace, if report.result.toBool then .stored else .replacing)

/-- `storeUpload` under a fault; a fault of the archive branch does not meet a plain file. -/
def storeCall (codecs : NameCodecs) (root : Path) (filename : Name) (limits : UploadLimits)
    (blob : Blob) (workspace : Workspace) (fault : Option Fault) : Workspace × Reached :=
  let target := uploadTarget root filename
  let staging := stagingOf root
  match stageUpload root target filename blob workspace with
  | .error _ => (workspace, .refused)
  | .ok staged =>
    if fault = some .staging then (staged, .staged)
    else if fault = some .extracting then (rmtree staged staging, .staged)
    else if isUploadArchive filename then
      match extractUpload codecs limits filename blob staging staged with
      | .error _ => (rmtree staged staging, .staged)
      | .ok (extracted, unpacked) => replaceCall staging target extracted unpacked fault
    else
      match replaceFile staged (staging ++ [filename]) (target ++ [filename]) with
      | .error _ => (rmtree staged staging, .staged)
      | .ok moved => (rmtree moved staging, .stored)

def isGenerated (path : Path) : Bool := path.any (endsWith ".sourcelens".toList)

/-- What the conversion pipeline leaves: it writes and removes below sidecar directories. -/
structure Sidecars (root : Path) where
  changes : List (Path × Option (Node Content))
  generated : ∀ change ∈ changes, isGenerated change.1 = true

def Sidecars.apply {root : Path} (sidecars : Sidecars root) (workspace : Workspace) : Workspace :=
  sidecars.changes.foldl (fun tree change => put tree (root ++ change.1) change.2) workspace

def indexTarget (root : Path) (filename : Name) : Path :=
  if isUploadArchive filename then uploadTarget root filename
  else uploadTarget root filename ++ [filename]

def storeAndRecord (site : Site) (call : UploadCall) (fault : Option Fault)
    (sidecars : Sidecars site.root) (blob : Blob) (datasource : Datasource) :
    Datasource × Reached :=
  let outcome := storeCall site.codecs site.root call.filename call.command.limits blob
    datasource.workspace fault
  if outcome.2 = .stored then
    ({ workspace := sidecars.apply outcome.1
       index :=
        if fault = some .unrecorded then datasource.index
        else recordUploadIndex site.root (uploadDigest site call blob) call.filename call.version
          (indexTarget site.root call.filename) datasource.index }, .stored)
  else ({ datasource with workspace := outcome.1 }, outcome.2)

/-- `upload_managed_workspace` as a whole. -/
def uploadCall (site : Site) (call : UploadCall) (fault : Option Fault)
    (sidecars : Sidecars site.root) (datasource : Datasource) : Datasource × Reached :=
  if call.command.sourceType ≠ "upload".toList ∨ call.filename = [] then (datasource, .refused)
  else
    match call.command.blob with
    | none => (datasource, .refused)
    | some blob =>
      if limitOr call.command.limits.maxBytes (50 * 1024 * 1024) < blob.size then
        (datasource, .refused)
      else storeAndRecord site call fault sidecars blob datasource

structure DeleteCall where
  filename : List Char
  version : Int
  deriving DecidableEq, Repr

/-- `shutil.rmtree` ended in the directory of the name at `skip`, with some files left; or
an exception after the removal and before the index is written. -/
inductive DeleteFault where
  | removing (skip : Nat) (left : Path → Bool)
  | unrecorded

def directoryNames (filename : List Char) (version : Int) : List Name :=
  let stem := PosixPath.stem (PosixPath.lastName filename)
  let names := stem :: if 1 < version then [stem ++ ".v".toList ++ (toString version).toList] else []
  names.map safeFilename

/-- Remove the directories of these names; also whether there was one. -/
def removeDirectories (root : Path) : List Name → Workspace → Workspace × Bool
  | [], workspace => (workspace, false)
  | name :: rest, workspace =>
    if isDirectory workspace (root ++ [name]) then
      ((removeDirectories root rest (rmtree workspace (root ++ [name]))).1, true)
    else removeDirectories root rest workspace

def rmtreePartly (tree : Workspace) (path : Path) (left : Path → Bool) : Workspace :=
  fun place => if path <+: place ∧ left place = false then none else tree place

def sidecarName (name : Name) : Name := name ++ ".sourcelens".toList

def removeSidecar (root : Path) (name : Name) (workspace : Workspace) : Workspace :=
  if isDirectory workspace (root ++ [sidecarName name]) then
    rmtree workspace (root ++ [sidecarName name])
  else workspace

def remainingIndex (filename : List Char) (version : Int) (fault : Option DeleteFault)
    (index : UploadIndex) : UploadIndex :=
  match fault with
  | none => removeUploadIndex filename version index
  | some _ => index

def deleteArchive (root : Path) (filename : List Char) (version : Int) (fault : Option DeleteFault)
    (datasource : Datasource) : Datasource :=
  let names := directoryNames filename version
  match fault with
  | some (.removing skip left) =>
    let cleared := (removeDirectories root (names.take skip) datasource.workspace).1
    { datasource with
      workspace := names[skip]?.elim cleared fun name =>
        rmtreePartly cleared (root ++ [name]) left }
  | _ =>
    let outcome := removeDirectories root names datasource.workspace
    ⟨outcome.1,
      if outcome.2 then remainingIndex filename version fault datasource.index
      else datasource.index⟩

def deleteFile (root : Path) (filename : List Char) (version : Int) (fault : Option DeleteFault)
    (datasource : Datasource) : Datasource :=
  let name := safeFilename filename
  match fault with
  | some (.removing _ _) => datasource
  | _ =>
    if isFile datasource.workspace (root ++ [name]) then
      ⟨removeSidecar root name (unlink datasource.workspace (root ++ [name])),
        remainingIndex filename version fault datasource.index⟩
    else datasource

def deleteDatasourceUpload (root : Path) (call : DeleteCall) (fault : Option DeleteFault)
    (datasource : Datasource) : Datasource :=
  let filename := PyText.strip PyText.isSpace call.filename
  if filename = [] then datasource
  else if isUploadArchive filename then deleteArchive root filename call.version fault datasource
  else deleteFile root filename call.version fault datasource

/-- `uploads` is history: the calls made so far. -/
structure IndexState where
  datasource : Datasource
  uploads : List UploadCall

inductive IndexAction (root : Path) where
  | upload (call : UploadCall) (fault : Option Fault) (sidecars : Sidecars root)
  | delete (call : DeleteCall) (fault : Option DeleteFault)

def IndexState.new (workspace : Workspace) : IndexState := ⟨⟨workspace, .empty⟩, []⟩

def indexStep (site : Site) (state : IndexState) : IndexAction site.root → Option IndexState
  | .upload call fault sidecars =>
    some ⟨(uploadCall site call fault sidecars state.datasource).1, state.uploads ++ [call]⟩
  | .delete call fault =>
    some { state with
      datasource := deleteDatasourceUpload site.root call fault state.datasource }

/-- What is stored at the call's place is its upload: every member, or the file. -/
structure Holds (site : Site) (workspace : Workspace) (call : UploadCall) (blob : Blob) : Prop where
  members : isUploadArchive call.filename = true →
    ∀ entry ∈ uploadEntries site.codecs call.filename blob, ∃ content, entry.content = .ok content ∧
      workspace (site.root ++ call.place :: memberParts entry.name) = some (.file content)
  file : isUploadArchive call.filename = false →
    workspace (site.root ++ [call.place]) = some (.file blob.bytes)

/-- An entry is found only where the upload of that digest is stored. -/
def Truthful (site : Site) (state : IndexState) : Prop :=
  ∀ sha256 entry, findDuplicateUpload site.root sha256 state.datasource = some entry →
    ∃ call ∈ state.uploads, ∃ blob, call.command.blob = some blob ∧
      lowered (uploadDigest site call blob) = lowered sha256 ∧
      entry.path = PosixPath.asPosix [call.place] ∧ Holds site state.datasource.workspace call blob

def listedAt (index : UploadIndex) (name : Name) : List (List Char) :=
  (index.entries.filter fun entries => entries.2.any fun entry => entry.path = name).map Prod.fst

/-- The list of members that the replacement removes names no path outside the archive's
directory. -/
def listsInside (workspace : Workspace) (target : Path) : Bool :=
  match readMarker workspace target with
  | .error _ => true
  | .ok lines => lines.all fun line =>
    decide (target <+: PosixPath.resolve (PosixPath.join target line))

def UploadCall.named (codecs : NameCodecs) (call : UploadCall) : Bool :=
  !isGenerated [call.place] &&
    (commandEntries codecs call.command).all fun entry => !isGenerated (memberParts entry.name)

/-- A call that raises leaves no entry at a place it has changed: none where it creates the
directory or begins to replace, and none of another digest where it stored everything. -/
def keepsIndex (site : Site) (datasource : Datasource) (call : UploadCall) (fault : Option Fault) :
    Reached → Bool
  | .refused => true
  | .staged => !isUploadArchive call.filename ||
      present datasource.workspace (site.root ++ [call.place]) ||
      (listedAt datasource.index call.place).isEmpty
  | .replacing => (listedAt datasource.index call.place).isEmpty
  | .stored => fault ≠ some .unrecorded ||
      (listedAt datasource.index call.place).all fun digest =>
        call.command.blob.any fun blob => digest = lowered (uploadDigest site call blob)

def Orderly (site : Site) (state : IndexState) : IndexAction site.root → Prop
  | .upload call fault sidecars =>
    call.named site.codecs = true ∧
      (isUploadArchive call.filename = true →
        listsInside state.datasource.workspace (uploadTarget site.root call.filename) = true) ∧
      keepsIndex site state.datasource call fault
        (uploadCall site call fault sidecars state.datasource).2 = true
  | .delete call (some (.removing _ _)) =>
    ∀ name ∈ directoryNames (PyText.strip PyText.isSpace call.filename) call.version,
      listedAt state.datasource.index name = []
  | .delete _ _ => True

instance (site : Site) (state : IndexState) (action : IndexAction site.root) :
    Decidable (Orderly site state action) := by
  unfold Orderly
  split <;> infer_instance

end SourceLens.UploadArchive
