import SourceLens.FeishuWorkers
import SourceLens.Library.OrderedDict

/-! One Feishu sync of a resource list: the scan, the plan, the worker threads,
the fate of absent items, and the manifest it writes. -/

namespace SourceLens.FeishuSync

open PosixPath (Name Path PlainPath)
open FileTree
open FeishuPaths
open FeishuWorkers
open Transition

inductive ScanEvent where
  | folder (folder : PlainPath) (children : List FeishuItem)
  | explicit (item : FeishuItem)
  | failure
  deriving DecidableEq

structure Pending where
  item : FeishuItem
  folder : PlainPath
  fromFolder : Bool

abbrev PendingByToken := OrderedDict Text Pending

theorem documents_plain : PosixPath.Plain ["documents".toList] := by decide

def documentsDir : PlainPath := ⟨["documents".toList], documents_plain⟩

/-- A child of a scanned folder; an explicit item of the same token moves there. -/
def collectFeishuChild (folder : PlainPath) (pending : PendingByToken) (child : FeishuItem) :
    PendingByToken :=
  if child.itemType = "folder".toList then pending
  else
    match pending.get? child.token with
    | none => pending.set child.token ⟨child, folder, true⟩
    | some existing =>
      if existing.fromFolder then pending else pending.set child.token ⟨child, folder, true⟩

def collectEvent (pending : PendingByToken) : ScanEvent → PendingByToken
  | .folder folder children => children.foldl (collectFeishuChild folder) pending
  | .explicit item =>
    match pending.get? item.token with
    | some _ => pending
    | none => pending.set item.token ⟨item, documentsDir, false⟩
  | .failure => pending

def pendingByToken (events : List ScanEvent) : PendingByToken :=
  events.foldl collectEvent OrderedDict.empty

def scanFailures (events : List ScanEvent) : Nat := events.countP (· = .failure)

def prepareFolders {α : Type} (root : Path) : List ScanEvent → Hierarchy α → Except FileError (Hierarchy α)
  | [], tree => mkdirs tree (root ++ documentsDir.parts)
  | .folder folder _ :: rest, tree =>
    match mkdirs tree (root ++ folder.parts) with
    | .error failure => .error failure
    | .ok made => prepareFolders root rest made
  | _ :: rest, tree => prepareFolders root rest tree

/-- `manifest_items_by_token`. -/
def manifestItemsByToken (manifest : List ManifestItem) : OrderedDict Text ManifestItem :=
  manifest.foldl (fun items item =>
    let token := orElse item.token item.remoteToken
    if token = [] then items else items.set token item) OrderedDict.empty

variable {α : Type}

structure Sync (α : Type) where
  events : List ScanEvent
  incremental : Bool
  deleteMissing : Bool
  downloads : Text → Option (Delivery α)
  schedule : List PoolAction

def canSkip (pending : Pending) : Bool :=
  pending.fromFolder || pending.item.metadata ≠ SyncMetadata.none

def isKept (root : Path) (sync : Sync α) (previous : OrderedDict Text ManifestItem) (tree : Hierarchy α)
    (token : Text) (pending : Pending) : Bool :=
  sync.incremental && canSkip pending &&
    feishuItemUnchanged tree pending.item (previous.get? token) (root ++ pending.folder.parts) root

def keptItems (root : Path) (sync : Sync α) (previous : OrderedDict Text ManifestItem)
    (tree : Hierarchy α) : List ManifestItem :=
  (pendingByToken sync.events).entries.filterMap fun (token, pending) =>
    if isKept root sync previous tree token pending then
      (previous.get? token).map (feishuManifestItemFromPrevious pending.item)
    else none

def pendingItems (root : Path) (sync : Sync α) (previous : OrderedDict Text ManifestItem)
    (tree : Hierarchy α) : List (Job α) :=
  (pendingByToken sync.events).entries.filterMap fun (token, pending) =>
    if isKept root sync previous tree token pending then none
    else some ⟨pending.item, pending.folder, previous.get? token, sync.downloads token⟩

def failedItem (job : Job α) : ManifestItem :=
  let blank : ManifestItem := ⟨[], [], [], [], [], [], [], [], SyncMetadata.none, none, 0⟩
  { job.previous.getD blank with
    token := job.item.token
    remoteToken := []
    name := job.item.name
    itemType := job.item.itemType
    remoteType := []
    status := some .failed }

def storedItem (config : PoolConfig) (placement : Placement α) : ManifestItem :=
  deliveredItem placement.item placement.delivery (localPathOf config placement)

inductive Fate where
  | seen
  | skipped
  | missing
  | deleted
  deriving DecidableEq, Repr

def Sync.fate (sync : Sync α) (token : Text) (item : ManifestItem) : Fate :=
  if token ∈ (pendingByToken sync.events).keys then .seen
  else if scanFailures sync.events ≠ 0 then .skipped
  else if !sync.deleteMissing then .skipped
  else if item.missingScans + 1 < 2 then .missing
  else .deleted

def absentItem (sync : Sync α) (token : Text) (item : ManifestItem) : Option ManifestItem :=
  match sync.fate token item with
  | .seen => none
  | .skipped => some { item with status := some .skipped }
  | .missing => some { item with status := some .missing, missingScans := item.missingScans + 1 }
  | .deleted => some { item with status := some .deleted }

def absentItems (sync : Sync α) (previous : OrderedDict Text ManifestItem) : List ManifestItem :=
  previous.entries.filterMap fun (token, item) => absentItem sync token item

/-- The local paths of the entries that are deleted, earlier tombstones included. -/
def deletedPaths (sync : Sync α) (previous : OrderedDict Text ManifestItem) : List Text :=
  previous.entries.filterMap fun (token, item) =>
    if sync.fate token item = .deleted ∧ item.localPath ≠ [] then some item.localPath else none

/-- `_delete_manifest_file`: only a file below the root is unlinked. -/
def deleteManifestFile (root : Path) (tree : Hierarchy α) (localPath : Text) : Hierarchy α × Option Path :=
  let path := fileOf root localPath
  if root <+: path && isFile tree path then (unlink tree path, some path) else (tree, none)

def deleteManifestFiles (root : Path) : List Text → Hierarchy α → Hierarchy α × List Path
  | [], tree => (tree, [])
  | localPath :: rest, tree =>
    let (left, removed) := deleteManifestFile root tree localPath
    let (final, others) := deleteManifestFiles root rest left
    (final, removed.toList ++ others)

def manifestItems (config : PoolConfig) (sync : Sync α) (previous : OrderedDict Text ManifestItem)
    (tree : Hierarchy α) (pool : Pool α) : List ManifestItem :=
  keptItems config.root.parts sync previous tree ++
    (pool.stored.map (storedItem config) ++ pool.refused.map failedItem) ++
    absentItems sync previous

/-- An entry as it comes back from `_manifest_item_to_sync_item` and `to_manifest`. -/
def rebuiltItem (item : ManifestItem) : ManifestItem :=
  let kind := orElse item.kind (orElse item.itemType "file".toList)
  { item with
    token := item.remoteToken
    name := orElse item.name (PosixPath.lastName item.localPath)
    kind := kind
    itemType := kind
    fileExtension := orElse item.fileExtension (extensionOf item.localPath)
    status := some (item.status.getD .synced) }

/-- `build_manifest` of the items that have a local path; without any the manifest of
the adapter stays. -/
def buildManifest (items : List ManifestItem) : List ManifestItem :=
  let syncItems := items.filter (·.localPath ≠ [])
  if syncItems = [] then items else syncItems.map rebuiltItem

/-- Nothing was stored or skipped although something failed: the sync raises after its
first manifest. -/
def raisesAllFailed (sync : Sync α) (previous : OrderedDict Text ManifestItem)
    (kept : List ManifestItem) (pool : Pool α) : Bool :=
  let counted := previous.entries.countP fun (token, item) =>
    sync.fate token item = .missing ||
      (sync.fate token item = .skipped && scanFailures sync.events = 0)
  pool.stored.length + kept.length + counted = 0 &&
    0 < pool.refused.length + scanFailures sync.events

/-- A datasource directory with its manifest, the files the last sync removed, and
whether it wrote its manifest with every download done. -/
structure Datasource (α : Type) where
  tree : Hierarchy α
  manifest : List ManifestItem
  removed : List Path
  clean : Bool

def finishSync (config : PoolConfig) (sync : Sync α) (previous : OrderedDict Text ManifestItem)
    (tree : Hierarchy α) (pool : Pool α) : Datasource α :=
  let items := manifestItems config sync previous tree pool
  let (left, removed) :=
    deleteManifestFiles config.root.parts (deletedPaths sync previous) pool.tree
  let raised :=
    raisesAllFailed sync previous (keptItems config.root.parts sync previous tree) pool
  { tree := left
    manifest := if raised then items else buildManifest items
    removed := removed
    clean := pool.refused.isEmpty }

/-- `_sync_feishu_resources` and the manifest `sync_datasource` writes after it. A sync
that raises before its end leaves the manifest alone. -/
def syncFeishuResources (config : PoolConfig) (datasource : Datasource α) (sync : Sync α) :
    Option (Datasource α) :=
  let previous := manifestItemsByToken datasource.manifest
  match prepareFolders config.root.parts sync.events datasource.tree with
  | .error _ => some { datasource with removed := [], clean := false }
  | .ok tree =>
    let jobs := pendingItems config.root.parts sync previous tree
    (exec (poolStep config) (Pool.start tree jobs) sync.schedule).map fun pool =>
      if pool.complete then finishSync config sync previous tree pool
      else ⟨pool.tree, datasource.manifest, [], false⟩

end SourceLens.FeishuSync
