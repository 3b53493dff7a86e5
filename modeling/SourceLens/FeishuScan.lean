import SourceLens.FeishuPaths
import SourceLens.Library.OrderedDict
import SourceLens.Library.Transition

/-! The scan of a Feishu resource list: a queue of folders and explicit documents that
a thread pool lists batch by batch, in any order of completion. -/

namespace SourceLens.FeishuScan

open PosixPath (Path)
open FeishuPaths
open PathRules (safeFilename)
open Transition

structure Resource where
  kind : Text
  token : Text
  deriving DecidableEq, Repr

/-- What the Drive answers: the children of a folder, and the item of an explicit
resource; nothing where the request fails. -/
structure Drive where
  listing : Text → Option (List FeishuItem)
  explicit : Resource → Option FeishuItem

structure ScanConfig where
  drive : Drive
  resources : List Resource
  target : Path
  recursive : Bool
  maxDepth : Nat
  maxWorkers : Nat
  maxItems : Nat

def workers (config : ScanConfig) : Nat := max 1 config.maxWorkers

inductive ScanTask where
  | folder (token : Text) (dir : Path) (depth : Nat) (root : Text)
  | explicit (resource : Resource)
  deriving DecidableEq, Repr

structure Planned where
  item : FeishuItem
  targetDir : Path
  roots : List Text
  fromFolder : Bool
  deriving DecidableEq, Repr

structure Scan where
  queue : List ScanTask
  inFlight : List ScanTask
  scannedFolders : List Text
  pending : OrderedDict Text Planned
  seen : List Text
  scanFailures : List Text
  scanned : Nat
  raised : Bool

def isFolder (item : FeishuItem) : Bool := item.itemType = "folder".toList

def Resource.isFolder (resource : Resource) : Bool := resource.kind = "folder".toList

def folderRoot (token : Text) : Text := "folder:".toList ++ token

def Resource.rootId (resource : Resource) : Text := resource.kind ++ ':' :: resource.token

def addRoot (roots : List Text) (root : Text) : List Text :=
  if root ∈ roots then roots else roots ++ [root]

/-- `_collect_feishu_folder_children`, for one child. -/
def collectChild (config : ScanConfig) (dir : Path) (depth : Nat) (root : Text) (scan : Scan)
    (child : FeishuItem) : Scan :=
  if isFolder child then
    { scan with
      scanned := scan.scanned + 1
      queue := if config.recursive && depth < config.maxDepth then
          scan.queue ++ [.folder child.token (dir ++ [safeFilename child.name]) (depth + 1) root]
        else scan.queue }
  else
    { scan with
      scanned := if child.token ∈ scan.seen then scan.scanned else scan.scanned + 1
      seen := if child.token ∈ scan.seen then scan.seen else scan.seen ++ [child.token]
      pending := scan.pending.set child.token <|
        match scan.pending.get? child.token with
        | none => ⟨child, dir, [folderRoot root], true⟩
        | some existing =>
          if existing.fromFolder then
            { existing with roots := addRoot existing.roots (folderRoot root) }
          else ⟨child, dir, addRoot existing.roots (folderRoot root), true⟩ }

/-- The item limit is checked after every child; a token that was seen before leaves the
count as it was. -/
def collectFeishuFolderChildren (config : ScanConfig) (dir : Path) (depth : Nat) (root : Text) :
    List FeishuItem → Scan → Option Scan
  | [], scan => some scan
  | child :: rest, scan =>
    let next := collectChild config dir depth root scan child
    if config.maxItems < next.scanned then none
    else collectFeishuFolderChildren config dir depth root rest next

def planExplicit (config : ScanConfig) (resource : Resource) (item : FeishuItem) (scan : Scan) :
    Option Scan :=
  match scan.pending.get? item.token with
  | some existing =>
    some { scan with
      pending := scan.pending.set item.token
        { existing with roots := addRoot existing.roots resource.rootId } }
  | none =>
    let next := { scan with
      pending := scan.pending.set item.token
        ⟨item, config.target ++ ["documents".toList], [resource.rootId], false⟩
      seen := scan.seen ++ [item.token]
      scanned := scan.scanned + 1 }
    if config.maxItems < next.scanned then none else some next

/-- One turn of the loop that fills a batch: a folder that was scanned before is dropped. -/
def popTask (scan : Scan) (task : ScanTask) (rest : List ScanTask) : Scan :=
  match task with
  | .folder token _ _ _ =>
    if token ∈ scan.scannedFolders then { scan with queue := rest }
    else { scan with
      queue := rest
      inFlight := scan.inFlight ++ [task]
      scannedFolders := token :: scan.scannedFolders }
  | .explicit _ => { scan with queue := rest, inFlight := scan.inFlight ++ [task] }

def takeBatch (config : ScanConfig) : List ScanTask → Scan → Scan
  | [], scan => scan
  | task :: rest, scan =>
    if scan.inFlight.length < workers config then takeBatch config rest (popTask scan task rest)
    else scan

def completeTask (config : ScanConfig) (scan : Scan) : ScanTask → Scan
  | .folder token dir depth root =>
    match config.drive.listing token with
    | none => { scan with scanFailures := scan.scanFailures ++ [token] }
    | some children =>
      (collectFeishuFolderChildren config dir depth root children scan).getD
        { scan with raised := true }
  | .explicit resource =>
    match config.drive.explicit resource with
    | none => { scan with scanFailures := scan.scanFailures ++ [resource.token] }
    | some item => (planExplicit config resource item scan).getD { scan with raised := true }

inductive ScanAction where
  | batch
  | complete (task : ScanTask)
  deriving DecidableEq, Repr

/-- A batch starts when the one before it has completed; its tasks complete in any order. -/
def scanStep (config : ScanConfig) (scan : Scan) : ScanAction → Option Scan
  | .batch =>
    if scan.raised = false ∧ scan.inFlight = [] ∧ scan.queue ≠ [] then
      some (takeBatch config scan.queue scan)
    else none
  | .complete task =>
    if scan.raised = false ∧ task ∈ scan.inFlight then
      some (completeTask config { scan with inFlight := scan.inFlight.erase task } task)
    else none

def resourceTask (config : ScanConfig) (resource : Resource) : ScanTask :=
  if resource.isFolder then
    .folder resource.token (config.target ++ ["folders".toList, safeFilename resource.token]) 1
      resource.token
  else .explicit resource

def Scan.start (config : ScanConfig) : Scan :=
  ⟨config.resources.map (resourceTask config), [], [], OrderedDict.empty, [], [], 0, false⟩

def Ended (scan : Scan) : Prop := scan.raised = true ∨ (scan.queue = [] ∧ scan.inFlight = [])

def rootsOf (scan : Scan) (token : Text) : List Text :=
  match scan.pending.get? token with
  | some planned => planned.roots
  | none => []

inductive FolderAt (config : ScanConfig) : Text → Nat → Prop
  | root (resource : Resource) (listed : resource ∈ config.resources) (folder : resource.isFolder) :
      FolderAt config resource.token 1
  | child (parent : Text) (depth : Nat) (children : List FeishuItem) (child : FeishuItem)
      (above : FolderAt config parent depth) (deeper : config.recursive)
      (within : depth < config.maxDepth) (page : config.drive.listing parent = some children)
      (listed : child ∈ children) (folder : isFolder child) : FolderAt config child.token (depth + 1)

/-- An item is listed within the depth bound of a root by some path, or named itself. -/
inductive WithinDepth (config : ScanConfig) : Text → Prop
  | folder (parent : Text) (depth : Nat) (children : List FeishuItem) (child : FeishuItem)
      (above : FolderAt config parent depth) (page : config.drive.listing parent = some children)
      (listed : child ∈ children) (item : isFolder child = false) : WithinDepth config child.token
  | explicit (resource : Resource) (item : FeishuItem) (listed : resource ∈ config.resources)
      (named : resource.isFolder = false) (found : config.drive.explicit resource = some item) :
      WithinDepth config item.token

/-- Every order of completion ends, ends the same way, with the same tokens and the same
roots for each, and sees every item within the depth bound. -/
structure SamePlan (config : ScanConfig) : Prop where
  finishes : ∀ scan, Reachable (scanStep config) (Scan.start config) scan →
    ∃ final, Reachable (scanStep config) scan final ∧ Ended final
  raised : ∀ first second, Reachable (scanStep config) (Scan.start config) first → Ended first →
    Reachable (scanStep config) (Scan.start config) second → Ended second →
    first.raised = second.raised
  tokens : ∀ first second, Reachable (scanStep config) (Scan.start config) first → Ended first →
    Reachable (scanStep config) (Scan.start config) second → Ended second →
    first.raised = false → ∀ token, token ∈ first.seen ↔ token ∈ second.seen
  roots : ∀ first second, Reachable (scanStep config) (Scan.start config) first → Ended first →
    Reachable (scanStep config) (Scan.start config) second → Ended second →
    first.raised = false → ∀ token root, root ∈ rootsOf first token ↔ root ∈ rootsOf second token
  covered : ∀ final, Reachable (scanStep config) (Scan.start config) final → Ended final →
    final.raised = false → ∀ token, WithinDepth config token → token ∈ final.seen

/-- A way to a folder that meets no folder twice, the last folder first. -/
inductive Trail (config : ScanConfig) : List Text → Prop
  | root (resource : Resource) (listed : resource ∈ config.resources) (folder : resource.isFolder) :
      Trail config [resource.token]
  | child (parent : Text) (above : List Text) (children : List FeishuItem) (child : FeishuItem)
      (way : Trail config (parent :: above)) (deeper : config.recursive)
      (within : (parent :: above).length < config.maxDepth)
      (page : config.drive.listing parent = some children) (listed : child ∈ children)
      (folder : isFolder child) (fresh : child.token ∉ parent :: above) :
      Trail config (child.token :: parent :: above)

def trailRoot (trail : List Text) : Text := trail.getLastD []

/-- Which trail reaches a folder first makes no difference: all its trails start at one
root, and a trail of full length ends at no folder below which a shorter one goes on. -/
structure Unambiguous (config : ScanConfig) : Prop where
  oneRoot : ∀ folder first second, Trail config (folder :: first) → Trail config (folder :: second) →
    trailRoot (folder :: first) = trailRoot (folder :: second)
  deepEnough : ∀ below folder first second, Trail config (folder :: first) →
    Trail config (below :: folder :: second) → (folder :: first).length < config.maxDepth

end SourceLens.FeishuScan
