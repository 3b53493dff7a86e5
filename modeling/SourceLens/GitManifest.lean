import SourceLens.Library.OrderedDict
import SourceLens.Library.PosixPath

/-! The files of a Git datasource against the manifest of the sync before: items are
matched by source id, which names URL and branch, and reported by local path. -/

namespace SourceLens.GitManifest

open List

/-- `first or second or ... or ""`. -/
def firstOf : List (Option String) → String
  | [] => ""
  | some text :: rest => if text = "" then firstOf rest else text
  | none :: rest => firstOf rest

/-- The entries of a manifest item that are read here; `size` and `sha256` are those of its
`metadata`, as text. -/
structure ManifestItem where
  sourceId : Option String := none
  token : Option String := none
  localPath : Option String := none
  file : Option String := none
  sourceType : Option String := none
  extension : Option String := none
  fileExtension : Option String := none
  size : Option String := none
  sha256 : Option String := none

/-- `manifest_local_path` -/
def ManifestItem.path (item : ManifestItem) : String := firstOf [item.localPath, item.file]

def manifestSourceId (item : ManifestItem) : String :=
  let token := firstOf [item.token]
  firstOf [item.sourceId, if token = "" then none else some ("feishu:token:" ++ token),
    item.localPath, item.file]

def manifestItemsBySourceId (items : List ManifestItem) : OrderedDict String ManifestItem :=
  items.foldl (fun result item =>
    if manifestSourceId item = "" then result else result.set (manifestSourceId item) item) .empty

inductive Status
  | synced
  | skipped
  deriving DecidableEq

/-- `SyncItem` of a Git file. -/
structure SyncItem where
  sourceId : String
  localPath : String
  extension : String
  size : String
  sha256 : String
  status : Status
  deriving DecidableEq

def SyncItem.toManifest (item : SyncItem) : ManifestItem where
  sourceId := some item.sourceId
  localPath := some item.localPath
  file := some item.localPath
  sourceType := some "git"
  extension := some item.extension
  fileExtension := some item.extension
  size := some item.size
  sha256 := some item.sha256

/-- `_git_item_signature` -/
structure Signature where
  sourceType : String
  localPath : String
  extension : String
  size : String
  sha256 : String
  deriving DecidableEq

def gitItemSignature (item : ManifestItem) : Signature where
  sourceType := firstOf [item.sourceType, some "git"]
  localPath := item.path
  extension := firstOf [item.extension, item.fileExtension]
  size := firstOf [item.size]
  sha256 := firstOf [item.sha256]

structure GitFile where
  path : String
  size : Nat
  sha256 : String

structure Checkout where
  files : List GitFile
  distinct : (files.map (·.path)).Nodup
  named : ∀ file ∈ files, file.path ≠ ""

/-- `path.suffix.lower().lstrip(".")` -/
def extensionOf (lower : List Char → List Char) (path : String) : String :=
  let name := (path.toList.reverse.takeWhile (· ≠ '/')).reverse
  String.ofList ((lower (PosixPath.suffix name)).dropWhile (· = '.'))

def sourceIdOf (repoUrl branch path : String) : String :=
  "git:" ++ repoUrl ++ ":" ++ branch ++ ":" ++ path

def syncItem (lower : List Char → List Char) (repoUrl branch : String) (file : GitFile) :
    SyncItem where
  sourceId := sourceIdOf repoUrl branch file.path
  localPath := file.path
  extension := extensionOf lower file.path
  size := toString file.size
  sha256 := file.sha256
  status := .synced

def gitManifestItems (lower : List Char → List Char) (repoUrl branch : String)
    (checkout : Checkout) : List SyncItem :=
  checkout.files.map (syncItem lower repoUrl branch)

/-- The previous item under the source id has the same signature. -/
def unchanged (previous : OrderedDict String ManifestItem) (item : SyncItem) : Bool :=
  match previous.get? item.sourceId with
  | some old => decide (gitItemSignature item.toManifest = gitItemSignature old)
  | none => false

structure Delta where
  items : List SyncItem
  changedPaths : List String
  deletedPaths : List String
  skipped : Nat

def gitManifestDelta (items : List SyncItem) (previous : OrderedDict String ManifestItem) :
    Delta where
  items := items.map fun item =>
    if unchanged previous item then { item with status := .skipped } else item
  changedPaths := (items.filter fun item => !unchanged previous item).map (·.localPath)
  deletedPaths :=
    ((previous.entries.filter fun entry => !items.any fun item => item.sourceId = entry.1).map
      fun entry => entry.2.path).filter (· ≠ "")
  skipped := (items.filter (unchanged previous)).length

def SameContent (item : SyncItem) (old : ManifestItem) : Prop :=
  old.path = item.localPath ∧ firstOf [old.size] = firstOf [some item.size] ∧
    firstOf [old.sha256] = firstOf [some item.sha256]

/-- No file that is there is reported deleted, and one is reported changed if no previous
item has its path and content. -/
structure Exact (items : List SyncItem) (previous : OrderedDict String ManifestItem) : Prop where
  disjoint : ∀ path ∈ (gitManifestDelta items previous).deletedPaths,
    path ∉ items.map (·.localPath)
  changed : ∀ item ∈ items, item.localPath ∈ (gitManifestDelta items previous).changedPaths ↔
    ¬ ∃ old ∈ previous.values, SameContent item old

/-- The previous items at current paths are under current source ids, and a file whose
content is known is known under its own. -/
structure FiledAlike (items : List SyncItem) (previous : OrderedDict String ManifestItem) :
    Prop where
  current : ∀ entry ∈ previous.entries, entry.2.path ∈ items.map (·.localPath) →
    entry.1 ∈ items.map (·.sourceId)
  own : ∀ item ∈ items, ∀ old ∈ previous.values, SameContent item old →
    ∃ filed, previous.get? item.sourceId = some filed ∧
      gitItemSignature filed = gitItemSignature item.toManifest

variable {lower : List Char → List Char} {repoUrl branch : String} {checkout before : Checkout}
  {items : List SyncItem} {previous : OrderedDict String ManifestItem} {item : SyncItem}

theorem unchanged_iff : unchanged previous item = true ↔
    ∃ filed, previous.get? item.sourceId = some filed ∧
      gitItemSignature filed = gitItemSignature item.toManifest := by
  unfold unchanged
  cases previous.get? item.sourceId with
  | none => simp
  | some filed => simp [eq_comm]

theorem mem_deletedPaths {path : String} :
    path ∈ (gitManifestDelta items previous).deletedPaths ↔
      path ≠ "" ∧ ∃ entry ∈ previous.entries, entry.2.path = path ∧
        entry.1 ∉ items.map (·.sourceId) := by
  simp only [gitManifestDelta, mem_filter, mem_map, decide_eq_true_eq,
    Bool.not_eq_true', any_eq_false, not_exists, not_and]
  constructor
  · rintro ⟨⟨entry, ⟨member, absent⟩, rfl⟩, named⟩
    exact ⟨named, entry, member, rfl, absent⟩
  · rintro ⟨named, entry, member, rfl, absent⟩
    exact ⟨⟨entry, ⟨member, absent⟩, rfl⟩, named⟩

theorem mem_changedPaths (distinct : (items.map (·.localPath)).Nodup) (listed : item ∈ items) :
    item.localPath ∈ (gitManifestDelta items previous).changedPaths ↔
      unchanged previous item = false := by
  simp only [gitManifestDelta, mem_map, mem_filter, Bool.not_eq_true']
  constructor
  · rintro ⟨other, ⟨member, changed⟩, same⟩
    cases inj_on_of_nodup_map distinct member listed same
    exact changed
  · intro changed
    exact ⟨item, ⟨listed, changed⟩, rfl⟩

theorem sameContent_of_signature {old : ManifestItem}
    (same : gitItemSignature old = gitItemSignature item.toManifest) (named : item.localPath ≠ "") :
    SameContent item old := by
  refine ⟨?_, congrArg Signature.size same, congrArg Signature.sha256 same⟩
  have path := congrArg Signature.localPath same
  simpa [gitItemSignature, ManifestItem.path, SyncItem.toManifest, firstOf, named] using path

theorem exact_iff (distinct : (items.map (·.localPath)).Nodup)
    (named : ∀ item ∈ items, item.localPath ≠ "") :
    Exact items previous ↔ FiledAlike items previous := by
  constructor
  · intro exact
    constructor
    · intro entry member listed
      by_contra absent
      obtain ⟨item, present, same⟩ := mem_map.mp listed
      have deleted := mem_deletedPaths.mpr ⟨same ▸ named item present, entry, member, rfl, absent⟩
      exact exact.disjoint _ deleted listed
    · intro item present old member content
      have kept := (exact.changed item present).not.mpr (not_not.mpr ⟨old, member, content⟩)
      rw [mem_changedPaths distinct present, Bool.not_eq_false] at kept
      exact unchanged_iff.mp kept
  · intro filed
    constructor
    · intro path deleted listed
      obtain ⟨-, entry, member, rfl, absent⟩ := mem_deletedPaths.mp deleted
      exact absent (filed.current entry member listed)
    · intro item present
      rw [mem_changedPaths distinct present, ← Bool.not_eq_true, not_iff_not, unchanged_iff]
      constructor
      · intro same
        obtain ⟨old, found, signature⟩ := same
        have value : old ∈ previous.values :=
          mem_map.mpr ⟨_, OrderedDict.mem_of_get? found, rfl⟩
        exact ⟨old, value, sameContent_of_signature signature (named item present)⟩
      · rintro ⟨old, member, content⟩
        exact filed.own item present old member content

theorem gitManifestItems_paths :
    (gitManifestItems lower repoUrl branch checkout).map (·.localPath) =
      checkout.files.map (·.path) := by
  simp [gitManifestItems, syncItem, Function.comp_def]

theorem gitManifestItems_named (listed : item ∈ gitManifestItems lower repoUrl branch checkout) :
    item.localPath ≠ "" := by
  obtain ⟨file, member, rfl⟩ := mem_map.mp listed
  exact checkout.named file member

theorem gitManifestItems_own (listed : item ∈ gitManifestItems lower repoUrl branch checkout) :
    item.sourceId = sourceIdOf repoUrl branch item.localPath ∧
      item.extension = extensionOf lower item.localPath := by
  obtain ⟨file, -, rfl⟩ := mem_map.mp listed
  exact ⟨rfl, rfl⟩

theorem sourceIdOf_ne_empty (repoUrl branch path : String) : sourceIdOf repoUrl branch path ≠ "" := by
  intro empty
  have length := congrArg String.length empty
  simp [sourceIdOf] at length

theorem manifestSourceId_toManifest (listed : item ∈ gitManifestItems lower repoUrl branch checkout) :
    manifestSourceId item.toManifest = item.sourceId := by
  have named : item.sourceId ≠ "" :=
    (gitManifestItems_own listed).1 ▸ sourceIdOf_ne_empty repoUrl branch item.localPath
  simp [manifestSourceId, SyncItem.toManifest, firstOf, named]

theorem mem_manifestItemsBySourceId {manifest : List ManifestItem} {entry : String × ManifestItem}
    (member : entry ∈ (manifestItemsBySourceId manifest).entries) :
    entry.2 ∈ manifest ∧ entry.1 = manifestSourceId entry.2 := by
  suffices general : ∀ (before : OrderedDict String ManifestItem),
      entry ∈ (manifest.foldl (fun result item =>
        if manifestSourceId item = "" then result else result.set (manifestSourceId item) item)
          before).entries →
      entry ∈ before.entries ∨ entry.2 ∈ manifest ∧ entry.1 = manifestSourceId entry.2 by
    rcases general .empty member with absent | found
    · cases absent
    · exact found
  clear member
  induction manifest with
  | nil => exact fun _ member => .inl member
  | cons item rest ih =>
    intro before member
    rw [foldl_cons] at member
    rcases ih _ member with early | ⟨later, own⟩
    · split at early
      · exact .inl early
      · rcases OrderedDict.mem_set.mp early with rfl | ⟨old, -⟩
        · exact .inr ⟨mem_cons_self .., rfl⟩
        · exact .inl old
    · exact .inr ⟨mem_cons_of_mem _ later, own⟩

theorem filedAlike_of_same :
    FiledAlike (gitManifestItems lower repoUrl branch checkout) (manifestItemsBySourceId
      ((gitManifestItems lower repoUrl branch before).map SyncItem.toManifest)) := by
  -- An entry at the path of a current item has its key.
  have keyed : ∀ entry ∈ (manifestItemsBySourceId ((gitManifestItems lower repoUrl branch
      before).map SyncItem.toManifest)).entries, ∀ item ∈ gitManifestItems lower repoUrl branch
        checkout, entry.2.path = item.localPath → entry.1 = item.sourceId ∧
          gitItemSignature entry.2 = { gitItemSignature item.toManifest with
            size := firstOf [entry.2.size], sha256 := firstOf [entry.2.sha256] } := by
    intro entry member item listed same
    obtain ⟨stored, own⟩ := mem_manifestItemsBySourceId member
    obtain ⟨old, wrote, equal⟩ := mem_map.mp stored
    have path : old.localPath = item.localPath := by
      rw [← equal] at same
      simpa [ManifestItem.path, SyncItem.toManifest, firstOf, gitManifestItems_named wrote] using
        same
    constructor
    · rw [own, ← equal, manifestSourceId_toManifest wrote, (gitManifestItems_own wrote).1, path,
        (gitManifestItems_own listed).1]
    · rw [← equal]
      simp only [gitItemSignature, SyncItem.toManifest, ManifestItem.path, path,
        (gitManifestItems_own wrote).2, (gitManifestItems_own listed).2]
  constructor
  · intro entry member listed
    obtain ⟨item, present, same⟩ := mem_map.mp listed
    exact mem_map.mpr ⟨item, present, (keyed entry member item present same.symm).1.symm⟩
  · intro item present old member content
    obtain ⟨entry, inside, rfl⟩ := mem_map.mp member
    obtain ⟨key, signature⟩ := keyed entry inside item present content.1
    refine ⟨entry.2, OrderedDict.get?_of_mem (key ▸ inside), ?_⟩
    rw [signature, content.2.1, content.2.2]
    rfl

/-- For every previous manifest: the delta of a checkout is exact if and only if the
previous items are filed as its own are. The manifest written for the same URL and branch
files them so. -/
theorem git_delta_exact (lower : List Char → List Char) (repoUrl branch : String)
    (checkout : Checkout) :
    (∀ previous, Exact (gitManifestItems lower repoUrl branch checkout) previous ↔
      FiledAlike (gitManifestItems lower repoUrl branch checkout) previous) ∧
    ∀ before, FiledAlike (gitManifestItems lower repoUrl branch checkout)
      (manifestItemsBySourceId
        ((gitManifestItems lower repoUrl branch before).map SyncItem.toManifest)) := by
  refine ⟨fun previous => exact_iff ?_ fun item => gitManifestItems_named,
    fun before => filedAlike_of_same⟩
  rw [gitManifestItems_paths]
  exact checkout.distinct

def sampleCheckout : Checkout where
  files := [⟨"a", 1, "d"⟩]
  distinct := by decide
  named := by decide

/-- The branch changes and the file stays: it is reported changed and deleted. -/
theorem branch_change_deletes_file :
    ¬ Exact (gitManifestItems id "u" "b" sampleCheckout) (manifestItemsBySourceId
      ((gitManifestItems id "u" "c" sampleCheckout).map SyncItem.toManifest)) := by
  intro exact
  refine exact.disjoint "a" (mem_deletedPaths.mpr ⟨by decide, ?_⟩) (by decide)
  exact ⟨_, mem_singleton.mpr rfl, by decide, by decide⟩

end SourceLens.GitManifest
