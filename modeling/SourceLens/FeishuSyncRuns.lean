import SourceLens.FeishuSync

/-! Every sequence of Feishu syncs: which files a sync removes, and which files the
live entries of its manifest have. -/

namespace SourceLens.FeishuSync

open List Bool
open PosixPath (Name Path PlainPath)
open FileTree
open FeishuPaths
open FeishuWorkers
open Transition

variable {α : Type}

variable {config : PoolConfig} {pool : Pool α} {places : List Path} {jobs : List (Job α)}
  {before : Hierarchy α}

structure Delivered (config : PoolConfig) (places : List Path) (jobs : List (Job α))
    (before : Hierarchy α) (pool : Pool α) : Prop where
  waiting : ∀ job ∈ pool.waiting, job ∈ jobs
  refused : ∀ job ∈ pool.refused, job ∈ jobs ∧ job.delivery = none
  chosen : ∀ placement ∈ pool.chosen, placement.path ∉ places
  stored : ∀ placement ∈ pool.stored,
    placement.path ∉ places ∧ isFile pool.tree placement.path = true
  files : ∀ path, isFile before path = true → isFile pool.tree path = true

theorem findJob_mem (pool : Pool α) (token : Text) (job : Job α)
    (found : findJob pool token = some job) : job ∈ pool.waiting :=
  mem_of_find?_eq_some found

theorem Delivered.choose (delivered : Delivered config places jobs before pool) (token : Text)
    (placement : Placement α) (clear : placement.path ∉ places) :
    Delivered config places jobs before { pool with
      waiting := pool.waiting.eraseP (·.item.token = token)
      chosen := pool.chosen ++ [placement] } := by
  refine ⟨?_, delivered.refused, ?_, delivered.stored, delivered.files⟩
  · exact fun other member => delivered.waiting other (mem_of_mem_eraseP member)
  · intro other member
    rcases mem_append.mp member with earlier | new
    · exact delivered.chosen other earlier
    · rw [mem_singleton.mp new]
      exact clear

theorem Delivered.refuse (delivered : Delivered config places jobs before pool) (token : Text)
    {job : Job α} (found : findJob pool token = some job) (given : job.delivery = none) :
    Delivered config places jobs before { pool with
      waiting := pool.waiting.eraseP (·.item.token = token)
      refused := pool.refused ++ [job] } := by
  refine ⟨?_, ?_, delivered.chosen, delivered.stored, delivered.files⟩
  · exact fun other member => delivered.waiting other (mem_of_mem_eraseP member)
  · intro other member
    rcases mem_append.mp member with earlier | new
    · exact delivered.refused other earlier
    · rw [mem_singleton.mp new]
      exact ⟨delivered.waiting job (findJob_mem pool token job found), given⟩

theorem Delivered.store (delivered : Delivered config places jobs before pool) (token : Text)
    {placement : Placement α} (found : findChosen pool token = some placement) :
    Delivered config places jobs before { pool with
      tree := put pool.tree placement.path (some (.file placement.delivery.content))
      chosen := pool.chosen.eraseP (·.item.token = token)
      stored := pool.stored ++ [placement] } := by
  refine ⟨delivered.waiting, delivered.refused, ?_, ?_, ?_⟩
  · exact fun other member => delivered.chosen other (mem_of_mem_eraseP member)
  · intro other member
    rcases mem_append.mp member with earlier | new
    · rcases delivered.stored other earlier with ⟨apart, there⟩
      exact ⟨apart, isFile_put _ _ _ _ (.inr there)⟩
    · rw [mem_singleton.mp new]
      exact ⟨delivered.chosen placement (findChosen_mem pool token placement found),
        isFile_put _ _ _ _ (.inl rfl)⟩
  · exact fun path there => isFile_put _ _ _ _ (.inr (delivered.files path there))

theorem Delivered.crash {next : Pool α} (delivered : Delivered config places jobs before pool)
    (waiting : next.waiting = pool.waiting) (refused : next.refused = pool.refused)
    (chosen : ∀ placement ∈ next.chosen, placement ∈ pool.chosen)
    (stored : next.stored = pool.stored)
    (grown : ∀ path, isFile pool.tree path = true → isFile next.tree path = true) :
    Delivered config places jobs before next where
  waiting := waiting ▸ delivered.waiting
  refused := refused ▸ delivered.refused
  chosen := fun placement member => delivered.chosen placement (chosen placement member)
  stored := by
    rw [stored]
    intro placement member
    rcases delivered.stored placement member with ⟨apart, there⟩
    exact ⟨apart, grown placement.path there⟩
  files := fun path there => grown path (delivered.files path there)

theorem poolStep_delivered (config : PoolConfig) (places : List Path) (jobs : List (Job α))
    (before : Hierarchy α) (pool next : Pool α) (action : PoolAction)
    (delivered : Delivered config places jobs before pool)
    (allowed : ClearChoice config places pool action)
    (taken : poolStep config pool action = some next) :
    Delivered config places jobs before next := by
  cases action with
  | choose token =>
    rcases choosePath_some config pool next token taken with ⟨job, delivery, found, given, rfl⟩
    have clear := (clear_iff _ _ _ _ _ _ _ _).mp (allowed job found delivery given)
    exact delivered.choose token _ clear
  | refuse token =>
    rcases refuseJob_some pool next token taken with ⟨job, found, given, rfl⟩
    exact delivered.refuse token found given
  | store token =>
    rcases storeContent_some config pool next token taken with ⟨placement, found, crashed | done⟩
    · rcases crashed with ⟨_, chosen, waiting, stored, refused, tree⟩
      apply delivered.crash waiting refused _ stored
      · intro path there
        rcases tree with same | written
        · rw [same]
          exact there
        · rw [written]
          exact isFile_put _ _ _ _ (.inr there)
      · intro other member
        rw [chosen] at member
        exact mem_of_mem_eraseP member
    · rcases done with ⟨_, rfl⟩
      exact delivered.store token found

theorem run_delivered (config : PoolConfig) (places : List Path) (jobs : List (Job α))
    (before : Hierarchy α) (actions : List PoolAction) (finish : Pool α)
    (run : Steps (poolStep config) (ClearChoice config places) (Pool.start before jobs) actions
      finish) : Delivered config places jobs before finish := by
  apply run.invariant (Delivered config places jobs before)
  · intro pool action next delivered allowed taken
    exact poolStep_delivered config places jobs before pool next action delivered allowed taken
  · refine ⟨fun _ member => member, ?_, ?_, ?_, fun _ there => there⟩
    · nofun
    · nofun
    · nofun

theorem run_located (config : PoolConfig) (guard : Pool α → PoolAction → Prop) (jobs : List (Job α))
    (before : Hierarchy α) (actions : List PoolAction) (finish : Pool α)
    (run : Steps (poolStep config) guard (Pool.start before jobs) actions finish) :
    Located config finish := by
  apply run.invariant (Located config)
  · intro pool action next located _ taken
    exact poolStep_located config pool next action located taken
  · constructor
    · nofun
    · nofun

variable (root : Path) (sync : Sync α) (previous : OrderedDict Text ManifestItem)
  (tree : Hierarchy α) (token : Text)

theorem deleteManifestFile_cases (localPath : Text) :
    deleteManifestFile root tree localPath =
        (unlink tree (fileOf root localPath), some (fileOf root localPath)) ∨
      deleteManifestFile root tree localPath = (tree, none) := by
  unfold deleteManifestFile
  dsimp only
  split
  · exact .inl rfl
  · exact .inr rfl

theorem deleteManifestFiles_spares (localPaths : List Text) (tree : Hierarchy α)
    (path : Path) (apart : path ∉ localPaths.map (fileOf root)) :
    (deleteManifestFiles root localPaths tree).1 path = tree path := by
  induction localPaths generalizing tree with
  | nil => rfl
  | cons localPath rest ih =>
    rw [map_cons] at apart
    have later := ih (deleteManifestFile root tree localPath).1
      (not_mem_of_not_mem_cons apart)
    refine later.trans ?_
    rcases deleteManifestFile_cases root tree localPath with removed | left
    · rw [removed]
      exact put_other tree _ path none (ne_of_not_mem_cons apart)
    · rw [left]

theorem deleteManifestFiles_removed (localPaths : List Text) (tree : Hierarchy α) :
    ∀ path ∈ (deleteManifestFiles root localPaths tree).2, path ∈ localPaths.map (fileOf root) := by
  induction localPaths generalizing tree with
  | nil => exact fun _ member => member
  | cons localPath rest ih =>
    intro path member
    rcases mem_append.mp member with first | later
    · change path ∈ (deleteManifestFile root tree localPath).2.toList at first
      rcases deleteManifestFile_cases root tree localPath with removed | left
      · rw [removed, Option.toList_some, mem_singleton] at first
        rw [first]
        exact mem_cons_self
      · rw [left] at first
        exact absurd first not_mem_nil
    · exact mem_cons_of_mem _ (ih _ path later)

theorem manifestItemsByToken_entry (manifest : List ManifestItem) :
    ∀ entry ∈ (manifestItemsByToken manifest).entries,
      entry.2 ∈ manifest ∧ entry.1 = orElse entry.2.token entry.2.remoteToken ∧ entry.1 ≠ [] := by
  have grow : ∀ (items : List ManifestItem) (start : OrderedDict Text ManifestItem),
      (∀ entry ∈ start.entries, entry.2 ∈ manifest ∧
        entry.1 = orElse entry.2.token entry.2.remoteToken ∧ entry.1 ≠ []) →
      (∀ item ∈ items, item ∈ manifest) →
      ∀ entry ∈ (items.foldl (fun found item =>
          let token := orElse item.token item.remoteToken
          if token = [] then found else found.set token item) start).entries,
        entry.2 ∈ manifest ∧ entry.1 = orElse entry.2.token entry.2.remoteToken ∧
          entry.1 ≠ [] := by
    intro items
    induction items with
    | nil => exact fun start known _ => known
    | cons item items ih =>
      intro start known inside
      rw [foldl_cons]
      apply ih
      · intro entry member
        dsimp only at member
        split at member
        · exact known entry member
        · rename_i named
          rcases OrderedDict.mem_set.mp member with new | old
          · rw [new]
            exact ⟨inside item mem_cons_self, rfl, named⟩
          · exact known entry old.1
      · exact fun other member => inside other (mem_cons_of_mem _ member)
  exact grow manifest OrderedDict.empty nofun
    (fun _ member => member)

theorem prepareFolders_isFile (events : List ScanEvent) (tree made : Hierarchy α)
    (path : Path) (there : isFile tree path = true)
    (done : prepareFolders root events tree = .ok made) : isFile made path = true := by
  induction events generalizing tree with
  | nil => exact mkdirs_isFile tree made _ path there done
  | cons event rest ih =>
    cases event with
    | folder folder children =>
      rw [prepareFolders] at done
      split at done
      · exact absurd done (by simp)
      · rename_i created attempt
        exact ih created (mkdirs_isFile tree created _ path there attempt) done
    | explicit item => exact ih tree there done
    | failure => exact ih tree there done

def live (item : ManifestItem) : Prop := item.status ≠ some .deleted

instance (item : ManifestItem) : Decidable (live item) :=
  inferInstanceAs (Decidable (item.status ≠ some .deleted))

def deletedFiles (config : PoolConfig) (sync : Sync α) (previous : OrderedDict Text ManifestItem) :
    List Path :=
  (deletedPaths sync previous).map (fileOf config.root.parts)

/-- The entry stays in the manifest under its earlier local path: it is carried over,
kept as unchanged, or its download fails. -/
def stays (root : Path) (sync : Sync α) (previous : OrderedDict Text ManifestItem) (tree : Hierarchy α)
    (token : Text) (item : ManifestItem) : Bool :=
  sync.fate token item = .skipped || sync.fate token item = .missing ||
    (pendingByToken sync.events).entries.any fun (other, pending) =>
      other = token &&
        (isKept root sync previous tree token pending || (sync.downloads token).isNone)

def NothingSynced (root : Path) (sync : Sync α) (previous : OrderedDict Text ManifestItem)
    (tree : Hierarchy α) : Prop :=
  (∀ job ∈ pendingItems root sync previous tree, job.delivery = none) ∧
    keptItems root sync previous tree = []

instance (root : Path) (sync : Sync α) (previous : OrderedDict Text ManifestItem) (tree : Hierarchy α) :
    Decidable (NothingSynced root sync previous tree) :=
  inferInstanceAs (Decidable (_ ∧ _))

/-- The condition on one sync, in the state before it: no entry that stays stands on the
file of an entry that is deleted, no download goes to such a file, no tombstone is carried
over as skipped, and where nothing is synced no download of a tombstone's token fails. -/
structure Untangled (config : PoolConfig) (sync : Sync α)
    (previous : OrderedDict Text ManifestItem) (tree : Hierarchy α) : Prop where
  apart : ∀ entry ∈ previous.entries,
    stays config.root.parts sync previous tree entry.1 entry.2 = true → entry.2.localPath ≠ [] →
    fileOf config.root.parts entry.2.localPath ∉ deletedFiles config sync previous
  places : (execGuarded (poolStep config) (ClearChoice config (deletedFiles config sync previous))
    (Pool.start tree (pendingItems config.root.parts sync previous tree))
    sync.schedule).isSome = true
  carried : ∀ entry ∈ previous.entries, sync.fate entry.1 entry.2 = .skipped → live entry.2
  refused : NothingSynced config.root.parts sync previous tree →
    ∀ job ∈ pendingItems config.root.parts sync previous tree, ∀ item ∈ job.previous, live item

instance (config : PoolConfig) (sync : Sync α) (previous : OrderedDict Text ManifestItem)
    (tree : Hierarchy α) : Decidable (Untangled config sync previous tree) :=
  decidable_of_iff
    ((∀ entry ∈ previous.entries,
        stays config.root.parts sync previous tree entry.1 entry.2 = true →
        entry.2.localPath ≠ [] →
        fileOf config.root.parts entry.2.localPath ∉ deletedFiles config sync previous) ∧
      (execGuarded (poolStep config) (ClearChoice config (deletedFiles config sync previous))
        (Pool.start tree (pendingItems config.root.parts sync previous tree))
        sync.schedule).isSome = true ∧
      (∀ entry ∈ previous.entries, sync.fate entry.1 entry.2 = .skipped → live entry.2) ∧
      (NothingSynced config.root.parts sync previous tree →
        ∀ job ∈ pendingItems config.root.parts sync previous tree,
          ∀ item ∈ job.previous, live item))
    ⟨fun h => ⟨h.1, h.2.1, h.2.2.1, h.2.2.2⟩, fun h => ⟨h.apart, h.places, h.carried, h.refused⟩⟩

def SyncGuard (config : PoolConfig) (datasource : Datasource α) (sync : Sync α) : Prop :=
  match prepareFolders config.root.parts sync.events datasource.tree with
  | .error _ => True
  | .ok tree => Untangled config sync (manifestItemsByToken datasource.manifest) tree

instance (config : PoolConfig) (datasource : Datasource α) (sync : Sync α) :
    Decidable (SyncGuard config datasource sync) :=
  match prepared : prepareFolders config.root.parts sync.events datasource.tree with
  | .error _ => isTrue (by simp [SyncGuard, prepared])
  | .ok tree =>
    decidable_of_iff (Untangled config sync (manifestItemsByToken datasource.manifest) tree)
      (by simp [SyncGuard, prepared])

/-- The last sync removed no file of a live entry, and where its downloads all succeeded
every live entry has its file. -/
structure LiveFiles (config : PoolConfig) (datasource : Datasource α) : Prop where
  spared : ∀ item ∈ datasource.manifest, live item → item.localPath ≠ [] →
    fileOf config.root.parts item.localPath ∉ datasource.removed
  there : datasource.clean = true → ∀ item ∈ datasource.manifest, live item →
    item.localPath ≠ [] → isFile datasource.tree (fileOf config.root.parts item.localPath) = true

/-- Between syncs: an entry that the next sync can find by its token has its file unless
it is a tombstone, and a tombstone has been missing before. -/
structure Backed (config : PoolConfig) (manifest : List ManifestItem) (tree : Hierarchy α) : Prop where
  file : ∀ item ∈ manifest, orElse item.token item.remoteToken ≠ [] → live item →
    item.localPath ≠ [] → isFile tree (fileOf config.root.parts item.localPath) = true
  tombstone : ∀ item ∈ manifest, item.status = some .deleted → 1 ≤ item.missingScans

theorem Backed.grow (config : PoolConfig) (manifest : List ManifestItem) (tree grown : Hierarchy α)
    (backed : Backed config manifest tree)
    (files : ∀ path, isFile tree path = true → isFile grown path = true) :
    Backed config manifest grown :=
  ⟨fun item member named alive filled => files _ (backed.file item member named alive filled),
    backed.tombstone⟩

/-- The entries a sync starts from: live ones have their file, tombstones a count. -/
structure Known (config : PoolConfig) (previous : OrderedDict Text ManifestItem) (tree : Hierarchy α) :
    Prop where
  file : ∀ token item, (token, item) ∈ previous.entries → live item → item.localPath ≠ [] →
    isFile tree (fileOf config.root.parts item.localPath) = true
  tombstone : ∀ token item, (token, item) ∈ previous.entries → item.status = some .deleted →
    1 ≤ item.missingScans

structure Settled (config : PoolConfig) (doomed : List Path) (tree : Hierarchy α) (item : ManifestItem) :
    Prop where
  apart : live item → item.localPath ≠ [] → fileOf config.root.parts item.localPath ∉ doomed
  file : live item → item.localPath ≠ [] →
    isFile tree (fileOf config.root.parts item.localPath) = true
  tombstone : item.status = some .deleted → 1 ≤ item.missingScans

theorem backed_known (config : PoolConfig) (manifest : List ManifestItem) (tree : Hierarchy α)
    (backed : Backed config manifest tree) : Known config (manifestItemsByToken manifest) tree := by
  constructor
  · intro token item member alive filled
    rcases manifestItemsByToken_entry manifest _ member with ⟨listed, same, named⟩
    apply backed.file item listed _ alive filled
    exact same ▸ named
  · intro token item member dead
    exact backed.tombstone item (manifestItemsByToken_entry manifest _ member).1 dead

theorem isKept_previous (pending : Pending)
    (kept : isKept root sync previous tree token pending = true) :
    ∃ item, previous.get? token = some item ∧ live item := by
  simp only [isKept, and_eq_true] at kept
  cases found : previous.get? token with
  | none => simp [feishuItemUnchanged, found] at kept
  | some item =>
    refine ⟨item, rfl, ?_⟩
    have unchanged := kept.2
    simp only [feishuItemUnchanged, found, and_eq_true, decide_eq_true_eq] at unchanged
    exact unchanged.1.1.1.1

theorem stays_of_pending (item : ManifestItem) (pending : Pending)
    (listed : (token, pending) ∈ (pendingByToken sync.events).entries)
    (reason : (isKept root sync previous tree token pending || (sync.downloads token).isNone) =
      true) : stays root sync previous tree token item = true := by
  have here : (pendingByToken sync.events).entries.any (fun (other, pending) =>
      other = token && (isKept root sync previous tree token pending ||
        (sync.downloads token).isNone)) = true :=
    any_eq_true.mpr ⟨(token, pending), listed, by simpa using reason⟩
  rw [stays, here, Bool.or_true]

theorem fate_missing (item : ManifestItem)
    (fate : sync.fate token item = .missing) : item.missingScans = 0 := by
  unfold Sync.fate at fate
  split at fate
  · exact absurd fate (by simp)
  · split at fate
    · exact absurd fate (by simp)
    · split at fate
      · exact absurd fate (by simp)
      · split at fate
        · omega
        · exact absurd fate (by simp)

theorem fate_deleted (item : ManifestItem)
    (fate : sync.fate token item = .deleted) : 1 ≤ item.missingScans := by
  unfold Sync.fate at fate
  split at fate
  · exact absurd fate (by simp)
  · split at fate
    · exact absurd fate (by simp)
    · split at fate
      · exact absurd fate (by simp)
      · split at fate
        · exact absurd fate (by simp)
        · omega

theorem keptItems_settled (config : PoolConfig) (sync : Sync α)
    (previous : OrderedDict Text ManifestItem) (tree grown : Hierarchy α)
    (known : Known config previous tree) (untangled : Untangled config sync previous tree)
    (files : ∀ path, isFile tree path = true → isFile grown path = true) :
    ∀ item ∈ keptItems config.root.parts sync previous tree,
      Settled config (deletedFiles config sync previous) grown item := by
  intro item member
  rcases mem_filterMap.mp member with ⟨⟨token, pending⟩, listed, made⟩
  dsimp only at made
  split at made
  · rename_i kept
    rcases isKept_previous _ sync previous tree token pending kept with ⟨earlier, found, alive⟩
    rw [found, Option.map_some, Option.some.injEq] at made
    subst made
    have entry := OrderedDict.mem_of_get? found
    constructor
    · intro _ filled
      apply untangled.apart (token, earlier) entry _ filled
      exact stays_of_pending _ sync previous tree token earlier pending listed (by simp [kept])
    · intro _ filled
      exact files _ (known.file token earlier entry alive filled)
    · intro dead
      exact absurd dead (by simp [feishuManifestItemFromPrevious])
  · exact absurd made (by simp)

theorem absentItems_settled (config : PoolConfig) (sync : Sync α)
    (previous : OrderedDict Text ManifestItem) (tree grown : Hierarchy α)
    (known : Known config previous tree) (untangled : Untangled config sync previous tree)
    (files : ∀ path, isFile tree path = true → isFile grown path = true) :
    ∀ item ∈ absentItems sync previous,
      Settled config (deletedFiles config sync previous) grown item := by
  intro item member
  rcases mem_filterMap.mp member with ⟨⟨token, earlier⟩, entry, made⟩
  dsimp only [absentItem] at made
  cases fate : sync.fate token earlier with
  | seen => simp [fate] at made
  | skipped =>
    simp only [fate, Option.some.injEq] at made
    subst made
    have alive := untangled.carried (token, earlier) entry fate
    constructor
    · exact fun _ filled => untangled.apart (token, earlier) entry (by simp [stays, fate]) filled
    · exact fun _ filled => files _ (known.file token earlier entry alive filled)
    · exact fun dead => absurd dead (by simp)
  | missing =>
    simp only [fate, Option.some.injEq] at made
    subst made
    have first := fate_missing sync token earlier fate
    have alive : live earlier := by
      intro dead
      have counted := known.tombstone token earlier entry dead
      omega
    constructor
    · exact fun _ filled => untangled.apart (token, earlier) entry (by simp [stays, fate]) filled
    · exact fun _ filled => files _ (known.file token earlier entry alive filled)
    · exact fun dead => absurd dead (by simp)
  | deleted =>
    simp only [fate, Option.some.injEq] at made
    subst made
    have counted := fate_deleted sync token earlier fate
    constructor
    · exact fun alive => absurd rfl alive
    · exact fun alive => absurd rfl alive
    · exact fun _ => counted

theorem storedItem_settled (config : PoolConfig) (doomed : List Path) (jobs : List (Job α))
    (tree : Hierarchy α) (pool : Pool α) (delivered : Delivered config doomed jobs tree pool)
    (located : Located config pool) :
    ∀ placement ∈ pool.stored, Settled config doomed pool.tree (storedItem config placement) := by
  intro placement member
  rcases delivered.stored placement member with ⟨apart, there⟩
  have same := located_file config pool located placement member
  constructor
  · intro _ _
    change fileOf config.root.parts (localPathOf config placement) ∉ doomed
    rw [same]
    exact apart
  · intro _ _
    change isFile pool.tree (fileOf config.root.parts (localPathOf config placement)) = true
    rw [same]
    exact there
  · intro dead
    have unset : (storedItem config placement).status = none := rfl
    rw [unset] at dead
    exact absurd dead (by simp)

theorem pendingItems_mem (job : Job α) (member : job ∈ pendingItems root sync previous tree) :
    ∃ token pending, (token, pending) ∈ (pendingByToken sync.events).entries ∧
      job.previous = previous.get? token ∧ job.delivery = sync.downloads token := by
  rcases mem_filterMap.mp member with ⟨⟨token, pending⟩, listed, made⟩
  dsimp only at made
  split at made
  · exact absurd made (by simp)
  · rw [Option.some.injEq] at made
    subst made
    exact ⟨token, pending, listed, rfl, rfl⟩

theorem failedItem_apart (config : PoolConfig) (sync : Sync α)
    (previous : OrderedDict Text ManifestItem) (tree : Hierarchy α)
    (untangled : Untangled config sync previous tree) (job : Job α)
    (member : job ∈ pendingItems config.root.parts sync previous tree)
    (refused : job.delivery = none) (filled : (failedItem job).localPath ≠ []) :
    fileOf config.root.parts (failedItem job).localPath ∉ deletedFiles config sync previous := by
  rcases pendingItems_mem _ sync previous tree job member with
    ⟨token, pending, listed, earlier, given⟩
  cases found : job.previous with
  | none => simp [failedItem, found] at filled
  | some item =>
    have same : (failedItem job).localPath = item.localPath := by simp [failedItem, found]
    rw [same] at filled ⊢
    have entry := OrderedDict.mem_of_get? (earlier.symm.trans found)
    apply untangled.apart (token, item) entry _ filled
    apply stays_of_pending _ sync previous tree token item pending listed
    simp [given.symm.trans refused]

theorem failedItem_file (config : PoolConfig) (sync : Sync α)
    (previous : OrderedDict Text ManifestItem) (tree grown : Hierarchy α)
    (known : Known config previous tree) (untangled : Untangled config sync previous tree)
    (files : ∀ path, isFile tree path = true → isFile grown path = true)
    (nothing : NothingSynced config.root.parts sync previous tree) (job : Job α)
    (member : job ∈ pendingItems config.root.parts sync previous tree)
    (filled : (failedItem job).localPath ≠ []) :
    isFile grown (fileOf config.root.parts (failedItem job).localPath) = true := by
  rcases pendingItems_mem _ sync previous tree job member with ⟨token, pending, _, earlier, _⟩
  cases found : job.previous with
  | none => simp [failedItem, found] at filled
  | some item =>
    have same : (failedItem job).localPath = item.localPath := by simp [failedItem, found]
    rw [same] at filled ⊢
    have entry := OrderedDict.mem_of_get? (earlier.symm.trans found)
    have alive := untangled.refused nothing job member item found
    exact files _ (known.file token item entry alive filled)

/-- Until a crash, a job waits, cannot be delivered, or something was placed. -/
def Placed (jobs : List (Job α)) (pool : Pool α) : Prop :=
  pool.crashed = false →
    ∀ job ∈ jobs, job.delivery = none ∨ job ∈ pool.waiting ∨ pool.chosen ++ pool.stored ≠ []

theorem poolStep_placed (config : PoolConfig) (jobs : List (Job α)) (pool next : Pool α)
    (action : PoolAction) (placed : Placed jobs pool)
    (taken : poolStep config pool action = some next) : Placed jobs next := by
  intro running job member
  have before := placed (poolStep_running config pool next action taken running) job member
  cases action with
  | choose token =>
    rcases choosePath_some config pool next token taken with ⟨_, _, _, _, rfl⟩
    exact .inr (.inr (by simp))
  | refuse token =>
    rcases refuseJob_some pool next token taken with ⟨other, found, given, rfl⟩
    rcases before with undelivered | waiting | filled
    · exact .inl undelivered
    · have split := (perm_eraseP_of_find _ pool.waiting other found).mem_iff.mp waiting
      rcases mem_cons.mp split with rfl | left
      · exact .inl given
      · exact .inr (.inl left)
    · exact .inr (.inr filled)
  | store token =>
    rcases storeContent_some config pool next token taken with ⟨placement, _, crashed | done⟩
    · rw [crashed.1] at running
      exact absurd running (by simp)
    · rcases done with ⟨_, rfl⟩
      exact .inr (.inr (by simp))

theorem run_nothing_delivered (config : PoolConfig) (guard : Pool α → PoolAction → Prop)
    (jobs : List (Job α)) (before : Hierarchy α) (actions : List PoolAction) (finish : Pool α)
    (run : Steps (poolStep config) guard (Pool.start before jobs) actions finish)
    (complete : finish.complete = true) (nothing : finish.stored = []) :
    ∀ job ∈ jobs, job.delivery = none := by
  have placed : Placed jobs finish := by
    apply run.invariant (Placed jobs)
    · intro pool action next here _ taken
      exact poolStep_placed config jobs pool next action here taken
    · exact fun _ job member => .inr (.inl member)
  rcases complete_parts finish complete with ⟨idle, running⟩
  have empty : finish.waiting = [] := by
    simp only [Pool.complete, and_eq_true, List.isEmpty_iff] at complete
    exact complete.1.1
  intro job member
  rcases placed running job member with undelivered | waiting | filled
  · exact undelivered
  · rw [empty] at waiting
    exact absurd waiting not_mem_nil
  · rw [idle, nothing] at filled
    exact absurd rfl filled

theorem raises_nothing (config : PoolConfig) (sync : Sync α)
    (previous : OrderedDict Text ManifestItem) (tree : Hierarchy α) (pool : Pool α)
    (guard : Pool α → PoolAction → Prop)
    (run : Steps (poolStep config) guard
      (Pool.start tree (pendingItems config.root.parts sync previous tree)) sync.schedule pool)
    (complete : pool.complete = true)
    (raised : raisesAllFailed sync previous (keptItems config.root.parts sync previous tree) pool =
      true) : NothingSynced config.root.parts sync previous tree := by
  simp only [raisesAllFailed, and_eq_true, decide_eq_true_eq] at raised
  have stored : pool.stored = [] := length_eq_zero_iff.mp (by omega)
  have kept : keptItems config.root.parts sync previous tree = [] :=
    length_eq_zero_iff.mp (by omega)
  exact ⟨run_nothing_delivered config guard _ tree sync.schedule pool run complete stored, kept⟩

theorem live_rebuiltItem (item : ManifestItem) : live (rebuiltItem item) ↔ live item := by
  unfold live rebuiltItem
  cases item.status with
  | none => simp
  | some status => simp

theorem buildManifest_mem (items : List ManifestItem) (item : ManifestItem)
    (member : item ∈ buildManifest items) :
    ∃ raw ∈ items, raw.localPath = item.localPath ∧ (live item ↔ live raw) ∧
      (item.status = some .deleted → raw.missingScans = item.missingScans) ∧
      (item.localPath ≠ [] → orElse item.token item.remoteToken ≠ [] → raw.remoteToken ≠ []) := by
  unfold buildManifest at member
  dsimp only at member
  split at member
  · rename_i none
    refine ⟨item, member, rfl, Iff.rfl, fun _ => rfl, ?_⟩
    intro filled
    have listed : item ∈ items.filter (·.localPath ≠ []) :=
      mem_filter.mpr ⟨member, by simpa using filled⟩
    rw [none] at listed
    exact absurd listed not_mem_nil
  · rcases mem_map.mp member with ⟨raw, filtered, rfl⟩
    refine ⟨raw, (mem_filter.mp filtered).1, rfl, live_rebuiltItem raw, fun _ => rfl, ?_⟩
    intro _ named
    simpa [rebuiltItem, orElse] using named

theorem finishSync_mem (config : PoolConfig) (sync : Sync α)
    (previous : OrderedDict Text ManifestItem) (tree : Hierarchy α) (pool : Pool α) (item : ManifestItem)
    (member : item ∈ (finishSync config sync previous tree pool).manifest) :
    ∃ raw ∈ manifestItems config sync previous tree pool, raw.localPath = item.localPath ∧
      (live item ↔ live raw) ∧ (item.status = some .deleted → raw.missingScans = item.missingScans) ∧
      (item.localPath ≠ [] → orElse item.token item.remoteToken ≠ [] → raw.remoteToken ≠ [] ∨
        raisesAllFailed sync previous (keptItems config.root.parts sync previous tree) pool =
          true) := by
  simp only [finishSync] at member
  split at member
  · rename_i raised
    exact ⟨item, member, rfl, Iff.rfl, fun _ => rfl, fun _ _ => .inr raised⟩
  · rcases buildManifest_mem _ item member with ⟨raw, listed, path, alive, dead, named⟩
    exact ⟨raw, listed, path, alive, dead, fun filled token => .inl (named filled token)⟩

theorem manifestItems_settled (config : PoolConfig) (sync : Sync α)
    (previous : OrderedDict Text ManifestItem) (tree : Hierarchy α) (pool : Pool α)
    (known : Known config previous tree) (untangled : Untangled config sync previous tree)
    (delivered : Delivered config (deletedFiles config sync previous)
      (pendingItems config.root.parts sync previous tree) tree pool)
    (located : Located config pool) :
    ∀ raw ∈ manifestItems config sync previous tree pool,
      Settled config (deletedFiles config sync previous) pool.tree raw ∨
        ∃ job ∈ pool.refused, raw = failedItem job := by
  intro raw member
  rcases mem_append.mp member with front | absent
  · rcases mem_append.mp front with kept | results
    · exact .inl (keptItems_settled config sync previous tree pool.tree known untangled
        delivered.files raw kept)
    · rcases mem_append.mp results with stored | failed
      · rcases mem_map.mp stored with ⟨placement, listed, rfl⟩
        exact .inl (storedItem_settled config _ _ tree pool delivered located placement listed)
      · rcases mem_map.mp failed with ⟨job, listed, rfl⟩
        exact .inr ⟨job, listed, rfl⟩
  · exact .inl (absentItems_settled config sync previous tree pool.tree known untangled
      delivered.files raw absent)

/-- What the entries of a finished sync satisfy before the manifest is rebuilt: the
live ones are apart from the deleted files, and where the sync raises, failed downloads
still have their files. -/
structure Finished (config : PoolConfig) (sync : Sync α) (previous : OrderedDict Text ManifestItem)
    (tree : Hierarchy α) (pool : Pool α) : Prop where
  settled : ∀ raw ∈ manifestItems config sync previous tree pool,
    Settled config (deletedFiles config sync previous) pool.tree raw ∨
      ∃ job ∈ pool.refused, raw = failedItem job
  apart : ∀ raw ∈ manifestItems config sync previous tree pool, live raw → raw.localPath ≠ [] →
    fileOf config.root.parts raw.localPath ∉ deletedFiles config sync previous
  failed : raisesAllFailed sync previous (keptItems config.root.parts sync previous tree) pool =
      true → ∀ job ∈ pool.refused, (failedItem job).localPath ≠ [] →
    isFile pool.tree (fileOf config.root.parts (failedItem job).localPath) = true

theorem sync_finished (config : PoolConfig) (sync : Sync α)
    (previous : OrderedDict Text ManifestItem) (tree : Hierarchy α) (pool : Pool α)
    (known : Known config previous tree) (untangled : Untangled config sync previous tree)
    (run : Steps (poolStep config) (ClearChoice config (deletedFiles config sync previous))
      (Pool.start tree (pendingItems config.root.parts sync previous tree)) sync.schedule pool)
    (complete : pool.complete = true) : Finished config sync previous tree pool := by
  have delivered := run_delivered config _ _ tree sync.schedule pool run
  have located := run_located config _ _ tree sync.schedule pool run
  have settled := manifestItems_settled config sync previous tree pool known untangled delivered
    located
  refine ⟨settled, ?_, ?_⟩
  · intro raw member alive filled
    rcases settled raw member with good | ⟨job, refused, rfl⟩
    · exact good.apart alive filled
    · rcases delivered.refused job refused with ⟨planned, given⟩
      exact failedItem_apart config sync previous tree untangled job planned given filled
  · intro raised job refused filled
    have nothing := raises_nothing config sync previous tree pool _ run complete raised
    exact failedItem_file config sync previous tree pool.tree known untangled delivered.files
      nothing job (delivered.refused job refused).1 filled

theorem finishSync_survives (config : PoolConfig) (sync : Sync α)
    (previous : OrderedDict Text ManifestItem) (tree : Hierarchy α) (pool : Pool α) (path : Path)
    (spared : path ∉ deletedFiles config sync previous) (there : isFile pool.tree path = true) :
    isFile (finishSync config sync previous tree pool).tree path = true := by
  have same : (finishSync config sync previous tree pool).tree path = pool.tree path :=
    deleteManifestFiles_spares config.root.parts _ pool.tree path spared
  rw [isFile, same]
  exact there

theorem Finished.liveFiles {sync : Sync α} {previous : OrderedDict Text ManifestItem}
    {tree : Hierarchy α} (finished : Finished config sync previous tree pool) :
    LiveFiles config (finishSync config sync previous tree pool) := by
  constructor
  · intro item member alive filled removed
    rcases finishSync_mem config sync previous tree pool item member with
      ⟨raw, listed, path, lives, _, _⟩
    rw [← path] at filled removed
    exact finished.apart raw listed (lives.mp alive) filled
      (deleteManifestFiles_removed config.root.parts _ pool.tree _ removed)
  · intro clean item member alive filled
    rcases finishSync_mem config sync previous tree pool item member with
      ⟨raw, listed, path, lives, _, _⟩
    rw [← path] at filled ⊢
    apply finishSync_survives config sync previous tree pool _
      (finished.apart raw listed (lives.mp alive) filled)
    rcases finished.settled raw listed with good | ⟨job, refused, rfl⟩
    · exact good.file (lives.mp alive) filled
    · have none : pool.refused = [] := isEmpty_iff.mp clean
      rw [none] at refused
      exact absurd refused not_mem_nil

theorem Finished.backed {sync : Sync α} {previous : OrderedDict Text ManifestItem}
    {tree : Hierarchy α} (finished : Finished config sync previous tree pool) :
    Backed config (finishSync config sync previous tree pool).manifest
      (finishSync config sync previous tree pool).tree := by
  constructor
  · intro item member named alive filled
    rcases finishSync_mem config sync previous tree pool item member with
      ⟨raw, listed, path, lives, _, origin⟩
    have remote := origin filled named
    rw [← path] at filled ⊢
    apply finishSync_survives config sync previous tree pool _
      (finished.apart raw listed (lives.mp alive) filled)
    rcases finished.settled raw listed with good | ⟨job, refused, rfl⟩
    · exact good.file (lives.mp alive) filled
    · rcases remote with token | raised
      · exact absurd rfl token
      · exact finished.failed raised job refused filled
  · intro item member dead
    rcases finishSync_mem config sync previous tree pool item member with
      ⟨raw, listed, _, lives, counted, _⟩
    rw [← counted dead]
    have rawDead : raw.status = some .deleted := by
      by_contra alive
      exact lives.mpr alive dead
    rcases finished.settled raw listed with good | ⟨job, _, rfl⟩
    · exact good.tombstone rawDead
    · exact absurd rawDead (by simp [failedItem])

theorem syncFeishuResources_sound (config : PoolConfig) (datasource next : Datasource α)
    (sync : Sync α) (backed : Backed config datasource.manifest datasource.tree)
    (guard : SyncGuard config datasource sync)
    (taken : syncFeishuResources config datasource sync = some next) :
    LiveFiles config next ∧ Backed config next.manifest next.tree := by
  unfold syncFeishuResources at taken
  dsimp only at taken
  split at taken
  · have same := Option.some.inj taken
    subst same
    constructor
    · constructor
      · exact fun _ _ _ _ => not_mem_nil
      · exact fun clean => absurd clean (by simp)
    · exact backed
  · rename_i tree prepared
    have untangled : Untangled config sync (manifestItemsByToken datasource.manifest) tree := by
      simpa only [SyncGuard, prepared] using guard
    have ready := backed.grow config datasource.manifest datasource.tree tree
      (fun path there => prepareFolders_isFile config.root.parts sync.events datasource.tree tree
        path there prepared)
    have known := backed_known config datasource.manifest tree ready
    rcases Option.isSome_iff_exists.mp untangled.places with ⟨pool, executed⟩
    have run := execGuarded_steps executed
    rw [run.exec_eq, Option.map_some, Option.some.injEq] at taken
    subst taken
    split
    · rename_i complete
      have finished := sync_finished config sync _ tree pool known untangled run complete
      exact ⟨finished.liveFiles, finished.backed⟩
    · have delivered := run_delivered config _ _ tree sync.schedule pool run
      constructor
      · constructor
        · exact fun _ _ _ _ => not_mem_nil
        · exact fun clean => absurd clean (by simp)
      · exact ready.grow config datasource.manifest tree pool.tree delivered.files

def Datasource.fresh (tree : Hierarchy α) : Datasource α := ⟨tree, [], [], true⟩

/-- In every sequence of syncs that keep deleted entries apart from the entries that stay
and from new downloads, and carry no tombstone over, the files of live entries survive. -/
theorem live_files_survive (config : PoolConfig) (tree : Hierarchy α) (syncs : List (Sync α))
    (datasource : Datasource α)
    (run : Steps (syncFeishuResources config) (SyncGuard config) (Datasource.fresh tree) syncs
      datasource) : LiveFiles config datasource := by
  have both : LiveFiles config datasource ∧ Backed config datasource.manifest datasource.tree := by
    apply run.invariant fun reached =>
      LiveFiles config reached ∧ Backed config reached.manifest reached.tree
    · intro reached sync next sound guard taken
      exact syncFeishuResources_sound config reached next sync sound.2 guard taken
    · constructor
      · constructor
        · nofun
        · exact fun _ _ member => absurd member not_mem_nil
      · constructor
        · nofun
        · nofun
  exact both.1

def sampleFolder : PlainPath := ⟨["folders".toList, "fld1".toList], by decide⟩

def sampleItem (token : String) : FeishuItem :=
  ⟨token.toList, "plan.txt".toList, "file".toList, SyncMetadata.none⟩

/-- A complete scan that finds the given tokens, each to be downloaded. -/
def sampleSync (tokens : List String) : Sync Text where
  events := [.folder sampleFolder (tokens.map sampleItem)]
  incremental := true
  deleteMissing := true
  downloads := fun token => some ⟨[], [], token⟩
  schedule := tokens.flatMap fun token => [.choose token.toList, .store token.toList]

def samplePath : Path := ["data".toList, "folders".toList, "fld1".toList, "plan.txt".toList]

def takenOverSyncs : List (Sync Text) :=
  [sampleSync ["tokA"], sampleSync [], sampleSync [], sampleSync ["tokB"]]

def losesFile (datasource : Datasource Text) : Bool :=
  datasource.removed = [samplePath] &&
    datasource.manifest.any fun item => live item && item.localPath ≠ [] &&
      fileOf sampleConfig.root.parts item.localPath = samplePath

theorem taken_over_name_loses_file :
    (∀ sync ∈ takenOverSyncs, sync.deleteMissing = true) ∧
      ∃ datasource, Steps (syncFeishuResources sampleConfig) Any (Datasource.fresh sampleTree)
          takenOverSyncs datasource ∧ ¬ LiveFiles sampleConfig datasource := by
  have executed : (exec (syncFeishuResources sampleConfig) (Datasource.fresh sampleTree)
      takenOverSyncs).any losesFile = true := by decide +kernel
  rcases (Option.any_eq_true _ _).mp executed with ⟨datasource, reached, lost⟩
  rw [losesFile, and_eq_true, decide_eq_true_eq] at lost
  rcases any_eq_true.mp lost.2 with ⟨item, member, shared⟩
  simp only [and_eq_true, decide_eq_true_eq] at shared
  refine ⟨by decide, datasource, exec_steps reached, ?_⟩
  intro files
  have spared := files.spared item member shared.1.1 shared.1.2
  rw [shared.2, lost.1] at spared
  exact absurd mem_cons_self spared

def separateSyncs : List (Sync Text) := [sampleSync ["tokA"], sampleSync [], sampleSync []]

theorem live_files_survive_run :
    ∃ datasource : Datasource Text, LiveFiles sampleConfig datasource ∧
      datasource.removed = [samplePath] := by
  have executed : (execGuarded (syncFeishuResources sampleConfig) (SyncGuard sampleConfig)
      (Datasource.fresh sampleTree) separateSyncs).any
      (fun datasource => datasource.removed = [samplePath]) = true := by decide +kernel
  rcases (Option.any_eq_true _ _).mp executed with ⟨datasource, reached, removed⟩
  exact ⟨datasource, live_files_survive sampleConfig sampleTree separateSyncs datasource
    (execGuarded_steps reached), by simpa using removed⟩

end SourceLens.FeishuSync
