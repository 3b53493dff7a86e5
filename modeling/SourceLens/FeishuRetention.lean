import SourceLens.FeishuSyncRuns

/-! How many scans an item has to be absent from before a sync removes its file:
the missing counter over every sequence of finished and aborted syncs. -/

namespace SourceLens.FeishuSync

open List
open PosixPath (Name Path PlainPath)
open FileTree
open FeishuPaths
open FeishuWorkers
open Transition

variable {α : Type}

variable {pending : PendingByToken} {tokens : List Text}

def scannedTokens : ScanEvent → List Text
  | .folder _ children => (children.filter (·.itemType ≠ "folder".toList)).map (·.token)
  | .explicit item => [item.token]
  | .failure => []

def seenTokens (events : List ScanEvent) : List Text := events.flatMap scannedTokens

def Sync.sees (sync : Sync α) (token : Text) : Prop := token ∈ seenTokens sync.events

instance (sync : Sync α) (token : Text) : Decidable (sync.sees token) :=
  inferInstanceAs (Decidable (_ ∈ _))

def Sync.scanComplete (sync : Sync α) : Prop := scanFailures sync.events = 0

/-- A plan that lists every item under its own token, and exactly the given tokens. -/
structure Plans (pending : PendingByToken) (tokens : List Text) : Prop where
  keys : ∀ token, token ∈ pending.keys ↔ token ∈ tokens
  own : ∀ entry ∈ pending.entries, entry.2.item.token = entry.1

theorem Plans.mono {others : List Text} (plans : Plans pending tokens)
    (same : ∀ token, token ∈ tokens ↔ token ∈ others) : Plans pending others :=
  ⟨fun token => (plans.keys token).trans (same token), plans.own⟩

theorem Plans.set (plans : Plans pending tokens) (entry : Pending) :
    Plans (pending.set entry.item.token entry) (tokens ++ [entry.item.token]) := by
  constructor
  · intro token
    rw [OrderedDict.mem_keys_set, plans.keys, mem_append, mem_singleton, or_comm]
  · intro other member
    rcases OrderedDict.mem_set.mp member with rfl | old
    · rfl
    · exact plans.own other old.1

theorem Plans.known (plans : Plans pending tokens) {token : Text} {entry : Pending}
    (found : pending.get? token = some entry) : Plans pending (tokens ++ [token]) := by
  have listed : token ∈ pending.keys := mem_map_of_mem (OrderedDict.mem_of_get? found)
  have inside := (plans.keys token).mp listed
  apply plans.mono
  intro other
  simp only [mem_append, mem_singleton, iff_self_or]
  exact fun same => same ▸ inside

theorem collectFeishuChild_plans (folder : PlainPath) (pending : PendingByToken)
    (tokens : List Text) (child : FeishuItem) (plans : Plans pending tokens) :
    Plans (collectFeishuChild folder pending child)
      (tokens ++ scannedTokens (.folder folder [child])) := by
  unfold collectFeishuChild
  split
  · rename_i isFolder
    have none : scannedTokens (.folder folder [child]) = [] := by
      rw [scannedTokens, filter_cons_of_neg (by simpa only [decide_eq_true_eq, not_not])]
      rfl
    rw [none, append_nil]
    exact plans
  · rename_i notFolder
    have listed : scannedTokens (.folder folder [child]) = [child.token] := by
      rw [scannedTokens, filter_cons_of_pos (by exact decide_eq_true notFolder)]
      rfl
    rw [listed]
    split
    · exact plans.set ⟨child, folder, true⟩
    · rename_i existing found
      split
      · exact plans.known found
      · exact plans.set ⟨child, folder, true⟩

theorem scannedTokens_cons (folder : PlainPath) (child : FeishuItem) (rest : List FeishuItem) :
    scannedTokens (.folder folder (child :: rest)) =
      scannedTokens (.folder folder [child]) ++ scannedTokens (.folder folder rest) := by
  rw [scannedTokens, ← singleton_append, filter_append, map_append]
  rfl

theorem collectChildren_plans (folder : PlainPath) (children : List FeishuItem)
    (pending : PendingByToken) (tokens : List Text) (plans : Plans pending tokens) :
    Plans (children.foldl (collectFeishuChild folder) pending)
      (tokens ++ scannedTokens (.folder folder children)) := by
  induction children generalizing pending tokens with
  | nil =>
    have none : scannedTokens (.folder folder []) = [] := rfl
    rw [none, append_nil]
    exact plans
  | cons child rest ih =>
    rw [foldl_cons, scannedTokens_cons, ← append_assoc]
    exact ih _ _ (collectFeishuChild_plans folder pending tokens child plans)

theorem collectEvent_plans (pending : PendingByToken) (tokens : List Text) (event : ScanEvent)
    (plans : Plans pending tokens) : Plans (collectEvent pending event) (tokens ++ scannedTokens event) := by
  cases event with
  | folder folder children => exact collectChildren_plans folder children pending tokens plans
  | explicit item =>
    rw [collectEvent]
    split
    · rename_i found
      exact plans.known found
    · exact plans.set ⟨item, documentsDir, false⟩
  | failure => simpa [collectEvent, scannedTokens] using plans

theorem collectEvents_plans (events : List ScanEvent) (pending : PendingByToken)
    (tokens : List Text) (plans : Plans pending tokens) :
    Plans (events.foldl collectEvent pending) (tokens ++ seenTokens events) := by
  induction events generalizing pending tokens with
  | nil => simpa [seenTokens] using plans
  | cons event rest ih =>
    rw [foldl_cons]
    have later := ih _ _ (collectEvent_plans pending tokens event plans)
    simpa [seenTokens] using later

theorem pendingByToken_plans (events : List ScanEvent) :
    Plans (pendingByToken events) (seenTokens events) := by
  have empty : Plans OrderedDict.empty [] :=
    ⟨fun _ => Iff.rfl, nofun⟩
  exact collectEvents_plans events OrderedDict.empty [] empty

/-- One sync, or one that is cut short before its manifest (cancelled, over the item
limit, or ended by an error that is not the error of one item). -/
structure Attempt (α : Type) where
  sync : Sync α
  aborted : Bool

def abortedSync (config : PoolConfig) (datasource : Datasource α) (sync : Sync α) :
    Option (Datasource α) :=
  match prepareFolders config.root.parts sync.events datasource.tree with
  | .error _ => some { datasource with removed := [], clean := false }
  | .ok tree =>
    let jobs := pendingItems config.root.parts sync (manifestItemsByToken datasource.manifest) tree
    (exec (poolStep config) (Pool.start tree jobs) sync.schedule).map fun pool =>
      ⟨pool.tree, datasource.manifest, [], false⟩

def attemptSync (config : PoolConfig) (datasource : Datasource α) (attempt : Attempt α) :
    Option (Datasource α) :=
  if attempt.aborted then abortedSync config datasource attempt.sync
  else syncFeishuResources config datasource attempt.sync

def entryToken (item : ManifestItem) : Text := orElse item.token item.remoteToken

def missingCount (manifest : List ManifestItem) (token : Text) : Nat :=
  match (manifestItemsByToken manifest).get? token with
  | some item => item.missingScans
  | none => 0

/-- A complete scan did not see the token, and no scan since then has. -/
def AbsentSince (history : List (Attempt α)) (token : Text) : Prop :=
  ∃ older earlier newer, history = older ++ earlier :: newer ∧ earlier.sync.scanComplete ∧
    ¬ earlier.sync.sees token ∧ ∀ between ∈ newer, ¬ between.sync.sees token

/-- What one sync of a history may do to the items synced before it. -/
structure Retains (config : PoolConfig) (history : List (Attempt α)) (attempt : Attempt α)
    (before after : Datasource α) : Prop where
  removed : ∀ item ∈ before.manifest, entryToken item ≠ [] → item.localPath ≠ [] →
    fileOf config.root.parts item.localPath ∈ after.removed →
    attempt.sync.scanComplete ∧ ¬ attempt.sync.sees (entryToken item) ∧
      AbsentSince history (entryToken item)
  closer : ∀ token, attempt.sync.sees token ∨ ¬ attempt.sync.scanComplete →
    missingCount after.manifest token ≤ missingCount before.manifest token

def RetainsAlong (config : PoolConfig) (start : Datasource α) (attempts : List (Attempt α)) : Prop :=
  ∀ history attempt later before after, attempts = history ++ attempt :: later →
    Steps (attemptSync config) Any start history before →
    attemptSync config before attempt = some after → Retains config history attempt before after

def AllFailed (root : Path) (sync : Sync α) (previous : OrderedDict Text ManifestItem)
    (tree : Hierarchy α) : Prop :=
  NothingSynced root sync previous tree ∧
    ∀ entry ∈ previous.entries, sync.fate entry.1 entry.2 ≠ .missing ∧
      (sync.fate entry.1 entry.2 = .skipped → scanFailures sync.events ≠ 0)

instance (root : Path) (sync : Sync α) (previous : OrderedDict Text ManifestItem) (tree : Hierarchy α) :
    Decidable (AllFailed root sync previous tree) :=
  inferInstanceAs (Decidable (_ ∧ _))

def NoneReturns (sync : Sync α) (manifest : List ManifestItem) : Prop :=
  ∀ item ∈ manifest, 1 ≤ item.missingScans → item.localPath ≠ [] → ¬ sync.sees (entryToken item)

instance (sync : Sync α) (manifest : List ManifestItem) : Decidable (NoneReturns sync manifest) :=
  inferInstanceAs (Decidable (∀ _ ∈ _, _))

/-- No entry that stays has the file of an entry that this sync deletes. -/
def FilesApart (config : PoolConfig) (sync : Sync α) (manifest : List ManifestItem) : Prop :=
  ∀ item ∈ manifest, entryToken item ≠ [] → item.localPath ≠ [] →
    sync.fate (entryToken item) item ≠ .deleted →
    fileOf config.root.parts item.localPath ∉
      deletedFiles config sync (manifestItemsByToken manifest)

instance (config : PoolConfig) (sync : Sync α) (manifest : List ManifestItem) :
    Decidable (FilesApart config sync manifest) :=
  inferInstanceAs (Decidable (∀ _ ∈ _, _))

def cutShort (config : PoolConfig) (datasource : Datasource α) (attempt : Attempt α) : Bool :=
  attempt.aborted ||
    match prepareFolders config.root.parts attempt.sync.events datasource.tree with
    | .error _ => true
    | .ok tree =>
      let jobs := pendingItems config.root.parts attempt.sync
        (manifestItemsByToken datasource.manifest) tree
      (exec (poolStep config) (Pool.start tree jobs) attempt.sync.schedule).any
        fun pool => !pool.complete

/-- The sync writes its manifest and raises because everything failed. -/
def FailsAll (config : PoolConfig) (datasource : Datasource α) (sync : Sync α) : Prop :=
  match prepareFolders config.root.parts sync.events datasource.tree with
  | .error _ => False
  | .ok tree => AllFailed config.root.parts sync (manifestItemsByToken datasource.manifest) tree

instance (config : PoolConfig) (datasource : Datasource α) (sync : Sync α) :
    Decidable (FailsAll config datasource sync) :=
  match prepared : prepareFolders config.root.parts sync.events datasource.tree with
  | .error _ => isFalse (by simp [FailsAll, prepared])
  | .ok tree =>
    decidable_of_iff
      (AllFailed config.root.parts sync (manifestItemsByToken datasource.manifest) tree)
      (by simp [FailsAll, prepared])

/-- The condition on one sync, in the state before it: an entry that has been missing is
not seen by a sync that is cut short or in which everything fails, and a sync that is not
cut short deletes no file that an entry which stays has too. -/
structure Resets (config : PoolConfig) (datasource : Datasource α) (attempt : Attempt α) : Prop where
  counters : cutShort config datasource attempt = true ∨ FailsAll config datasource attempt.sync →
    NoneReturns attempt.sync datasource.manifest
  files : cutShort config datasource attempt = false →
    FilesApart config attempt.sync datasource.manifest

instance (config : PoolConfig) (datasource : Datasource α) (attempt : Attempt α) :
    Decidable (Resets config datasource attempt) :=
  decidable_of_iff
    ((cutShort config datasource attempt = true ∨ FailsAll config datasource attempt.sync →
        NoneReturns attempt.sync datasource.manifest) ∧
      (cutShort config datasource attempt = false →
        FilesApart config attempt.sync datasource.manifest))
    ⟨fun h => ⟨h.1, h.2⟩, fun h => ⟨h.counters, h.files⟩⟩

end SourceLens.FeishuSync
