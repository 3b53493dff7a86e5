import SourceLens.FeishuRetention

/-! Which missing counters a sync writes, and the scans behind every file that a
sequence of syncs removes. -/

namespace SourceLens.FeishuSync

open List
open PosixPath (Name Path PlainPath)
open FileTree
open FeishuPaths
open FeishuWorkers
open Transition

variable {α : Type}

variable (config : PoolConfig) (history : List (Attempt α)) (sync : Sync α)
  (manifest : List ManifestItem)

theorem AbsentSince.append {history : List (Attempt α)} {token : Text}
    (absent : AbsentSince history token) (attempt : Attempt α)
    (unseen : ¬ attempt.sync.sees token) : AbsentSince (history ++ [attempt]) token := by
  rcases absent with ⟨older, earlier, newer, rfl, complete, without, between⟩
  refine ⟨older, earlier, newer ++ [attempt], ?_, complete, without, ?_⟩
  · rw [append_assoc, cons_append]
  · intro other member
    rcases mem_append.mp member with inside | last
    · exact between other inside
    · rw [mem_singleton.mp last]
      exact unseen

variable (attempt : Attempt α) (token : Text) (item : ManifestItem) (tree : Hierarchy α)
  (pool : Pool α)

theorem AbsentSince.last {token : Text}
    (complete : attempt.sync.scanComplete) (unseen : ¬ attempt.sync.sees token) :
    AbsentSince (history ++ [attempt]) token :=
  ⟨history, attempt, [], rfl, complete, unseen, nofun⟩

theorem AbsentSince.last_unseen {history : List (Attempt α)} {attempt : Attempt α} {token : Text}
    (absent : AbsentSince (history ++ [attempt]) token) : ¬ attempt.sync.sees token := by
  rcases absent with ⟨older, earlier, newer, parts, _, without, between⟩
  rcases eq_nil_or_concat newer with rfl | ⟨front, final, rfl⟩
  · rcases append_inj' parts rfl with ⟨_, same⟩
    rw [List.cons.inj same |>.1]
    exact without
  · rw [concat_eq_append, ← cons_append, ← append_assoc] at parts
    rcases append_inj' parts rfl with ⟨_, same⟩
    rw [List.cons.inj same |>.1]
    exact between final (by simp)

def Tokened (item : ManifestItem) : Prop := item.token = item.remoteToken ∨ item.remoteToken = []

theorem entryToken_of_equal (same : item.token = item.remoteToken) :
    entryToken item = item.remoteToken := by
  rw [entryToken, orElse, same]
  split
  · rfl
  · rfl

theorem tokened_rebuiltItem : Tokened (rebuiltItem item) := Or.inl rfl

theorem entryToken_rebuiltItem :
    entryToken (rebuiltItem item) = item.remoteToken :=
  entryToken_of_equal (rebuiltItem item) rfl

theorem Tokened.rebuilt {item : ManifestItem} (tokened : Tokened item)
    (named : entryToken (rebuiltItem item) ≠ []) :
    entryToken (rebuiltItem item) = entryToken item := by
  rw [entryToken_rebuiltItem] at named ⊢
  rcases tokened with same | none
  · exact (entryToken_of_equal item same).symm
  · exact absurd none named

theorem previous_entry (member : (token, item) ∈ (manifestItemsByToken manifest).entries) :
    item ∈ manifest ∧ token = entryToken item ∧ token ≠ [] :=
  manifestItemsByToken_entry manifest _ member

theorem missingCount_of_entry (member : (token, item) ∈ (manifestItemsByToken manifest).entries) :
    missingCount manifest token = item.missingScans := by
  rw [missingCount, OrderedDict.get?_of_mem member]

/-- Where an entry of a finished sync has its missing counter from. -/
inductive CountOrigin (sync : Sync α) (previous : OrderedDict Text ManifestItem) (token : Text)
    (item : ManifestItem) : Prop
  | reset (zero : item.missingScans = 0)
  | failed (earlier : ManifestItem) (entry : (token, earlier) ∈ previous.entries)
      (seen : sync.sees token) (count : item.missingScans = earlier.missingScans)
      (path : item.localPath = earlier.localPath) (lost : item.remoteToken = [])
  | absent (earlier : ManifestItem) (entry : (token, earlier) ∈ previous.entries)
      (made : absentItem sync token earlier = some item)

theorem sees_of_pending (pending : Pending)
    (listed : (token, pending) ∈ (pendingByToken sync.events).entries) : sync.sees token :=
  ((pendingByToken_plans sync.events).keys token).mp (mem_map_of_mem listed)

theorem keptItems_origin (root : Path) (sync : Sync α) (previous : OrderedDict Text ManifestItem)
    (tree : Hierarchy α) (item : ManifestItem) (member : item ∈ keptItems root sync previous tree) :
    item.missingScans = 0 ∧ Tokened item := by
  rcases mem_filterMap.mp member with ⟨⟨token, pending⟩, listed, made⟩
  dsimp only at made
  split at made
  · rcases Option.map_eq_some_iff.mp made with ⟨earlier, found, rfl⟩
    exact ⟨rfl, Or.inl rfl⟩
  · exact absurd made (by simp)

theorem pendingItems_named (root : Path) (sync : Sync α) (previous : OrderedDict Text ManifestItem)
    (tree : Hierarchy α) (job : Job α) (member : job ∈ pendingItems root sync previous tree) :
    sync.sees job.item.token ∧ job.previous = previous.get? job.item.token := by
  rcases mem_filterMap.mp member with ⟨⟨token, pending⟩, listed, made⟩
  dsimp only at made
  split at made
  · exact absurd made (by simp)
  · rw [Option.some.injEq] at made
    subst made
    have own : pending.item.token = token := (pendingByToken_plans sync.events).own _ listed
    rw [own]
    exact ⟨sees_of_pending sync token pending listed, rfl⟩

theorem failedItem_origin (root : Path) (sync : Sync α) (previous : OrderedDict Text ManifestItem)
    (tree : Hierarchy α) (job : Job α) (planned : job ∈ pendingItems root sync previous tree)
    (named : entryToken (failedItem job) ≠ []) :
    CountOrigin sync previous (entryToken (failedItem job)) (failedItem job) := by
  rcases pendingItems_named root sync previous tree job planned with ⟨seen, earlier⟩
  have token : entryToken (failedItem job) = job.item.token := by
    by_cases empty : job.item.token = []
    · simp [entryToken, orElse, failedItem, empty] at named
    · simp [entryToken, orElse, failedItem, empty]
  rw [token]
  cases found : job.previous with
  | none => exact .reset (by simp [failedItem, found])
  | some item =>
    have entry := OrderedDict.mem_of_get? (earlier.symm.trans found)
    exact .failed item entry seen (by simp [failedItem, found]) (by simp [failedItem, found]) rfl

theorem absentItem_kept (earlier item : ManifestItem)
    (made : absentItem sync token earlier = some item) :
    item.token = earlier.token ∧ item.remoteToken = earlier.remoteToken ∧
      item.localPath = earlier.localPath := by
  unfold absentItem at made
  split at made
  · exact absurd made (by simp)
  · cases made
    exact ⟨rfl, rfl, rfl⟩
  · cases made
    exact ⟨rfl, rfl, rfl⟩
  · cases made
    exact ⟨rfl, rfl, rfl⟩

theorem fate_seen_iff :
    sync.fate token item = .seen ↔ sync.sees token := by
  rw [Sync.sees, ← (pendingByToken_plans sync.events).keys, Sync.fate]
  split
  · simp [*]
  · simp only [*, iff_false]
    split
    · simp
    · split
      · simp
      · split
        · simp
        · simp

theorem absentItem_unseen (earlier item : ManifestItem)
    (made : absentItem sync token earlier = some item) : ¬ sync.sees token := by
  intro seen
  have fate := (fate_seen_iff sync token earlier).mpr seen
  simp [absentItem, fate] at made

theorem fate_incomplete (unseen : ¬ sync.sees token) (incomplete : ¬ sync.scanComplete) :
    sync.fate token item = .skipped := by
  rw [Sync.sees, ← (pendingByToken_plans sync.events).keys] at unseen
  rw [Sync.fate, if_neg unseen]
  exact if_pos incomplete

theorem fate_counted (fate : sync.fate token item = .missing ∨ sync.fate token item = .deleted) :
    sync.scanComplete ∧ ¬ sync.sees token := by
  constructor
  · by_contra incomplete
    by_cases seen : sync.sees token
    · rw [(fate_seen_iff sync token item).mpr seen] at fate
      exact absurd fate (by simp)
    · rw [fate_incomplete sync token item seen incomplete] at fate
      exact absurd fate (by simp)
  · intro seen
    rw [(fate_seen_iff sync token item).mpr seen] at fate
    exact absurd fate (by simp)

theorem manifestItems_origin (tokened : ∀ item ∈ manifest, Tokened item)
    (refused : ∀ job ∈ pool.refused, job ∈ pendingItems config.root.parts sync
      (manifestItemsByToken manifest) tree) :
    ∀ item ∈ manifestItems config sync (manifestItemsByToken manifest) tree pool,
      Tokened item ∧ (entryToken item ≠ [] →
        CountOrigin sync (manifestItemsByToken manifest) (entryToken item) item) := by
  intro item member
  rcases mem_append.mp member with front | absent
  · rcases mem_append.mp front with kept | results
    · rcases keptItems_origin _ sync _ tree item kept with ⟨zero, named⟩
      exact ⟨named, fun _ => .reset zero⟩
    · rcases mem_append.mp results with stored | failed
      · rcases mem_map.mp stored with ⟨placement, _, rfl⟩
        exact ⟨Or.inl rfl, fun _ => .reset rfl⟩
      · rcases mem_map.mp failed with ⟨job, listed, rfl⟩
        exact ⟨Or.inr rfl, failedItem_origin _ sync _ tree job (refused job listed)⟩
  · rcases mem_filterMap.mp absent with ⟨⟨token, earlier⟩, entry, made⟩
    rcases previous_entry manifest token earlier entry with ⟨inside, key, _⟩
    rcases absentItem_kept sync token earlier item made with ⟨sameToken, sameRemote, _⟩
    have named : entryToken item = token := by
      rw [key, entryToken, entryToken, sameToken, sameRemote]
    constructor
    · rw [Tokened, sameToken, sameRemote]
      exact tokened earlier inside
    · intro _
      rw [named]
      exact .absent earlier entry made

theorem run_refused (jobs : List (Job α)) (tree : Hierarchy α)
    (actions : List PoolAction) (pool : Pool α)
    (executed : exec (poolStep config) (Pool.start tree jobs) actions = some pool) :
    ∀ job ∈ pool.refused, job ∈ jobs := by
  have run : Steps (poolStep config) (ClearChoice config []) (Pool.start tree jobs) actions pool := by
    apply (exec_steps executed).weaken
    intro reached action _
    cases action with
    | choose token => exact fun _ _ _ _ => (clear_iff _ _ _ _ _ _ _ _).mpr not_mem_nil
    | refuse token => trivial
    | store token => trivial
  intro job member
  exact ((run_delivered config [] jobs tree actions pool run).refused job member).1

theorem raises_allFailed
    (previous : OrderedDict Text ManifestItem) (tree : Hierarchy α) (pool : Pool α)
    (executed : exec (poolStep config)
      (Pool.start tree (pendingItems config.root.parts sync previous tree)) sync.schedule = some pool)
    (complete : pool.complete = true)
    (raised : raisesAllFailed sync previous (keptItems config.root.parts sync previous tree) pool =
      true) : AllFailed config.root.parts sync previous tree := by
  refine ⟨raises_nothing config sync previous tree pool Any (exec_steps executed) complete raised, ?_⟩
  simp only [raisesAllFailed, Bool.and_eq_true, decide_eq_true_eq] at raised
  have counted := (Nat.add_eq_zero_iff.mp raised.1).2
  intro entry member
  have uncounted := countP_eq_zero.mp counted entry member
  simp only [Bool.or_eq_true, Bool.and_eq_true, decide_eq_true_eq, not_or, not_and] at uncounted
  exact uncounted

theorem finishSync_origin (tokened : ∀ item ∈ manifest, Tokened item)
    (executed : exec (poolStep config) (Pool.start tree (pendingItems config.root.parts sync
      (manifestItemsByToken manifest) tree)) sync.schedule = some pool)
    (complete : pool.complete = true) :
    ∀ item ∈ (finishSync config sync (manifestItemsByToken manifest) tree pool).manifest,
      Tokened item ∧ (entryToken item ≠ [] → ∃ raw, raw.missingScans = item.missingScans ∧
        raw.localPath = item.localPath ∧
        CountOrigin sync (manifestItemsByToken manifest) (entryToken item) raw ∧
        (item.localPath ≠ [] → sync.sees (entryToken item) → raw.missingScans = 0 ∨
          AllFailed config.root.parts sync (manifestItemsByToken manifest) tree)) := by
  have refused := run_refused config _ tree sync.schedule pool executed
  have origin := manifestItems_origin config sync manifest tree pool tokened refused
  intro item member
  simp only [finishSync] at member
  split at member
  · rename_i raised
    have failed := raises_allFailed config sync _ tree pool executed complete raised
    rcases origin item member with ⟨named, from_⟩
    exact ⟨named, fun key => ⟨item, rfl, rfl, from_ key, fun _ _ => Or.inr failed⟩⟩
  · unfold buildManifest at member
    dsimp only at member
    split at member
    · rename_i none
      rcases origin item member with ⟨named, from_⟩
      refine ⟨named, fun key => ⟨item, rfl, rfl, from_ key, fun filled => ?_⟩⟩
      have listed : item ∈ (manifestItems config sync (manifestItemsByToken manifest) tree
          pool).filter (·.localPath ≠ []) := mem_filter.mpr ⟨member, by simpa using filled⟩
      rw [none] at listed
      exact absurd listed not_mem_nil
    · rcases mem_map.mp member with ⟨raw, filtered, rfl⟩
      have inside := (mem_filter.mp filtered).1
      rcases origin raw inside with ⟨named, from_⟩
      refine ⟨tokened_rebuiltItem raw, fun key => ?_⟩
      have same := named.rebuilt key
      have remote := entryToken_rebuiltItem raw ▸ key
      rw [same] at key ⊢
      refine ⟨raw, rfl, rfl, from_ key, fun _ seen => Or.inl ?_⟩
      cases from_ key with
      | reset zero => exact zero
      | failed _ _ _ _ _ lost => exact absurd lost remote
      | absent earlier _ made => exact absurd seen (absentItem_unseen sync _ earlier raw made)

theorem attemptSync_cases (before after : Datasource α) (attempt : Attempt α)
    (taken : attemptSync config before attempt = some after) :
    (cutShort config before attempt = true ∧ after.manifest = before.manifest ∧
        after.removed = []) ∨
      (cutShort config before attempt = false ∧ ∃ tree pool,
        prepareFolders config.root.parts attempt.sync.events before.tree = .ok tree ∧
        exec (poolStep config) (Pool.start tree (pendingItems config.root.parts attempt.sync
          (manifestItemsByToken before.manifest) tree)) attempt.sync.schedule = some pool ∧
        pool.complete = true ∧
        after = finishSync config attempt.sync (manifestItemsByToken before.manifest) tree pool) := by
  unfold attemptSync at taken
  split at taken
  · rename_i aborted
    refine Or.inl ⟨by simp [cutShort, aborted], ?_⟩
    unfold abortedSync at taken
    split at taken
    · cases taken
      exact ⟨rfl, rfl⟩
    · rcases Option.map_eq_some_iff.mp taken with ⟨pool, _, rfl⟩
      exact ⟨rfl, rfl⟩
  · rename_i whole
    unfold syncFeishuResources at taken
    dsimp only at taken
    split at taken
    · rename_i failure prepared
      cases taken
      exact Or.inl ⟨by simp [cutShort, prepared], rfl, rfl⟩
    · rename_i tree prepared
      rcases Option.map_eq_some_iff.mp taken with ⟨pool, executed, rfl⟩
      cases complete : pool.complete with
      | true =>
        exact Or.inr ⟨by simp [cutShort, whole, prepared, executed, complete], tree, pool, prepared,
          executed, complete, rfl⟩
      | false =>
        exact Or.inl ⟨by simp [cutShort, prepared, executed, complete], rfl, rfl⟩

/-- What holds between the syncs of a history: entries name their tokens, and an entry
with a missing counter and a file has been absent since it was last seen. -/
structure Counted (history : List (Attempt α)) (manifest : List ManifestItem) : Prop where
  tokened : ∀ item ∈ manifest, Tokened item
  absent : ∀ item ∈ manifest, 1 ≤ item.missingScans → entryToken item ≠ [] →
    item.localPath ≠ [] → AbsentSince history (entryToken item)

theorem absentItem_counted (earlier item : ManifestItem)
    (before : 1 ≤ earlier.missingScans → AbsentSince history token)
    (made : absentItem attempt.sync token earlier = some item) (counted : 1 ≤ item.missingScans) :
    AbsentSince (history ++ [attempt]) token := by
  have unseen := absentItem_unseen attempt.sync token earlier item made
  unfold absentItem at made
  split at made
  · exact absurd made (by simp)
  · cases made
    exact (before counted).append attempt unseen
  · rename_i fate
    exact .last history attempt (fate_counted attempt.sync token earlier (Or.inl fate)).1 unseen
  · cases made
    exact (before counted).append attempt unseen

theorem finishSync_counted (before : Datasource α) (tree : Hierarchy α) (pool : Pool α)
    (counted : Counted history before.manifest)
    (guard : Resets config before attempt)
    (prepared : prepareFolders config.root.parts attempt.sync.events before.tree = .ok tree)
    (executed : exec (poolStep config) (Pool.start tree (pendingItems config.root.parts attempt.sync
      (manifestItemsByToken before.manifest) tree)) attempt.sync.schedule = some pool)
    (complete : pool.complete = true) :
    Counted (history ++ [attempt])
      (finishSync config attempt.sync (manifestItemsByToken before.manifest) tree pool).manifest := by
  have origin := finishSync_origin config attempt.sync before.manifest tree pool counted.tokened
    executed complete
  refine ⟨fun item member => (origin item member).1, ?_⟩
  intro item member missing named filled
  rcases (origin item member).2 named with ⟨raw, sameCount, samePath, from_, returns⟩
  rw [← sameCount] at missing
  have rawFilled : raw.localPath ≠ [] := samePath ▸ filled
  cases from_ with
  | reset zero => omega
  | failed earlier entry seen count path lost =>
    rcases previous_entry before.manifest _ earlier entry with ⟨inside, key, _⟩
    rcases returns filled seen with zero | failed
    · omega
    · have fails : FailsAll config before attempt.sync := by
        simpa only [FailsAll, prepared] using failed
      have unseen := guard.counters (Or.inr fails) earlier inside (by omega) (path ▸ rawFilled)
      exact absurd (key ▸ seen) unseen
  | absent earlier entry made =>
    rcases previous_entry before.manifest _ earlier entry with ⟨inside, key, known⟩
    have path := (absentItem_kept attempt.sync _ earlier raw made).2.2
    apply absentItem_counted history attempt _ earlier raw _ made missing
    intro already
    rw [key]
    exact counted.absent earlier inside already (key ▸ known) (path ▸ rawFilled)

theorem attemptSync_counted
    (before after : Datasource α) (attempt : Attempt α) (counted : Counted history before.manifest)
    (guard : Resets config before attempt)
    (taken : attemptSync config before attempt = some after) :
    Counted (history ++ [attempt]) after.manifest := by
  rcases attemptSync_cases config before after attempt taken with
    ⟨short, same, _⟩ | ⟨_, tree, pool, prepared, executed, complete, rfl⟩
  · rw [same]
    refine ⟨counted.tokened, ?_⟩
    intro item member missing named filled
    have unseen := guard.counters (Or.inl short) item member missing filled
    exact (counted.absent item member missing named filled).append attempt unseen
  · exact finishSync_counted config history attempt before tree pool counted guard prepared executed
      complete

theorem finishSync_closer (tokened : ∀ item ∈ manifest, Tokened item)
    (executed : exec (poolStep config) (Pool.start tree (pendingItems config.root.parts sync
      (manifestItemsByToken manifest) tree)) sync.schedule = some pool)
    (complete : pool.complete = true) (token : Text)
    (spared : sync.sees token ∨ ¬ sync.scanComplete) :
    missingCount (finishSync config sync (manifestItemsByToken manifest) tree pool).manifest token ≤
      missingCount manifest token := by
  cases found : (manifestItemsByToken
      (finishSync config sync (manifestItemsByToken manifest) tree pool).manifest).get? token with
  | none => simp [missingCount, found]
  | some item =>
    rcases previous_entry _ token item (OrderedDict.mem_of_get? found) with ⟨member, key, known⟩
    rw [missingCount_of_entry _ token item (OrderedDict.mem_of_get? found)]
    have origin := finishSync_origin config sync manifest tree pool tokened executed complete
    rcases (origin item member).2 (key ▸ known) with ⟨raw, sameCount, _, from_, _⟩
    rw [← sameCount]
    rw [← key] at from_
    cases from_ with
    | reset zero => omega
    | failed earlier entry _ count _ _ =>
      rw [missingCount_of_entry manifest token earlier entry]
      exact Nat.le_of_eq count
    | absent earlier entry made =>
      have unseen := absentItem_unseen sync token earlier raw made
      have incomplete := spared.resolve_left unseen
      rw [missingCount_of_entry manifest token earlier entry]
      simp only [absentItem, fate_incomplete sync token earlier unseen incomplete,
        Option.some.injEq] at made
      exact Nat.le_of_eq (congrArg ManifestItem.missingScans made).symm

theorem attemptSync_retains
    (before after : Datasource α) (attempt : Attempt α) (counted : Counted history before.manifest)
    (guard : Resets config before attempt)
    (taken : attemptSync config before attempt = some after) :
    Retains config history attempt before after := by
  rcases attemptSync_cases config before after attempt taken with
    ⟨_, same, nothing⟩ | ⟨whole, tree, pool, prepared, executed, complete, rfl⟩
  · constructor
    · intro item _ _ _ removed
      rw [nothing] at removed
      exact absurd removed not_mem_nil
    · intro token _
      exact Nat.le_of_eq (congrArg (missingCount · token) same)
  · constructor
    · intro item member named filled removed
      have doomed := deleteManifestFiles_removed config.root.parts _ pool.tree _ removed
      have fate : attempt.sync.fate (entryToken item) item = .deleted := by
        by_contra spared
        exact guard.files whole item member named filled spared doomed
      have absent := counted.absent item member (fate_deleted attempt.sync _ item fate) named filled
      rcases fate_counted attempt.sync _ item (Or.inr fate) with ⟨scan, unseen⟩
      exact ⟨scan, unseen, absent⟩
    · intro token spared
      exact finishSync_closer config attempt.sync before.manifest tree pool counted.tokened executed
        complete token spared

theorem run_counted (start finish : Datasource α)
    (attempts : List (Attempt α)) (counted : Counted history start.manifest)
    (run : Steps (attemptSync config) (Resets config) start attempts finish) :
    Counted (history ++ attempts) finish.manifest := by
  induction run generalizing history with
  | nil state => simpa using counted
  | @cons state next finish attempt rest allowed taken later ih =>
    have step := attemptSync_counted config history state next attempt counted allowed taken
    simpa using ih (history ++ [attempt]) step

/-- In every sequence of syncs, finished or cut short, in which no missing entry comes back
in a sync that cannot reset it and no deleted entry shares its file with one that stays, a
file goes only after two complete scans without its token and none with it in between. -/
theorem removed_after_two_absent_scans (config : PoolConfig) (tree : Hierarchy α)
    (attempts : List (Attempt α)) (datasource : Datasource α)
    (run : Steps (attemptSync config) (Resets config) (Datasource.fresh tree) attempts datasource) :
    RetainsAlong config (Datasource.fresh tree) attempts := by
  intro history attempt later before after parts first taken
  rw [parts] at run
  rcases run.split with ⟨middle, front, rest⟩
  have reached := front.agree first
  subst reached
  have initial : Counted ([] : List (Attempt α)) (Datasource.fresh tree).manifest :=
    ⟨nofun, nofun⟩
  have counted := run_counted config [] _ _ history initial front
  cases rest with
  | cons allowed _ _ =>
    exact attemptSync_retains config history middle after attempt counted allowed taken

def finished (sync : Sync Text) : Attempt Text := ⟨sync, false⟩

def failingSync : Sync Text :=
  { sampleSync ["tokA"] with
    incremental := false
    downloads := fun _ => none
    schedule := [.refuse "tokA".toList] }

def failedBetween : List (Attempt Text) :=
  [finished (sampleSync ["tokA"]), finished (sampleSync []), finished failingSync]

theorem failed_download_keeps_counter :
    ¬ RetainsAlong sampleConfig (Datasource.fresh sampleTree)
      (failedBetween ++ [finished (sampleSync [])]) := by
  intro retains
  have executed : (exec (attemptSync sampleConfig) (Datasource.fresh sampleTree) failedBetween).any
      (fun before => before.manifest.any (fun item =>
          entryToken item = "tokA".toList && item.localPath ≠ [] &&
            fileOf sampleConfig.root.parts item.localPath = samplePath) &&
        (attemptSync sampleConfig before (finished (sampleSync []))).any
          (fun after => after.removed = [samplePath])) = true := by
    decide +kernel
  rcases (Option.any_eq_true _ _).mp executed with ⟨before, reached, lost⟩
  rw [Bool.and_eq_true] at lost
  rcases any_eq_true.mp lost.1 with ⟨item, member, shape⟩
  rcases (Option.any_eq_true _ _).mp lost.2 with ⟨after, taken, removed⟩
  simp only [Bool.and_eq_true, decide_eq_true_eq] at shape removed
  have step := retains failedBetween _ [] before after rfl (exec_steps reached) taken
  have named : entryToken item ≠ [] := by
    rw [shape.1.1]
    decide
  have gone : fileOf sampleConfig.root.parts item.localPath ∈ after.removed := by
    rw [shape.2, removed]
    exact mem_cons_self
  have absent := (step.removed item member named shape.1.2 gone).2.2
  rw [shape.1.1] at absent
  have unseen : ¬ failingSync.sees "tokA".toList :=
    @AbsentSince.last_unseen _ failedBetween.dropLast _ _ absent
  exact unseen (by decide)

/-- The unchanged item comes back once, so that it takes two more scans to go. -/
def seenBetween : List (Attempt Text) :=
  [finished (sampleSync ["tokA"]), finished (sampleSync []),
    finished { sampleSync ["tokA"] with schedule := [] }, finished (sampleSync []),
    finished (sampleSync [])]

theorem removed_after_two_absent_scans_run :
    ∃ datasource : Datasource Text,
      RetainsAlong sampleConfig (Datasource.fresh sampleTree) seenBetween ∧
        datasource.removed = [samplePath] := by
  have executed : (execGuarded (attemptSync sampleConfig) (Resets sampleConfig)
      (Datasource.fresh sampleTree) seenBetween).any
      (fun datasource => datasource.removed = [samplePath]) = true := by decide +kernel
  rcases (Option.any_eq_true _ _).mp executed with ⟨datasource, reached, removed⟩
  exact ⟨datasource, removed_after_two_absent_scans sampleConfig sampleTree seenBetween datasource
    (execGuarded_steps reached), by simpa using removed⟩

end SourceLens.FeishuSync
