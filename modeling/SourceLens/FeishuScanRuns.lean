import SourceLens.FeishuScanPlans

/-! Every order of completion of a scan: it ends, and where no folder is found in two
ways that differ, or one worker lists them one by one, it builds one plan. -/

namespace SourceLens.FeishuScan

open List
open PosixPath (Path)
open FeishuPaths
open Transition

variable {config : ScanConfig} {scan : Scan} {narrow : Bool} {visit : Text → List Text}
  {completed : List Text}

def flyingTokens (tasks : List ScanTask) : List Text :=
  tasks.filterMap fun task =>
    match task with
    | .folder token _ _ _ => some token
    | .explicit _ => none

/-- With one worker the queue holds one level and part of the next, in order. -/
structure Levelled (visit : Text → List Text) (scan : Scan) (level : Nat) : Prop where
  started : ∀ folder ∈ scan.scannedFolders, (visit folder).length ≤ level
  sorted : (scan.queue.map taskDepth).Pairwise (· ≤ ·)
  bounds : ∀ task ∈ scan.queue, level ≤ taskDepth task ∧ taskDepth task ≤ level + 1
  flying : ∀ token dir depth root, .folder token dir depth root ∈ scan.inFlight → depth = level
  alone : scan.inFlight.length ≤ 1

structure Scanning (config : ScanConfig) (narrow : Bool) (visit : Text → List Text)
    (completed : List Text) (scan : Scan) : Prop where
  explored : Explored config narrow visit (InFlight scan) scan
  tally : Tally config completed 0 scan
  folders : (completed ++ flyingTokens scan.inFlight).Perm scan.scannedFolders
  distinct : scan.scannedFolders.Nodup
  room : scan.scanned ≤ config.maxItems
  running : scan.raised = false
  levelled : narrow = true → ∃ level, Levelled visit scan level

/-- Every state of a run: the scan is under way, or it raised for a reason that holds in
every order. -/
def Sound (config : ScanConfig) (narrow : Bool) (scan : Scan) : Prop :=
  (∃ visit completed, Scanning config narrow visit completed scan) ∨
    (scan.raised = true ∧ Overfull config)

theorem flyingTokens_append (front back : List ScanTask) :
    flyingTokens (front ++ back) = flyingTokens front ++ flyingTokens back :=
  filterMap_append

theorem Levelled.pop {level : Nat} (levelled : Levelled visit scan level) {task : ScanTask}
    {rest : List ScanTask} (front : scan.queue = task :: rest) :
    level ≤ taskDepth task ∧ (rest.map taskDepth).Pairwise (· ≤ ·) ∧
      ∀ other ∈ rest, taskDepth task ≤ taskDepth other ∧ taskDepth other ≤ taskDepth task + 1 := by
  have sorted := levelled.sorted
  have bounds := levelled.bounds
  rw [front] at sorted bounds
  rw [map_cons, pairwise_cons] at sorted
  have here := bounds task mem_cons_self
  refine ⟨here.1, sorted.2, ?_⟩
  intro other member
  have above := sorted.1 (taskDepth other) (mem_map_of_mem member)
  have below := (bounds other (mem_cons_of_mem _ member)).2
  omega

theorem popTask_scanning (single : narrow = true → workers config = 1)
    (scanning : Scanning config narrow visit completed scan) (task : ScanTask)
    (rest : List ScanTask) (front : scan.queue = task :: rest)
    (free : scan.inFlight.length < workers config) :
    ∃ after, Scanning config narrow after completed (popTask scan task rest) := by
  have idle : narrow = true → scan.inFlight = [] := by
    intro one
    rw [single one] at free
    exact length_eq_zero_iff.mp (by omega)
  cases task with
  | folder token dir depth root =>
    by_cases started : token ∈ scan.scannedFolders
    · have next : popTask scan (.folder token dir depth root) rest = { scan with queue := rest } :=
        if_pos started
      rw [next]
      have near : Near narrow (visit token).length depth := by
        intro one
        rcases scanning.levelled one with ⟨level, levelled⟩
        exact (levelled.started token started).trans (levelled.pop front).1
      refine ⟨visit, popTask_dropped scanning.explored front started near,
        ⟨scanning.tally.count, scanning.tally.nodup⟩, scanning.folders, scanning.distinct,
        scanning.room, scanning.running, ?_⟩
      intro one
      rcases scanning.levelled one with ⟨level, levelled⟩
      rcases levelled.pop front with ⟨least, sorted, bounds⟩
      refine ⟨depth, ?_, sorted, bounds, ?_, levelled.alone⟩
      · exact fun folder member => (levelled.started folder member).trans least
      · intro other otherDir at_ from_ flies
        simp [idle one] at flies
    · have next : popTask scan (.folder token dir depth root) rest =
          { scan with
            queue := rest
            inFlight := scan.inFlight ++ [.folder token dir depth root]
            scannedFolders := token :: scan.scannedFolders } := if_neg started
      rw [next]
      rcases popTask_started scanning.explored front started with ⟨trail, length, explored⟩
      refine ⟨_, explored, ⟨scanning.tally.count, scanning.tally.nodup⟩, ?_,
        nodup_cons.mpr ⟨started, scanning.distinct⟩, scanning.room, scanning.running, ?_⟩
      · dsimp only
        rw [flyingTokens_append, ← append_assoc]
        exact (perm_append_singleton token _).trans (scanning.folders.cons token)
      · intro one
        rcases scanning.levelled one with ⟨level, levelled⟩
        rcases levelled.pop front with ⟨least, sorted, bounds⟩
        refine ⟨depth, ?_, sorted, bounds, ?_, ?_⟩
        · intro folder member
          rcases mem_cons.mp member with rfl | old
          · rw [Function.update_self]
            exact Nat.le_of_eq length
          · rw [Function.update_of_ne (fun same : folder = token => started (same ▸ old))]
            exact (levelled.started folder old).trans least
        · intro other otherDir at_ from_ flies
          simp only [idle one, nil_append, mem_singleton, ScanTask.folder.injEq] at flies
          exact flies.2.2.1
        · simp [idle one]
  | explicit resource =>
    refine ⟨visit, popTask_explicit scanning.explored front,
      ⟨scanning.tally.count, scanning.tally.nodup⟩, ?_, scanning.distinct, scanning.room,
      scanning.running, ?_⟩
    · simp only [popTask]
      rw [flyingTokens_append]
      simpa [flyingTokens] using scanning.folders
    · intro one
      rcases scanning.levelled one with ⟨level, levelled⟩
      rcases levelled.pop front with ⟨least, sorted, bounds⟩
      refine ⟨1, ?_, sorted, bounds, ?_, ?_⟩
      · exact fun folder member => (levelled.started folder member).trans least
      · intro other otherDir at_ from_ flies
        simp [popTask, idle one] at flies
      · simp [popTask, idle one]

theorem takeBatch_scanning (single : narrow = true → workers config = 1) (queue : List ScanTask) :
    ∀ (visit : Text → List Text) (scan : Scan), scan.queue = queue →
      Scanning config narrow visit completed scan →
      ∃ after, Scanning config narrow after completed (takeBatch config queue scan) := by
  induction queue with
  | nil => exact fun visit scan _ scanning => ⟨visit, scanning⟩
  | cons task rest ih =>
    intro visit scan front scanning
    rw [takeBatch]
    split
    · rename_i free
      rcases popTask_scanning single scanning task rest front free with ⟨after, next⟩
      have shorter : (popTask scan task rest).queue = rest := by
        cases task with
        | folder token dir depth root =>
          simp only [popTask]
          split
          · rfl
          · rfl
        | explicit resource => rfl
      exact ih after _ shorter next
    · exact ⟨visit, scanning⟩

theorem flyingTokens_erase {tasks : List ScanTask} {task : ScanTask} (member : task ∈ tasks) :
    (flyingTokens [task] ++ flyingTokens (tasks.erase task)).Perm (flyingTokens tasks) := by
  rw [← flyingTokens_append]
  exact ((perm_cons_erase member).filterMap _).symm

theorem landFolder_explored (token root : Text) (dir : Path) (depth : Nat)
    (explored : Explored config narrow visit (InFlight scan) scan) : Explored config narrow visit
      (fun folder => folder = token ∨
        InFlight { scan with inFlight := scan.inFlight.erase (.folder token dir depth root) } folder)
      { scan with inFlight := scan.inFlight.erase (.folder token dir depth root) } := by
  refine ⟨explored.trails, explored.queued, ?_, ?_, explored.roots, ?_, ?_, explored.attributed,
    explored.within, explored.keys⟩
  · exact fun other otherDir bound from_ flies =>
      explored.flying other otherDir bound from_ (mem_of_mem_erase flies)
  · intro folder member
    rcases explored.finished folder member with ⟨otherDir, bound, from_, flies⟩ | done
    · by_cases same : folder = token
      · exact .inl (.inl same)
      · refine .inl (.inr ⟨otherDir, bound, from_, ?_⟩)
        exact (mem_erase_of_ne (by simp [same])).mpr flies
    · exact .inr done
  · intro resource listed isNamed
    rcases explored.named resource listed isNamed with waits | flies | done
    · exact .inl waits
    · exact .inr (.inl ((mem_erase_of_ne (by simp)).mpr flies))
    · exact .inr (.inr done)
  · intro resource either
    exact explored.resources resource (either.imp_right mem_of_mem_erase)

theorem Explored.settle {busy : Text → Prop} {token : Text}
    (explored : Explored config narrow visit (fun folder => folder = token ∨ busy folder) scan)
    (done : Done config narrow visit scan token) : Explored config narrow visit busy scan := by
  refine { explored with finished := ?_ }
  intro folder member
  rcases explored.finished folder member with (rfl | flies) | finished
  · exact .inr done
  · exact .inl flies
  · exact .inr finished

theorem Levelled.land {level : Nat} (levelled : Levelled visit scan level) {next : Scan}
    (task : ScanTask) (flights : next.inFlight = scan.inFlight.erase task)
    (folders : next.scannedFolders = scan.scannedFolders)
    (queue : ∃ added, next.queue = scan.queue ++ added ∧
      ∀ other ∈ added, taskDepth other = level + 1) : Levelled visit next level := by
  rcases queue with ⟨added, grown, depths⟩
  refine ⟨?_, ?_, ?_, ?_, ?_⟩
  · rw [folders]
    exact levelled.started
  · rw [grown, map_append, pairwise_append]
    refine ⟨levelled.sorted, ?_, ?_⟩
    · rw [pairwise_map]
      exact pairwise_of_forall_mem_list fun one first other second => by
        rw [depths one first, depths other second]
    · intro one first other second
      rcases mem_map.mp first with ⟨old, waits, rfl⟩
      rcases mem_map.mp second with ⟨new, new_, rfl⟩
      rw [depths new new_]
      exact (levelled.bounds old waits).2
  · intro other member
    rw [grown] at member
    rcases mem_append.mp member with old | new
    · exact levelled.bounds other old
    · rw [depths other new]
      omega
  · intro token dir depth root flies
    rw [flights] at flies
    exact levelled.flying token dir depth root (mem_of_mem_erase flies)
  · rw [flights]
    exact (erase_sublist).length_le.trans levelled.alone

theorem completeFolder_sound (scanning : Scanning config narrow visit completed scan) (token : Text)
    (dir : Path) (depth : Nat) (root : Text) (flies : .folder token dir depth root ∈ scan.inFlight) :
    Sound config narrow (completeTask config
      { scan with inFlight := scan.inFlight.erase (.folder token dir depth root) }
      (.folder token dir depth root)) := by
  have landed := landFolder_explored token root dir depth scanning.explored
  rcases scanning.explored.flying token dir depth root flies with ⟨started, atDepth, atRoot⟩
  have permuted : ((completed ++ [token]) ++
      flyingTokens (scan.inFlight.erase (.folder token dir depth root))).Perm
      scan.scannedFolders := by
    rw [append_assoc]
    exact ((flyingTokens_erase flies).append_left completed).trans scanning.folders
  have distinct : (completed ++ [token]).Nodup :=
    (permuted.nodup_iff.mpr scanning.distinct).sublist (sublist_append_left _ _)
  have reached : ∀ other ∈ completed, other ∈ scan.scannedFolders := fun other member =>
    scanning.folders.subset (mem_append_left _ member)
  rw [completeTask]
  split
  · rename_i failed
    refine .inl ⟨visit, completed ++ [token], ?_, ?_, permuted, scanning.distinct, scanning.room,
      scanning.running, ?_⟩
    · have done : Done config narrow visit
          { scan with inFlight := scan.inFlight.erase (.folder token dir depth root) } token := by
        intro children page
        rw [failed] at page
        cases page
      have settled := landed.settle done
      exact ⟨settled.trails, settled.queued, settled.flying, settled.finished, settled.roots,
        settled.named, settled.resources, settled.attributed, settled.within, settled.keys⟩
    · refine ⟨?_, scanning.tally.nodup⟩
      have none : links config token = 0 := by rw [links, failed]
      rw [map_append, sum_append, map_singleton, sum_singleton, none]
      exact scanning.tally.count
    · intro one
      rcases scanning.levelled one with ⟨level, levelled⟩
      exact ⟨level, levelled.land (.folder token dir depth root) rfl rfl
        ⟨[], (append_nil _).symm, fun _ no => absurd no not_mem_nil⟩⟩
  · rename_i children page
    have here : Page config visit
        { scan with inFlight := scan.inFlight.erase (.folder token dir depth root) } token depth root
        ([] ++ children) := ⟨started, atDepth, atRoot, page⟩
    have before : Tally config completed (([] : List FeishuItem).countP isFolder)
        { scan with inFlight := scan.inFlight.erase (.folder token dir depth root) } :=
      ⟨scanning.tally.count, scanning.tally.nodup⟩
    cases made : collectFeishuFolderChildren config dir depth root children
        { scan with inFlight := scan.inFlight.erase (.folder token dir depth root) } with
    | none =>
      exact .inr ⟨rfl, collect_none dir children [] landed here before distinct reached made⟩
    | some next =>
      have nothing : Collected config narrow visit
          { scan with inFlight := scan.inFlight.erase (.folder token dir depth root) }
          (visit token) [] := fun _ no => absurd no not_mem_nil
      rcases collect_some dir children [] landed here nothing before made with
        ⟨explored, collected, tally, appends, room⟩
      rw [nil_append] at collected tally
      have done : Done config narrow visit next token := by
        intro listed again
        rw [page] at again
        cases again
        exact collected
      have settled := explored.settle done
      refine .inl ⟨visit, completed ++ [token], ?_, ⟨?_, tally.nodup⟩, ?_, ?_,
        room scanning.room, appends.raised.trans scanning.running, ?_⟩
      · rw [Option.getD_some]
        refine { settled with finished := ?_ }
        intro folder member
        rcases settled.finished folder member with ⟨otherDir, bound, from_, still⟩ | finished
        · rw [InFlight, appends.inFlight]
          exact .inl ⟨otherDir, bound, from_, still⟩
        · exact .inr finished
      · have all : links config token = children.countP isFolder := by rw [links, page]
        rw [map_append, sum_append, map_singleton, sum_singleton, all]
        exact tally.count
      · rw [Option.getD_some, appends.inFlight, appends.folders]
        exact permuted
      · rw [Option.getD_some, appends.folders]
        exact scanning.distinct
      · intro one
        rcases scanning.levelled one with ⟨level, levelled⟩
        have same := levelled.flying token dir depth root flies
        rw [Option.getD_some]
        exact ⟨level, levelled.land (.folder token dir depth root) appends.inFlight appends.folders
          (same ▸ appends.queue)⟩

theorem planExplicit_some {resource : Resource} {item : FeishuItem} {next : Scan}
    (made : planExplicit config resource item scan = some next)
    (keys : ∀ token, token ∈ scan.seen ↔ token ∈ scan.pending.keys) :
    next.queue = scan.queue ∧ next.inFlight = scan.inFlight ∧
      next.scannedFolders = scan.scannedFolders ∧ next.raised = scan.raised ∧
      (∀ token, token ∈ next.seen ↔ token ∈ scan.seen ∨ token = item.token) ∧
      (∀ token, token ∈ next.seen ↔ token ∈ next.pending.keys) ∧
      (∀ token root, root ∈ rootsOf next token ↔
        root ∈ rootsOf scan token ∨ (token = item.token ∧ root = resource.rootId)) ∧
      (scan.seen.Nodup → next.seen.Nodup) ∧
      next.scanned + scan.seen.length = scan.scanned + next.seen.length ∧
      (scan.scanned ≤ config.maxItems → next.scanned ≤ config.maxItems) := by
  unfold planExplicit at made
  split at made
  · rename_i existing found
    cases made
    have old : item.token ∈ scan.seen :=
      (keys item.token).mpr (mem_map_of_mem (OrderedDict.mem_of_get? found))
    have seen : ∀ token, token ∈ scan.seen ↔ token ∈ scan.seen ∨ token = item.token := by
      intro token
      constructor
      · exact .inl
      · intro either
        rcases either with inside | rfl
        · exact inside
        · exact old
    refine ⟨rfl, rfl, rfl, rfl, seen, ?_, ?_, id, rfl, id⟩
    · intro token
      rw [OrderedDict.mem_keys_set, ← keys]
      exact (seen token).trans or_comm
    · intro token root
      rw [rootsOf_set scan _ item.token token _ rfl]
      split
      · rename_i same
        subst same
        rw [rootsOf, found, mem_addRoot]
        simp
      · rename_i apart
        simp [apart]
  · rename_i missing
    dsimp only at made
    split at made
    · cases made
    · rename_i room
      cases made
      have fresh : item.token ∉ scan.seen := by
        intro old
        rcases mem_map.mp ((keys item.token).mp old) with ⟨entry, member, same⟩
        have found := OrderedDict.get?_of_mem (show (entry.1, entry.2) ∈ _ from member)
        rw [same, missing] at found
        cases found
      refine ⟨rfl, rfl, rfl, rfl, ?_, ?_, ?_, ?_, ?_, fun _ => Nat.le_of_not_lt room⟩
      · exact fun token => mem_append.trans (or_congr_right mem_singleton)
      · intro token
        rw [OrderedDict.mem_keys_set, ← keys, mem_append, mem_singleton, or_comm]
      · intro token root
        rw [rootsOf_set scan _ item.token token _ rfl]
        split
        · rename_i same
          subst same
          rw [rootsOf, missing]
          simp
        · rename_i apart
          simp [apart]
      · intro distinct
        exact nodup_append.mpr ⟨distinct, nodup_singleton _, by
          intro one inside other new same
          rw [mem_singleton.mp new] at same
          exact fresh (same ▸ inside)⟩
      · dsimp only
        rw [length_append, length_singleton]
        omega

theorem planExplicit_none {resource : Resource} {item : FeishuItem}
    (made : planExplicit config resource item scan = none)
    (keys : ∀ token, token ∈ scan.seen ↔ token ∈ scan.pending.keys) :
    item.token ∉ scan.seen ∧ config.maxItems < scan.scanned + 1 := by
  unfold planExplicit at made
  split at made
  · cases made
  · rename_i missing
    dsimp only at made
    split at made
    · rename_i excess
      refine ⟨?_, excess⟩
      intro old
      rcases mem_map.mp ((keys item.token).mp old) with ⟨entry, member, same⟩
      have found := OrderedDict.get?_of_mem (show (entry.1, entry.2) ∈ _ from member)
      rw [same, missing] at found
      cases found
    · cases made

theorem completeExplicit_sound (scanning : Scanning config narrow visit completed scan)
    (resource : Resource) (flies : .explicit resource ∈ scan.inFlight) :
    Sound config narrow (completeTask config
      { scan with inFlight := scan.inFlight.erase (.explicit resource) } (.explicit resource)) := by
  have explored := scanning.explored
  rcases explored.resources resource (.inr flies) with ⟨listed, isNamed⟩
  have folders : (completed ++ flyingTokens (scan.inFlight.erase (.explicit resource))).Perm
      scan.scannedFolders :=
    ((flyingTokens_erase flies).append_left completed).trans scanning.folders
  -- All that the landing of this one task takes away is its own place in the pool.
  have landing : ∀ next : Scan, next.queue = scan.queue →
      next.inFlight = scan.inFlight.erase (.explicit resource) →
      next.scannedFolders = scan.scannedFolders →
      Grows narrow visit visit scan next → Named config next resource →
      (∀ token root, root ∈ rootsOf next token → Attributed config token root) →
      (∀ token ∈ next.seen, WithinDepth config token) →
      (∀ token, token ∈ next.seen ↔ token ∈ next.pending.keys) →
      Explored config narrow visit (InFlight next) next := by
    intro next queue inFlight started grows done attributed within keys
    refine ⟨?_, ?_, ?_, ?_, ?_, ?_, ?_, attributed, within, keys⟩
    · intro folder member
      rw [started] at member
      rcases explored.trails folder member with ⟨above, same, way⟩
      exact ⟨above, same, way.grow grows⟩
    · intro token dir depth root waits
      rw [queue] at waits
      rw [started]
      rcases explored.queued token dir depth root waits with old | ⟨above, way, at_⟩
      · exact .inl old
      · exact .inr ⟨above, way.grow grows, at_⟩
    · intro token dir depth root still
      rw [inFlight] at still
      rw [started]
      exact explored.flying token dir depth root (mem_of_mem_erase still)
    · intro folder member
      rw [started] at member
      rcases explored.finished folder member with ⟨dir, depth, root, still⟩ | finished
      · refine .inl ⟨dir, depth, root, ?_⟩
        rw [inFlight]
        exact (mem_erase_of_ne (by simp)).mpr still
      · exact .inr (grows.done member finished)
    · exact fun other inside isRoot => grows.met _ _ (explored.roots other inside isRoot)
    · intro other inside named
      rw [queue, inFlight]
      by_cases same : other = resource
      · exact .inr (.inr (same ▸ done))
      · rcases explored.named other inside named with waits | still | finished
        · exact .inl waits
        · exact .inr (.inl ((mem_erase_of_ne (by simp [same])).mpr still))
        · exact .inr (.inr (grows.named finished))
    · intro other either
      rw [queue, inFlight] at either
      exact explored.resources other (either.imp_right mem_of_mem_erase)
  have levels : ∀ next : Scan, next.queue = scan.queue →
      next.inFlight = scan.inFlight.erase (.explicit resource) →
      next.scannedFolders = scan.scannedFolders →
      narrow = true → ∃ level, Levelled visit next level := by
    intro next queue inFlight started one
    rcases scanning.levelled one with ⟨level, levelled⟩
    exact ⟨level, levelled.land (.explicit resource) inFlight started
      ⟨[], queue.trans (append_nil _).symm, nofun⟩⟩
  rw [completeTask]
  split
  · rename_i failed
    refine .inl ⟨visit, completed, ?_, ⟨scanning.tally.count, scanning.tally.nodup⟩, folders,
      scanning.distinct, scanning.room, scanning.running, levels _ rfl rfl rfl⟩
    refine landing { scan with
      inFlight := scan.inFlight.erase (.explicit resource)
      scanFailures := scan.scanFailures ++ [resource.token] } rfl rfl rfl ?_ ?_ explored.attributed
      explored.within explored.keys
    · exact ⟨fun _ _ => rfl, fun _ met => met, fun _ met => met, fun _ _ met => met,
        fun _ _ met => met⟩
    · intro item found
      rw [failed] at found
      cases found
  · rename_i item found
    cases made : planExplicit config resource item
        { scan with inFlight := scan.inFlight.erase (.explicit resource) } with
    | none =>
      rcases planExplicit_none made explored.keys with ⟨fresh, excess⟩
      refine .inr ⟨rfl, completed, scan.seen ++ [item.token], ?_, ?_, ?_, ?_, ?_⟩
      · exact (scanning.folders.nodup_iff.mpr scanning.distinct).sublist
          (sublist_append_left _ _)
      · exact nodup_append.mpr ⟨scanning.tally.nodup, nodup_singleton _, by
          intro one inside other new same
          rw [mem_singleton.mp new] at same
          exact fresh (same ▸ inside)⟩
      · intro folder member
        rcases explored.trails folder
          (scanning.folders.subset (mem_append_left _ member)) with ⟨above, _, way⟩
        exact ⟨above, way.1⟩
      · intro token member
        rcases mem_append.mp member with old | new
        · exact explored.within token old
        · rw [mem_singleton.mp new]
          exact .explicit resource item listed isNamed found
      · have count := scanning.tally.count
        rw [length_append, length_singleton]
        dsimp only at excess
        omega
    | some next =>
      rcases planExplicit_some made explored.keys with
        ⟨queue, inFlight, started, raised, seen, keys, roots, nodup, count, room⟩
      rw [Option.getD_some]
      have grows : Grows narrow visit visit scan next := by
        refine ⟨fun _ _ => rfl, fun _ met => started ▸ met, fun _ met => (seen _).mpr (.inl met),
          fun _ _ met => (roots _ _).mpr (.inl met), ?_⟩
        intro token depth met
        rw [Met, queue, started]
        exact met
      refine .inl ⟨visit, completed, ?_, ⟨?_, nodup scanning.tally.nodup⟩, ?_, ?_,
        room scanning.room, raised.trans scanning.running, levels next queue inFlight started⟩
      · apply landing next queue inFlight started grows _ _ _ keys
        · intro other again
          rw [found] at again
          cases again
          exact ⟨(seen _).mpr (.inr rfl), (roots _ _).mpr (.inr ⟨rfl, rfl⟩)⟩
        · intro token root met
          rcases (roots token root).mp met with old | ⟨rfl, rfl⟩
          · exact explored.attributed token root old
          · exact .explicit resource item listed isNamed found
        · intro token met
          rcases (seen token).mp met with old | rfl
          · exact explored.within token old
          · exact .explicit resource item listed isNamed found
      · have before := scanning.tally.count
        dsimp only at count
        omega
      · rw [inFlight, started]
        exact folders
      · rw [started]
        exact scanning.distinct

theorem scanStep_sound (single : narrow = true → workers config = 1) (scan next : Scan)
    (action : ScanAction) (sound : Sound config narrow scan)
    (taken : scanStep config scan action = some next) : Sound config narrow next := by
  cases action with
  | batch =>
    rw [scanStep] at taken
    split at taken
    · rename_i ready
      cases taken
      rcases sound with ⟨visit, completed, scanning⟩ | raised
      · rcases takeBatch_scanning single scan.queue visit scan rfl scanning with ⟨after, later⟩
        exact .inl ⟨after, completed, later⟩
      · rw [ready.1] at raised
        exact absurd raised.1 (by simp)
    · cases taken
  | complete task =>
    rw [scanStep] at taken
    split at taken
    · rename_i ready
      cases taken
      rcases sound with ⟨visit, completed, scanning⟩ | raised
      · cases task with
        | folder token dir depth root =>
          exact completeFolder_sound scanning token dir depth root ready.2
        | explicit resource => exact completeExplicit_sound scanning resource ready.2
      · rw [ready.1] at raised
        exact absurd raised.1 (by simp)
    · cases taken

theorem start_scanning (config : ScanConfig) (narrow : Bool) :
    Scanning config narrow (fun _ => []) [] (Scan.start config) := by
  have task : ∀ other ∈ (Scan.start config).queue, ∃ resource ∈ config.resources,
      resourceTask config resource = other := fun other member => mem_map.mp member
  refine ⟨⟨?_, ?_, ?_, ?_, ?_, ?_, ?_, ?_, ?_, ?_⟩, ⟨rfl, nodup_nil⟩, List.Perm.refl _,
    nodup_nil, Nat.zero_le _, rfl, fun _ => ⟨1, ?_, ?_, ?_, ?_, Nat.zero_le _⟩⟩
  · nofun
  · intro token dir depth root waits
    rcases task _ waits with ⟨resource, listed, made⟩
    rw [resourceTask] at made
    split at made
    · rename_i isRoot
      cases made
      exact .inr ⟨[], ⟨.root resource listed isRoot, fun _ member => absurd member
        not_mem_nil⟩, rfl, rfl⟩
    · cases made
  · exact fun _ _ _ _ member => absurd member not_mem_nil
  · nofun
  · intro resource listed isRoot
    have made : resourceTask config resource = .folder resource.token
        (config.target ++ ["folders".toList, PathRules.safeFilename resource.token]) 1
        resource.token := if_pos isRoot
    exact .inr ⟨_, resource.token, mem_map.mpr ⟨resource, listed, made⟩⟩
  · intro resource listed isNamed
    refine .inl (mem_map.mpr ⟨resource, listed, ?_⟩)
    rw [resourceTask, if_neg (by simp [isNamed])]
  · intro resource either
    rcases either with waits | flies
    · rcases task _ waits with ⟨other, listed, made⟩
      rw [resourceTask] at made
      split at made
      · cases made
      · rename_i isNamed
        cases made
        exact ⟨listed, by simpa using isNamed⟩
    · exact absurd flies not_mem_nil
  · exact fun _ _ member => absurd member not_mem_nil
  · nofun
  · exact fun _ => Iff.rfl
  · nofun
  · have flat : ∀ depth ∈ (Scan.start config).queue.map taskDepth, depth = 1 := by
      intro depth member
      rcases mem_map.mp member with ⟨other, waits, rfl⟩
      rcases task other waits with ⟨resource, _, rfl⟩
      rw [resourceTask]
      split
      · rfl
      · rfl
    exact pairwise_of_forall_mem_list fun one first other second => by
      rw [flat one first, flat other second]
  · intro other waits
    rcases task other waits with ⟨resource, _, rfl⟩
    rw [resourceTask]
    split
    · exact ⟨Nat.le_refl _, Nat.le_succ _⟩
    · exact ⟨Nat.le_refl _, Nat.le_succ _⟩
  · exact fun _ _ _ _ member => absurd member not_mem_nil

theorem run_sound (single : narrow = true → workers config = 1) (scan : Scan)
    (reached : Reachable (scanStep config) (Scan.start config) scan) : Sound config narrow scan :=
  reached.invariant (Sound config narrow)
    (fun state action next sound taken => scanStep_sound single state next action sound taken)
    (.inl ⟨_, _, start_scanning config narrow⟩)

end SourceLens.FeishuScan
