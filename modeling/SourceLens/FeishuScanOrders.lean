import SourceLens.FeishuScanRuns

/-! The outcome of a scan over all orders of completion. -/

namespace SourceLens.FeishuScan

open List
open PosixPath (Path)
open FeishuPaths
open Transition

/-- What is left to do, at most: every queued folder was counted as an item. -/
def potential (config : ScanConfig) (scan : Scan) : Nat :=
  if scan.raised then 0
  else 1 + 2 * scan.queue.length + scan.inFlight.length + 2 * (config.maxItems - scan.scanned)

theorem potential_running (config : ScanConfig) (scan : Scan) (running : scan.raised = false) :
    potential config scan =
      1 + 2 * scan.queue.length + scan.inFlight.length + 2 * (config.maxItems - scan.scanned) := by
  simp [potential, running]

theorem popTask_rest (scan : Scan) (task : ScanTask) (rest : List ScanTask) :
    (popTask scan task rest).queue = rest ∧ (popTask scan task rest).raised = scan.raised ∧
      (popTask scan task rest).scanned = scan.scanned ∧
      (popTask scan task rest).inFlight.length ≤ scan.inFlight.length + 1 := by
  cases task with
  | folder token dir depth root =>
    simp only [popTask]
    split
    · exact ⟨rfl, rfl, rfl, Nat.le_succ _⟩
    · exact ⟨rfl, rfl, rfl, Nat.le_of_eq length_append⟩
  | explicit resource => exact ⟨rfl, rfl, rfl, Nat.le_of_eq length_append⟩

theorem popTask_lowers (config : ScanConfig) (scan : Scan) (task : ScanTask) (rest : List ScanTask)
    (front : scan.queue = task :: rest) (running : scan.raised = false) :
    potential config (popTask scan task rest) < potential config scan := by
  rcases popTask_rest scan task rest with ⟨queue, raised, scanned, flights⟩
  rw [potential_running config _ (raised.trans running), potential_running config scan running, queue,
    scanned, front, length_cons]
  omega

theorem takeBatch_lowers (config : ScanConfig) (queue : List ScanTask) (scan : Scan)
    (front : scan.queue = queue) (running : scan.raised = false) :
    potential config (takeBatch config queue scan) ≤ potential config scan := by
  induction queue generalizing scan with
  | nil => exact Nat.le_refl _
  | cons task rest ih =>
    rw [takeBatch]
    split
    · rcases popTask_rest scan task rest with ⟨next, raised, _, _⟩
      exact (ih _ next (raised.trans running)).trans
        (Nat.le_of_lt (popTask_lowers config scan task rest front running))
    · exact Nat.le_refl _

theorem collect_lowers (config : ScanConfig) (dir : Path) (depth : Nat) (root : Text)
    (children : List FeishuItem) (scan next : Scan)
    (made : collectFeishuFolderChildren config dir depth root children scan = some next) :
    next.inFlight = scan.inFlight ∧ next.raised = scan.raised ∧
      next.queue.length + (config.maxItems - next.scanned) ≤
        scan.queue.length + (config.maxItems - scan.scanned) := by
  induction children generalizing scan with
  | nil =>
    cases made
    exact ⟨rfl, rfl, Nat.le_refl _⟩
  | cons child rest ih =>
    rw [collectFeishuFolderChildren] at made
    split at made
    · cases made
    · rename_i room
      have appends := collectChild_appends config dir depth root scan child
      rcases ih _ made with ⟨flights, raised, lower⟩
      refine ⟨flights.trans appends.inFlight, raised.trans appends.raised, lower.trans ?_⟩
      unfold collectChild at room ⊢
      split
      · rename_i isChild
        rw [if_pos isChild] at room
        dsimp only at room ⊢
        split
        · rw [length_append, length_singleton]
          omega
        · omega
      · dsimp only
        split
        · exact Nat.le_refl _
        · omega

theorem planExplicit_lowers (config : ScanConfig) (resource : Resource) (item : FeishuItem)
    (scan next : Scan) (made : planExplicit config resource item scan = some next) :
    next.inFlight = scan.inFlight ∧ next.raised = scan.raised ∧ next.queue = scan.queue ∧
      scan.scanned ≤ next.scanned := by
  unfold planExplicit at made
  split at made
  · cases made
    exact ⟨rfl, rfl, rfl, Nat.le_refl _⟩
  · dsimp only at made
    split at made
    · cases made
    · cases made
      exact ⟨rfl, rfl, rfl, Nat.le_succ _⟩

theorem completeTask_lowers (config : ScanConfig) (scan : Scan) (task : ScanTask)
    (running : scan.raised = false) (flies : task ∈ scan.inFlight) :
    potential config (completeTask config { scan with inFlight := scan.inFlight.erase task } task) <
      potential config scan := by
  have before := potential_running config scan running
  have shorter : (scan.inFlight.erase task).length + 1 = scan.inFlight.length := by
    rw [length_erase_of_mem flies]
    exact Nat.sub_add_cancel (length_pos_of_mem flies)
  cases task with
  | folder token dir depth root =>
    rw [completeTask]
    split
    · rw [potential_running config { scan with
        inFlight := scan.inFlight.erase (.folder token dir depth root)
        scanFailures := scan.scanFailures ++ [token] } running, before]
      dsimp only
      omega
    · rename_i children page
      cases made : collectFeishuFolderChildren config dir depth root children
          { scan with inFlight := scan.inFlight.erase (.folder token dir depth root) } with
      | none =>
        rw [before]
        simp only [potential, Option.getD_none, if_true]
        omega
      | some next =>
        rcases collect_lowers config dir depth root children _ next made with
          ⟨flights, raised, lower⟩
        rw [Option.getD_some, potential_running config next (raised.trans running), before,
          flights]
        dsimp only at lower ⊢
        omega
  | explicit resource =>
    rw [completeTask]
    split
    · rw [potential_running config { scan with
        inFlight := scan.inFlight.erase (.explicit resource)
        scanFailures := scan.scanFailures ++ [resource.token] } running, before]
      dsimp only
      omega
    · rename_i item found
      cases made : planExplicit config resource item
          { scan with inFlight := scan.inFlight.erase (.explicit resource) } with
      | none =>
        rw [before]
        simp only [potential, Option.getD_none, if_true]
        omega
      | some next =>
        rcases planExplicit_lowers config resource item _ next made with
          ⟨flights, raised, queue, more⟩
        rw [Option.getD_some, potential_running config next (raised.trans running), before,
          flights, queue]
        dsimp only at more ⊢
        omega

theorem scanStep_lowers (config : ScanConfig) (scan : Scan) (action : ScanAction) (next : Scan)
    (taken : scanStep config scan action = some next) :
    potential config next < potential config scan := by
  cases action with
  | batch =>
    rw [scanStep] at taken
    split at taken
    · rename_i ready
      cases taken
      rcases ready with ⟨running, idle, waits⟩
      cases front : scan.queue with
      | nil => exact absurd front waits
      | cons task rest =>
        have free : scan.inFlight.length < workers config := by
          rw [idle]
          exact Nat.lt_of_lt_of_le Nat.one_pos (Nat.le_max_left 1 config.maxWorkers)
        rcases popTask_rest scan task rest with ⟨later, raised, _, _⟩
        rw [takeBatch, if_pos free]
        exact Nat.lt_of_le_of_lt (takeBatch_lowers config rest _ later (raised.trans running))
          (popTask_lowers config scan task rest front running)
    · cases taken
  | complete task =>
    rw [scanStep] at taken
    split at taken
    · rename_i ready
      cases taken
      exact completeTask_lowers config scan task ready.1 ready.2
    · cases taken

theorem scanStep_progress (config : ScanConfig) (scan : Scan) (open_ : ¬ Ended scan) :
    ∃ action next, scanStep config scan action = some next := by
  rw [Ended, not_or, Bool.not_eq_true] at open_
  rcases open_ with ⟨running, rest⟩
  cases flights : scan.inFlight with
  | nil =>
    have waits : scan.queue ≠ [] := fun empty => rest ⟨empty, flights⟩
    exact ⟨.batch, _, if_pos ⟨running, flights, waits⟩⟩
  | cons task others =>
    have flies : task ∈ scan.inFlight := by
      rw [flights]
      exact mem_cons_self
    exact ⟨.complete task, _, if_pos ⟨running, flies⟩⟩

structure Finished (config : ScanConfig) (narrow : Bool) (visit : Text → List Text)
    (completed : List Text) (scan : Scan) : Prop where
  scanning : Scanning config narrow visit completed scan
  queue : scan.queue = []
  inFlight : scan.inFlight = []

theorem ended_finished {config : ScanConfig} {narrow : Bool}
    (single : narrow = true → workers config = 1) (scan : Scan)
    (reached : Reachable (scanStep config) (Scan.start config) scan) (ended : Ended scan)
    (running : scan.raised = false) :
    ∃ visit completed, Finished config narrow visit completed scan := by
  rcases ended with raised | ⟨queue, inFlight⟩
  · rw [running] at raised
    cases raised
  · rcases run_sound single scan reached with ⟨visit, completed, scanning⟩ | ⟨raised, _⟩
    · exact ⟨visit, completed, scanning, queue, inFlight⟩
    · rw [running] at raised
      cases raised

variable {config : ScanConfig} {narrow : Bool} {visit : Text → List Text} {completed : List Text}
  {scan : Scan}

theorem Finished.met (finished : Finished config narrow visit completed scan) {token : Text}
    {depth : Nat} (met : Met narrow visit scan token depth) :
    token ∈ scan.scannedFolders ∧ Near narrow (visit token).length depth := by
  rcases met with started | ⟨dir, root, waits⟩
  · exact started
  · rw [finished.queue] at waits
    exact absurd waits not_mem_nil

theorem Finished.done (finished : Finished config narrow visit completed scan) {folder : Text}
    (started : folder ∈ scan.scannedFolders) : Done config narrow visit scan folder := by
  rcases finished.scanning.explored.finished folder started with ⟨dir, depth, root, flies⟩ | done
  · rw [finished.inFlight] at flies
    exact absurd flies not_mem_nil
  · exact done

theorem Finished.named (finished : Finished config narrow visit completed scan) {resource : Resource}
    (listed : resource ∈ config.resources) (isNamed : resource.isFolder = false) :
    Named config scan resource := by
  rcases finished.scanning.explored.named resource listed isNamed with waits | flies | done
  · rw [finished.queue] at waits
    exact absurd waits not_mem_nil
  · rw [finished.inFlight] at flies
    exact absurd flies not_mem_nil
  · exact done

def Covers (config : ScanConfig) (scan : Scan) : Prop :=
  ∀ folder depth, FolderAt config folder depth → folder ∈ scan.scannedFolders

theorem Finished.covers_narrow (finished : Finished config true visit completed scan) :
    Covers config scan := by
  have nearest : ∀ folder depth, FolderAt config folder depth →
      folder ∈ scan.scannedFolders ∧ (visit folder).length ≤ depth := by
    intro folder depth found
    induction found with
    | root resource listed isRoot =>
      rcases finished.met (finished.scanning.explored.roots resource listed isRoot) with
        ⟨started, near⟩
      exact ⟨started, near rfl⟩
    | child parent depth children child above deeper within page listed isChild ih =>
      rcases ih with ⟨started, near⟩
      have collected := finished.done started children page child listed
      rcases finished.met (collected.2 isChild deeper (Nat.lt_of_le_of_lt near within)) with
        ⟨reached, below⟩
      exact ⟨reached, (below rfl).trans (Nat.succ_le_succ near)⟩
  exact fun folder depth found => (nearest folder depth found).1

theorem Finished.covers_unambiguous (finished : Finished config narrow visit completed scan)
    (unambiguous : Unambiguous config) : Covers config scan := by
  have trails : ∀ trail, Trail config trail → ∀ folder above, trail = folder :: above →
      folder ∈ scan.scannedFolders := by
    intro trail way
    induction way with
    | root resource listed isRoot =>
      intro folder above same
      cases same
      exact (finished.met (finished.scanning.explored.roots resource listed isRoot)).1
    | child parent above children child way deeper within page listed isChild fresh ih =>
      intro folder rest same
      cases same
      have started := ih parent above rfl
      rcases finished.scanning.explored.trails parent started with ⟨first, visited, open_⟩
      have longer : Trail config (child.token :: parent :: above) :=
        .child parent above children child way deeper within page listed isChild fresh
      have room := unambiguous.deepEnough child.token parent first above open_.1 longer
      rw [← visited] at room
      have collected := finished.done started children page child listed
      exact (finished.met (collected.2 isChild deeper room)).1
  intro folder depth found
  rcases found.trail with ⟨above, way, _⟩
  exact trails _ way folder above rfl

theorem Finished.seen_iff (finished : Finished config narrow visit completed scan)
    (covers : Covers config scan) (token : Text) : token ∈ scan.seen ↔ WithinDepth config token := by
  constructor
  · exact finished.scanning.explored.within token
  · intro within
    cases within with
    | folder parent depth children child above page listed item =>
      exact ((finished.done (covers parent depth above) children page child listed).1 item).1
    | explicit resource item listed isNamed found =>
      exact (finished.named listed isNamed item found).1

theorem Finished.roots_iff (finished : Finished config narrow visit completed scan)
    (covers : Covers config scan) (unambiguous : Unambiguous config) (token root : Text) :
    root ∈ rootsOf scan token ↔ Attributed config token root := by
  constructor
  · exact finished.scanning.explored.attributed token root
  · intro attributed
    cases attributed with
    | folder folder above children child way page listed item =>
      have started := covers folder _ (way.folderAt folder above rfl)
      rcases finished.scanning.explored.trails folder started with ⟨first, visited, open_⟩
      have collected := (finished.done started children page child listed).1 item
      rw [visited, unambiguous.oneRoot folder first above open_.1 way] at collected
      exact collected.2
    | explicit resource item listed isNamed found =>
      exact (finished.named listed isNamed item found).2

theorem sum_map_le_of_subset (size : Text → Nat) {few many : List Text} (distinct : few.Nodup)
    (inside : few ⊆ many) : (few.map size).sum ≤ (many.map size).sum := by
  rcases subperm_of_subset distinct inside with ⟨part, permuted, sublist⟩
  calc
    _ = (part.map size).sum := ((permuted.map size).sum_eq).symm
    _ ≤ _ := (sublist.map size).sum_le_sum (fun _ _ => Nat.zero_le _)

theorem Finished.not_overfull (finished : Finished config narrow visit completed scan)
    (covers : Covers config scan) : ¬ Overfull config := by
  rintro ⟨folders, tokens, distinctFolders, distinctTokens, trails, within, excess⟩
  have all : folders ⊆ completed := by
    intro folder member
    rcases trails folder member with ⟨above, way⟩
    have started := covers folder _ (way.folderAt folder above rfl)
    have permuted := finished.scanning.folders
    rw [finished.inFlight] at permuted
    exact (append_nil completed) ▸ permuted.symm.subset started
  have seen : tokens ⊆ scan.seen := fun token member =>
    (finished.seen_iff covers token).mpr (within token member)
  have fewer := sum_map_le_of_subset (links config) distinctFolders all
  have shorter := (subperm_of_subset distinctTokens seen).length_le
  have count := finished.scanning.tally.count
  have room := finished.scanning.room
  omega

theorem ended_stops (config : ScanConfig) (scan : Scan) (ended : Ended scan) (action : ScanAction) :
    scanStep config scan action = none := by
  cases action with
  | batch =>
    apply if_neg
    rintro ⟨running, _, waits⟩
    rcases ended with raised | ⟨queue, _⟩
    · rw [running] at raised
      cases raised
    · exact waits queue
  | complete task =>
    apply if_neg
    rintro ⟨running, flies⟩
    rcases ended with raised | ⟨_, inFlight⟩
    · rw [running] at raised
      cases raised
    · rw [inFlight] at flies
      exact absurd flies not_mem_nil

theorem takeBatch_alone (config : ScanConfig) (one : workers config = 1) (queue : List ScanTask)
    (scan : Scan) (alone : scan.inFlight.length ≤ 1) :
    (takeBatch config queue scan).inFlight.length ≤ 1 := by
  induction queue generalizing scan with
  | nil => exact alone
  | cons task rest ih =>
    rw [takeBatch]
    split
    · rename_i free
      have grown := (popTask_rest scan task rest).2.2.2
      exact ih _ (by omega)
    · exact alone

theorem completeTask_inFlight (config : ScanConfig) (scan : Scan) (task : ScanTask) :
    (completeTask config scan task).inFlight = scan.inFlight := by
  cases task with
  | folder token dir depth root =>
    rw [completeTask]
    split
    · rfl
    · rename_i children page
      cases made : collectFeishuFolderChildren config dir depth root children scan with
      | none => rfl
      | some next => exact (collect_lowers config dir depth root children scan next made).1
  | explicit resource =>
    rw [completeTask]
    split
    · rfl
    · rename_i item found
      cases made : planExplicit config resource item scan with
      | none => rfl
      | some next => exact (planExplicit_lowers config resource item scan next made).1

theorem scanStep_alone (config : ScanConfig) (one : workers config = 1) (scan : Scan)
    (action : ScanAction) (next : Scan) (alone : scan.inFlight.length ≤ 1)
    (taken : scanStep config scan action = some next) : next.inFlight.length ≤ 1 := by
  cases action with
  | batch =>
    rw [scanStep] at taken
    split at taken
    · cases taken
      exact takeBatch_alone config one scan.queue scan alone
    · cases taken
  | complete task =>
    rw [scanStep] at taken
    split at taken
    · cases taken
      rw [completeTask_inFlight]
      exact (erase_sublist.length_le).trans alone
    · cases taken

theorem scanStep_deterministic (config : ScanConfig) (scan : Scan) (action other : ScanAction)
    (next after : Scan) (alone : scan.inFlight.length ≤ 1)
    (taken : scanStep config scan action = some next)
    (again : scanStep config scan other = some after) : next = after := by
  have idle : ∀ reached, scanStep config scan .batch = some reached → scan.inFlight = [] := by
    intro reached ran
    rw [scanStep] at ran
    split at ran
    · rename_i ready
      exact ready.2.1
    · cases ran
  have flies : ∀ task reached, scanStep config scan (.complete task) = some reached →
      task ∈ scan.inFlight := by
    intro task reached ran
    rw [scanStep] at ran
    split at ran
    · rename_i ready
      exact ready.2
    · cases ran
  have same : action = other := by
    cases action with
    | batch =>
      cases other with
      | batch => rfl
      | complete task =>
        have member := flies task after again
        rw [idle next taken] at member
        exact absurd member not_mem_nil
    | complete task =>
      have member := flies task next taken
      cases other with
      | batch =>
        rw [idle after again] at member
        exact absurd member not_mem_nil
      | complete twin =>
        have also_ := flies twin after again
        rcases length_eq_one_iff.mp (Nat.le_antisymm alone
          (length_pos_of_mem member)) with ⟨only, single⟩
        rw [single, mem_singleton] at member also_
        rw [member, also_]
  rw [same] at taken
  exact Option.some.inj (taken.symm.trans again)

theorem one_outcome (config : ScanConfig) (one : workers config = 1) (first second : Scan)
    (reached : Reachable (scanStep config) (Scan.start config) first) (ended : Ended first)
    (again : Reachable (scanStep config) (Scan.start config) second) (done : Ended second) :
    first = second := by
  rcases reached with ⟨actions, run⟩
  rcases again with ⟨others, rerun⟩
  exact run.unique (fun scan => scan.inFlight.length ≤ 1)
    (fun scan action next alone taken => scanStep_alone config one scan action next alone taken)
    (scanStep_deterministic config) (Nat.zero_le 1) rerun (ended_stops config first ended)
    (ended_stops config second done)

/-- One worker, or no folder that is found in two ways that differ. -/
def OneWay (config : ScanConfig) : Prop := config.maxWorkers ≤ 1 ∨ Unambiguous config

theorem raised_agrees {config : ScanConfig} {narrow : Bool}
    (single : narrow = true → workers config = 1)
    (covered : ∀ visit completed scan, Finished config narrow visit completed scan →
      Covers config scan) (first second : Scan)
    (reached : Reachable (scanStep config) (Scan.start config) first) (raised : first.raised = true)
    (again : Reachable (scanStep config) (Scan.start config) second) (done : Ended second) :
    second.raised = true := by
  by_contra running
  rw [Bool.not_eq_true] at running
  rcases ended_finished single second again done running with ⟨visit, completed, finished⟩
  rcases run_sound single first reached with ⟨_, _, scanning⟩ | ⟨_, overfull⟩
  · rw [scanning.running] at raised
    cases raised
  · exact finished.not_overfull (covered visit completed second finished) overfull

theorem tokens_covered {config : ScanConfig} {narrow : Bool}
    (single : narrow = true → workers config = 1)
    (covered : ∀ visit completed scan, Finished config narrow visit completed scan →
      Covers config scan) (scan : Scan)
    (reached : Reachable (scanStep config) (Scan.start config) scan) (ended : Ended scan)
    (running : scan.raised = false) (token : Text) :
    token ∈ scan.seen ↔ WithinDepth config token := by
  rcases ended_finished single scan reached ended running with ⟨visit, completed, finished⟩
  exact finished.seen_iff (covered visit completed scan finished) token

/-- Where it makes no difference which way a folder is found first, every order of
completion builds the same plan, and it has every item within the depth bound. -/
theorem scan_builds_one_plan (config : ScanConfig) (oneWay : OneWay config) : SamePlan config := by
  have finishes : ∀ scan, Reachable (scanStep config) (Scan.start config) scan →
      ∃ final, Reachable (scanStep config) scan final ∧ Ended final := by
    intro scan _
    rcases Transition.finishes (potential config) Ended (scanStep_lowers config)
      (scanStep_progress config) scan with ⟨actions, final, run, ended⟩
    exact ⟨final, ⟨actions, run⟩, ended⟩
  have agree : ∀ narrow : Bool, (narrow = true → workers config = 1) →
      (∀ visit completed scan, Finished config narrow visit completed scan → Covers config scan) →
      (∀ first second, Reachable (scanStep config) (Scan.start config) first → Ended first →
        Reachable (scanStep config) (Scan.start config) second → Ended second →
        first.raised = false → ∀ token root, root ∈ rootsOf first token ↔ root ∈ rootsOf second token) →
      SamePlan config := by
    intro narrow single covered roots
    have raised : ∀ first second, Reachable (scanStep config) (Scan.start config) first →
        Ended first → Reachable (scanStep config) (Scan.start config) second → Ended second →
        first.raised = second.raised := by
      intro first second reached ended again done
      rw [Bool.eq_iff_iff]
      exact ⟨fun up => raised_agrees single covered first second reached up again done,
        fun up => raised_agrees single covered second first again up reached ended⟩
    refine ⟨finishes, raised, ?_, roots, ?_⟩
    · intro first second reached ended again done running token
      have also_ := (raised first second reached ended again done).symm.trans running
      exact (tokens_covered single covered first reached ended running token).trans
        (tokens_covered single covered second again done also_ token).symm
    · intro final reached ended running token within
      exact (tokens_covered single covered final reached ended running token).mpr within
  rcases oneWay with few | unambiguous
  · have one : workers config = 1 := Nat.max_eq_left few
    apply agree true (fun _ => one) (fun _ _ _ finished => finished.covers_narrow)
    intro first second reached ended again done _ token root
    rw [one_outcome config one first second reached ended again done]
  · have single : false = true → workers config = 1 := fun impossible => absurd impossible (by simp)
    have covered : ∀ visit completed scan, Finished config false visit completed scan →
        Covers config scan := fun _ _ _ finished => finished.covers_unambiguous unambiguous
    apply agree false single covered
    intro first second reached ended again done running token root
    have also_ : second.raised = false := by
      by_contra up
      rw [Bool.not_eq_false] at up
      rw [raised_agrees single covered second first again up reached ended] at running
      cases running
    rcases ended_finished single first reached ended running with ⟨_, _, here⟩
    rcases ended_finished single second again done also_ with ⟨_, _, there⟩
    exact (here.roots_iff (covered _ _ _ here) unambiguous token root).trans
      (there.roots_iff (covered _ _ _ there) unambiguous token root).symm

def sampleFolderItem (token : String) : FeishuItem :=
  ⟨token.toList, token.toList, "folder".toList, SyncMetadata.none⟩

def sampleFile (token : String) : FeishuItem :=
  ⟨token.toList, token.toList, "file".toList, SyncMetadata.none⟩

/-- `first/nested/shared/deep/plan` and, one folder shorter, `third/shared/deep/plan`. -/
def sampleListing (token : Text) : Option (List FeishuItem) :=
  if token = "first".toList then some [sampleFolderItem "nested"]
  else if token = "third".toList then some [sampleFolderItem "shared"]
  else if token = "nested".toList then some [sampleFolderItem "shared"]
  else if token = "shared".toList then some [sampleFolderItem "deep"]
  else if token = "deep".toList then some [sampleFile "plan"]
  else some []

def sampleScan (roots : List String) (maxWorkers : Nat) : ScanConfig where
  drive := ⟨sampleListing, fun _ => none⟩
  resources := roots.map fun root => ⟨"folder".toList, root.toList⟩
  target := ["data".toList]
  recursive := true
  maxDepth := 3
  maxWorkers := maxWorkers
  maxItems := 100000

def sampleTask (token dir : List String) (depth : Nat) (root : String) : ScanTask :=
  .folder (token.getLastD "").toList ((["data", "folders"] ++ dir ++ token).map String.toList) depth
    root.toList

/-- The batch of `third` and `nested` completes in the order that finds `shared` below
`nested` first. -/
def nestedFirst : List ScanAction :=
  [.batch, .complete (sampleTask ["first"] [] 1 "first"), .complete (sampleTask ["other"] [] 1 "other"),
    .batch, .complete (sampleTask ["nested"] ["first"] 2 "first"),
    .complete (sampleTask ["third"] [] 1 "third"),
    .batch, .complete (sampleTask ["shared"] ["first", "nested"] 3 "first")]

theorem plan_within_depth (roots : List String) (maxWorkers : Nat) (third : "third" ∈ roots) :
    WithinDepth (sampleScan roots maxWorkers) "plan".toList := by
  have root : FolderAt (sampleScan roots maxWorkers) "third".toList 1 :=
    .root ⟨"folder".toList, "third".toList⟩ (mem_map.mpr ⟨"third", third, rfl⟩) rfl
  have shared : FolderAt (sampleScan roots maxWorkers) "shared".toList 2 :=
    .child "third".toList 1 [sampleFolderItem "shared"] (sampleFolderItem "shared") root rfl
      (by decide : 1 < 3) rfl mem_cons_self rfl
  have deep : FolderAt (sampleScan roots maxWorkers) "deep".toList 3 :=
    .child "shared".toList 2 [sampleFolderItem "deep"] (sampleFolderItem "deep") shared rfl
      (by decide : 2 < 3) rfl mem_cons_self rfl
  exact .folder "deep".toList 3 [sampleFile "plan"] (sampleFile "plan") deep rfl mem_cons_self
    rfl

theorem completion_order_hides_item : ¬ SamePlan (sampleScan ["first", "other", "third"] 2) := by
  intro plan
  have executed : (exec (scanStep (sampleScan ["first", "other", "third"] 2))
      (Scan.start (sampleScan ["first", "other", "third"] 2)) nestedFirst).any
      (fun final => final.raised = false && final.queue = [] && final.inFlight = [] &&
        "plan".toList ∉ final.seen) = true := by decide +kernel
  rcases (Option.any_eq_true _ _).mp executed with ⟨final, reached, shape⟩
  simp only [Bool.and_eq_true, decide_eq_true_eq] at shape
  rcases shape with ⟨⟨⟨running, queue⟩, inFlight⟩, missed⟩
  exact missed (plan.covered final (exec_reachable reached) (Or.inr ⟨queue, inFlight⟩) running _
    (plan_within_depth _ _ (by decide)))

theorem sample_trails (trail : List Text) (way : Trail (sampleScan ["third"] 2) trail) :
    trail = ["third".toList] ∨ trail = ["shared".toList, "third".toList] ∨
      trail = ["deep".toList, "shared".toList, "third".toList] := by
  induction way with
  | root resource listed isRoot =>
    rw [mem_singleton.mp listed]
    exact Or.inl rfl
  | child parent above children child way deeper within page listed isChild fresh ih =>
    rcases ih with same | same | same
    · cases same
      cases page
      rw [mem_singleton.mp listed]
      exact Or.inr (Or.inl rfl)
    · cases same
      cases page
      rw [mem_singleton.mp listed]
      exact Or.inr (Or.inr rfl)
    · cases same
      exact absurd within (by decide)

theorem sample_unambiguous : Unambiguous (sampleScan ["third"] 2) := by
  constructor
  · intro folder first second one other
    rcases sample_trails _ one with same | same | same
    · rcases sample_trails _ other with twin | twin | twin
      · rw [same, twin]
      · rw [same, twin]
        rfl
      · rw [same, twin]
        rfl
    · rcases sample_trails _ other with twin | twin | twin
      · rw [same, twin]
        rfl
      · rw [same, twin]
      · rw [same, twin]
        rfl
    · rcases sample_trails _ other with twin | twin | twin
      · rw [same, twin]
        rfl
      · rw [same, twin]
        rfl
      · rw [same, twin]
  · intro below folder first second one longer
    rcases sample_trails _ longer with same | same | same
    · cases same
    · cases same
      rcases sample_trails _ one with twin | twin | twin
      · rw [twin]
        decide
      · rw [twin]
        decide
      · exact absurd (List.cons.inj twin).1 (by decide)
    · cases same
      rcases sample_trails _ one with twin | twin | twin
      · rw [twin]
        decide
      · rw [twin]
        decide
      · exact absurd (List.cons.inj twin).1 (by decide)

theorem scan_builds_one_plan_two_workers : SamePlan (sampleScan ["third"] 2) :=
  scan_builds_one_plan _ (Or.inr sample_unambiguous)

end SourceLens.FeishuScan
