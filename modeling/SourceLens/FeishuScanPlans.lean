import SourceLens.FeishuScan
import Mathlib.Algebra.Order.BigOperators.Group.List
import Mathlib.Algebra.GroupWithZero.Nat
import Mathlib.Algebra.Order.Group.Nat
import Mathlib.Data.List.Perm.Subperm

/-! What a scan has found at every point: the trails of the folders it has started, the
tokens and roots it has collected, and how it ends. -/

namespace SourceLens.FeishuScan

open List
open PosixPath (Path)
open FeishuPaths
open PathRules (safeFilename)
open Transition

variable (config : ScanConfig)

theorem mem_addRoot (roots : List Text) (root other : Text) :
    other ∈ addRoot roots root ↔ other ∈ roots ∨ other = root := by
  unfold addRoot
  split
  · rename_i present
    constructor
    · exact .inl
    · intro either
      rcases either with inside | rfl
      · exact inside
      · exact present
  · simp

theorem rootsOf_set (scan next : Scan) (token other : Text) (planned : Planned)
    (updated : next.pending = scan.pending.set token planned) :
    rootsOf next other = if other = token then planned.roots else rootsOf scan other := by
  rw [rootsOf, updated, OrderedDict.get?_set]
  split
  · rename_i found
    split at found
    · rw [if_pos ‹_›]
      cases found
      rfl
    · rw [if_neg ‹_›, rootsOf, found]
  · rename_i missing
    split at missing
    · cases missing
    · rw [if_neg ‹_›, rootsOf, missing]

/-- A folder lists the token as an item, on a trail from the root, or a resource names it. -/
inductive Attributed (config : ScanConfig) : Text → Text → Prop
  | folder (folder : Text) (above : List Text) (children : List FeishuItem) (child : FeishuItem)
      (way : Trail config (folder :: above)) (page : config.drive.listing folder = some children)
      (listed : child ∈ children) (item : isFolder child = false) :
      Attributed config child.token (folderRoot (trailRoot (folder :: above)))
  | explicit (resource : Resource) (item : FeishuItem) (listed : resource ∈ config.resources)
      (named : resource.isFolder = false) (found : config.drive.explicit resource = some item) :
      Attributed config item.token resource.rootId

theorem Trail.folderAt {config : ScanConfig} {trail : List Text} (way : Trail config trail) :
    ∀ folder above, trail = folder :: above → FolderAt config folder (above.length + 1) := by
  induction way with
  | root resource listed isRoot =>
    intro folder above same
    cases same
    exact .root resource listed isRoot
  | child parent above children child way deeper within page listed isChild fresh ih =>
    intro folder rest same
    cases same
    exact .child parent _ children child (ih parent above rfl) deeper
      (by simpa using within) page listed isChild

theorem Trail.suffix {config : ScanConfig} {trail : List Text} (way : Trail config trail) :
    ∀ folder ∈ trail, ∃ above, Trail config (folder :: above) ∧
      above.length + 1 ≤ trail.length := by
  induction way with
  | root resource listed isRoot =>
    intro folder member
    rw [mem_singleton.mp member]
    exact ⟨[], .root resource listed isRoot, Nat.le_refl _⟩
  | child parent above children child way deeper within page listed isChild fresh ih =>
    intro folder member
    rcases mem_cons.mp member with rfl | earlier
    · exact ⟨parent :: above, .child parent above children child way deeper within page listed
        isChild fresh, Nat.le_refl _⟩
    · rcases ih folder earlier with ⟨rest, shorter, bound⟩
      exact ⟨rest, shorter, Nat.le_succ_of_le bound⟩

theorem FolderAt.trail {config : ScanConfig} {folder : Text} {depth : Nat}
    (found : FolderAt config folder depth) :
    ∃ above, Trail config (folder :: above) ∧ above.length + 1 ≤ depth := by
  induction found with
  | root resource listed isRoot => exact ⟨[], .root resource listed isRoot, Nat.le_refl _⟩
  | child parent depth children child above deeper within page listed isChild ih =>
    rcases ih with ⟨rest, way, bound⟩
    by_cases met : child.token ∈ parent :: rest
    · rcases way.suffix child.token met with ⟨shorter, trail, less⟩
      rw [length_cons] at less
      exact ⟨shorter, trail, by omega⟩
    · refine ⟨parent :: rest, .child parent rest children child way deeper ?_ page listed isChild
        met, ?_⟩
      · rw [length_cons]
        omega
      · rw [length_cons]
        omega

def Near (narrow : Bool) (depth bound : Nat) : Prop := narrow = true → depth ≤ bound

/-- The folder has been started, or waits in the queue at this depth. -/
def Met (narrow : Bool) (visit : Text → List Text) (scan : Scan) (token : Text) (depth : Nat) :
    Prop :=
  (token ∈ scan.scannedFolders ∧ Near narrow (visit token).length depth) ∨
    ∃ dir root, .folder token dir depth root ∈ scan.queue

/-- The given children of a folder are in the plan or on their way. -/
def Collected (config : ScanConfig) (narrow : Bool) (visit : Text → List Text) (scan : Scan)
    (trail : List Text) (children : List FeishuItem) : Prop :=
  ∀ child ∈ children,
    (isFolder child = false → child.token ∈ scan.seen ∧
      folderRoot (trailRoot trail) ∈ rootsOf scan child.token) ∧
    (isFolder child = true → config.recursive = true → trail.length < config.maxDepth →
      Met narrow visit scan child.token (trail.length + 1))

def Done (config : ScanConfig) (narrow : Bool) (visit : Text → List Text) (scan : Scan)
    (folder : Text) : Prop :=
  ∀ children, config.drive.listing folder = some children →
    Collected config narrow visit scan (visit folder) children

def Named (config : ScanConfig) (scan : Scan) (resource : Resource) : Prop :=
  ∀ item, config.drive.explicit resource = some item →
    item.token ∈ scan.seen ∧ resource.rootId ∈ rootsOf scan item.token

def OpenTrail (config : ScanConfig) (scan : Scan) (token : Text) (above : List Text) : Prop :=
  Trail config (token :: above) ∧ ∀ folder ∈ above, folder ∈ scan.scannedFolders

def InFlight (scan : Scan) (token : Text) : Prop :=
  ∃ dir depth root, .folder token dir depth root ∈ scan.inFlight

/-- Every folder of the scan is on a trail, and what a finished one lists has been
collected; the folders for which `busy` holds are not finished. -/
structure Explored (config : ScanConfig) (narrow : Bool) (visit : Text → List Text)
    (busy : Text → Prop) (scan : Scan) : Prop where
  trails : ∀ folder ∈ scan.scannedFolders, ∃ above, visit folder = folder :: above ∧
    OpenTrail config scan folder above
  queued : ∀ token dir depth root, .folder token dir depth root ∈ scan.queue →
    token ∈ scan.scannedFolders ∨ ∃ above, OpenTrail config scan token above ∧
      depth = above.length + 1 ∧ root = trailRoot (token :: above)
  flying : ∀ token dir depth root, .folder token dir depth root ∈ scan.inFlight →
    token ∈ scan.scannedFolders ∧ depth = (visit token).length ∧ root = trailRoot (visit token)
  finished : ∀ folder ∈ scan.scannedFolders, busy folder ∨ Done config narrow visit scan folder
  roots : ∀ resource ∈ config.resources, resource.isFolder = true →
    Met narrow visit scan resource.token 1
  named : ∀ resource ∈ config.resources, resource.isFolder = false →
    .explicit resource ∈ scan.queue ∨ .explicit resource ∈ scan.inFlight ∨
      Named config scan resource
  resources : ∀ resource, .explicit resource ∈ scan.queue ∨ .explicit resource ∈ scan.inFlight →
    resource ∈ config.resources ∧ resource.isFolder = false
  attributed : ∀ token root, root ∈ rootsOf scan token → Attributed config token root
  within : ∀ token ∈ scan.seen, WithinDepth config token
  keys : ∀ token, token ∈ scan.seen ↔ token ∈ scan.pending.keys

structure Grows (narrow : Bool) (visit after : Text → List Text) (scan next : Scan) : Prop where
  visits : ∀ folder ∈ scan.scannedFolders, after folder = visit folder
  folders : ∀ folder ∈ scan.scannedFolders, folder ∈ next.scannedFolders
  seen : ∀ token ∈ scan.seen, token ∈ next.seen
  roots : ∀ token root, root ∈ rootsOf scan token → root ∈ rootsOf next token
  met : ∀ token depth, Met narrow visit scan token depth → Met narrow after next token depth

theorem Grows.collected {config : ScanConfig} {narrow : Bool} {visit after : Text → List Text}
    {scan next : Scan} (grows : Grows narrow visit after scan next) {trail : List Text}
    {children : List FeishuItem} (collected : Collected config narrow visit scan trail children) :
    Collected config narrow after next trail children := by
  intro child member
  rcases collected child member with ⟨item, folder⟩
  constructor
  · intro isItem
    rcases item isItem with ⟨seen, root⟩
    exact ⟨grows.seen _ seen, grows.roots _ _ root⟩
  · intro isChild deeper within
    exact grows.met _ _ (folder isChild deeper within)

theorem Grows.done {config : ScanConfig} {narrow : Bool} {visit after : Text → List Text}
    {scan next : Scan} (grows : Grows narrow visit after scan next) {folder : Text}
    (started : folder ∈ scan.scannedFolders) (done : Done config narrow visit scan folder) :
    Done config narrow after next folder := by
  intro children page
  rw [grows.visits folder started]
  exact grows.collected (done children page)

theorem Grows.named {config : ScanConfig} {narrow : Bool} {visit after : Text → List Text}
    {scan next : Scan} (grows : Grows narrow visit after scan next) {resource : Resource}
    (named : Named config scan resource) : Named config next resource := by
  intro item found
  rcases named item found with ⟨seen, root⟩
  exact ⟨grows.seen _ seen, grows.roots _ _ root⟩

theorem OpenTrail.grow {config : ScanConfig} {narrow : Bool} {visit after : Text → List Text}
    {scan next : Scan} (grows : Grows narrow visit after scan next) {token : Text}
    {above : List Text} (way : OpenTrail config scan token above) :
    OpenTrail config next token above :=
  ⟨way.1, fun folder member => grows.folders folder (way.2 folder member)⟩

theorem popTask_dropped {config : ScanConfig} {narrow : Bool} {visit : Text → List Text}
    {scan : Scan} {token root : Text} {dir : Path} {depth : Nat} {rest : List ScanTask}
    (explored : Explored config narrow visit (InFlight scan) scan)
    (front : scan.queue = .folder token dir depth root :: rest)
    (started : token ∈ scan.scannedFolders) (near : Near narrow (visit token).length depth) :
    Explored config narrow visit (InFlight { scan with queue := rest })
      { scan with queue := rest } := by
  have grows : Grows narrow visit visit scan { scan with queue := rest } := by
    refine ⟨fun _ _ => rfl, fun _ met => met, fun _ met => met, fun _ _ met => met, ?_⟩
    intro other bound met
    rcases met with old | ⟨otherDir, otherRoot, waits⟩
    · exact .inl old
    · rw [front] at waits
      rcases mem_cons.mp waits with same | later
      · cases same
        exact .inl ⟨started, near⟩
      · exact .inr ⟨otherDir, otherRoot, later⟩
  have inside : ∀ task ∈ rest, task ∈ scan.queue := fun task member => by
    rw [front]
    exact mem_cons_of_mem _ member
  refine ⟨explored.trails, ?_, explored.flying, ?_, ?_, ?_, ?_, explored.attributed, explored.within,
    explored.keys⟩
  · exact fun other otherDir bound otherRoot waits =>
      explored.queued other otherDir bound otherRoot (inside _ waits)
  · intro folder member
    exact (explored.finished folder member).imp_right (grows.done member)
  · exact fun resource listed isRoot => grows.met _ _ (explored.roots resource listed isRoot)
  · intro resource listed isNamed
    rcases explored.named resource listed isNamed with waits | flies | done
    · rw [front] at waits
      exact .inl (mem_of_ne_of_mem (by simp) waits)
    · exact .inr (.inl flies)
    · exact .inr (.inr (grows.named done))
  · intro resource either
    exact explored.resources resource (either.imp_left (inside _))

/-- Where the folders started since are `token`, on the trail the queue had for it. -/
theorem popTask_started {config : ScanConfig} {narrow : Bool} {visit : Text → List Text}
    {scan : Scan} {token root : Text} {dir : Path} {depth : Nat} {rest : List ScanTask}
    (explored : Explored config narrow visit (InFlight scan) scan)
    (front : scan.queue = .folder token dir depth root :: rest)
    (fresh : token ∉ scan.scannedFolders) :
    ∃ trail, trail.length = depth ∧
      Explored config narrow (Function.update visit token trail)
        (InFlight { scan with
          queue := rest
          inFlight := scan.inFlight ++ [.folder token dir depth root]
          scannedFolders := token :: scan.scannedFolders })
        { scan with
          queue := rest
          inFlight := scan.inFlight ++ [.folder token dir depth root]
          scannedFolders := token :: scan.scannedFolders } := by
  have here : .folder token dir depth root ∈ scan.queue := by
    rw [front]
    exact mem_cons_self
  rcases (explored.queued token dir depth root here).resolve_left fresh with
    ⟨above, way, rfl, rfl⟩
  refine ⟨token :: above, rfl, ?_⟩
  have other : ∀ folder ∈ scan.scannedFolders,
      Function.update visit token (token :: above) folder = visit folder := by
    intro folder member
    exact Function.update_of_ne (fun same : folder = token => fresh (same ▸ member)) _ _
  have grows : Grows narrow visit (Function.update visit token (token :: above)) scan
      { scan with
        queue := rest
        inFlight := scan.inFlight ++ [.folder token dir (above.length + 1) (trailRoot (token :: above))]
        scannedFolders := token :: scan.scannedFolders } := by
    refine ⟨other, fun _ met => mem_cons_of_mem _ met, fun _ met => met, fun _ _ met => met, ?_⟩
    intro folder bound met
    rcases met with ⟨started, near⟩ | ⟨otherDir, otherRoot, waits⟩
    · exact .inl ⟨mem_cons_of_mem _ started, by rwa [other folder started]⟩
    · rw [front] at waits
      rcases mem_cons.mp waits with same | later
      · cases same
        refine .inl ⟨mem_cons_self, ?_⟩
        rw [Function.update_self]
        exact fun _ => Nat.le_refl _
      · exact .inr ⟨otherDir, otherRoot, later⟩
  have inside : ∀ task ∈ rest, task ∈ scan.queue := fun task member => by
    rw [front]
    exact mem_cons_of_mem _ member
  refine ⟨?_, ?_, ?_, ?_, ?_, ?_, ?_, explored.attributed, explored.within, explored.keys⟩
  · intro folder member
    rcases mem_cons.mp member with rfl | old
    · exact ⟨above, Function.update_self _ _ _, way.grow grows⟩
    · rcases explored.trails folder old with ⟨earlier, same, open_⟩
      exact ⟨earlier, (other folder old).trans same, open_.grow grows⟩
  · intro folder otherDir bound otherRoot waits
    rcases explored.queued folder otherDir bound otherRoot (inside _ waits) with old | ⟨up, open_, at_⟩
    · exact .inl (mem_cons_of_mem _ old)
    · exact .inr ⟨up, open_.grow grows, at_⟩
  · intro folder otherDir bound otherRoot flies
    rcases mem_append.mp flies with old | new
    · rcases explored.flying folder otherDir bound otherRoot old with ⟨started, same, from_⟩
      rw [other folder started]
      exact ⟨mem_cons_of_mem _ started, same, from_⟩
    · cases mem_singleton.mp new
      rw [Function.update_self]
      exact ⟨mem_cons_self, rfl, rfl⟩
  · intro folder member
    rcases mem_cons.mp member with rfl | old
    · exact .inl ⟨dir, _, _, mem_append_right _ mem_cons_self⟩
    · rcases explored.finished folder old with ⟨flyDir, at_, from_, flies⟩ | done
      · exact .inl ⟨flyDir, at_, from_, mem_append_left _ flies⟩
      · exact .inr (grows.done old done)
  · exact fun resource listed isRoot => grows.met _ _ (explored.roots resource listed isRoot)
  · intro resource listed isNamed
    rcases explored.named resource listed isNamed with waits | flies | done
    · rw [front] at waits
      exact .inl (mem_of_ne_of_mem (by simp) waits)
    · exact .inr (.inl (mem_append_left _ flies))
    · exact .inr (.inr (grows.named done))
  · intro resource either
    apply explored.resources resource
    rcases either with waits | flies
    · exact .inl (inside _ waits)
    · exact .inr ((mem_append.mp flies).resolve_right (by simp))

theorem popTask_explicit {config : ScanConfig} {narrow : Bool} {visit : Text → List Text}
    {scan : Scan} {resource : Resource} {rest : List ScanTask}
    (explored : Explored config narrow visit (InFlight scan) scan)
    (front : scan.queue = .explicit resource :: rest) :
    Explored config narrow visit
      (InFlight { scan with queue := rest, inFlight := scan.inFlight ++ [.explicit resource] })
      { scan with queue := rest, inFlight := scan.inFlight ++ [.explicit resource] } := by
  have grows : Grows narrow visit visit scan
      { scan with queue := rest, inFlight := scan.inFlight ++ [.explicit resource] } := by
    refine ⟨fun _ _ => rfl, fun _ met => met, fun _ met => met, fun _ _ met => met, ?_⟩
    intro other bound met
    rcases met with old | ⟨dir, root, waits⟩
    · exact .inl old
    · rw [front] at waits
      exact .inr ⟨dir, root, mem_of_ne_of_mem (by simp) waits⟩
  have inside : ∀ task ∈ rest, task ∈ scan.queue := fun task member => by
    rw [front]
    exact mem_cons_of_mem _ member
  refine ⟨explored.trails, ?_, ?_, ?_, ?_, ?_, ?_, explored.attributed, explored.within,
    explored.keys⟩
  · exact fun other dir bound root waits => explored.queued other dir bound root (inside _ waits)
  · intro other dir bound root flies
    exact explored.flying other dir bound root ((mem_append.mp flies).resolve_right (by simp))
  · intro folder member
    rcases explored.finished folder member with ⟨dir, bound, root, flies⟩ | done
    · exact .inl ⟨dir, bound, root, mem_append_left _ flies⟩
    · exact .inr (grows.done member done)
  · exact fun other listed isRoot => grows.met _ _ (explored.roots other listed isRoot)
  · intro other listed isNamed
    rcases explored.named other listed isNamed with waits | flies | done
    · rw [front] at waits
      rcases mem_cons.mp waits with same | later
      · exact .inr (.inl (mem_append_right _ (by simp [same])))
      · exact .inl later
    · exact .inr (.inl (mem_append_left _ flies))
    · exact .inr (.inr (grows.named done))
  · intro other either
    apply explored.resources other
    rcases either with waits | flies
    · exact .inl (inside _ waits)
    · rcases mem_append.mp flies with old | new
      · exact .inr old
      · rw [mem_singleton.mp new, front]
        exact .inl mem_cons_self

theorem collectChild_grows (narrow : Bool) (visit : Text → List Text)
    (dir : Path) (depth : Nat) (root : Text) (scan : Scan) (child : FeishuItem) :
    Grows narrow visit visit scan (collectChild config dir depth root scan child) := by
  unfold collectChild
  split
  · refine ⟨fun _ _ => rfl, fun _ met => met, fun _ met => met, fun _ _ met => met, ?_⟩
    intro token bound met
    rcases met with old | ⟨otherDir, otherRoot, waits⟩
    · exact .inl old
    · refine .inr ⟨otherDir, otherRoot, ?_⟩
      dsimp only
      split
      · exact mem_append_left _ waits
      · exact waits
  · refine ⟨fun _ _ => rfl, fun _ met => met, ?_, ?_, fun _ _ met => met⟩
    · intro token met
      dsimp only
      split
      · exact met
      · exact mem_append_left _ met
    · intro token other met
      rw [rootsOf_set scan _ child.token token _ rfl]
      split
      · rename_i same
        subst same
        rw [rootsOf] at met
        split at met
        · rename_i existing found
          rw [found]
          dsimp only
          split
          · exact (mem_addRoot _ _ _).mpr (.inl met)
          · exact (mem_addRoot _ _ _).mpr (.inl met)
        · exact absurd met not_mem_nil
      · exact met

structure Page (config : ScanConfig) (visit : Text → List Text) (scan : Scan) (folder : Text)
    (depth : Nat) (root : Text) (children : List FeishuItem) : Prop where
  started : folder ∈ scan.scannedFolders
  depth : depth = (visit folder).length
  root : root = trailRoot (visit folder)
  page : config.drive.listing folder = some children

variable (dir : Path) (depth : Nat) (root : Text) (scan : Scan) (child : FeishuItem)

theorem queue_collectChild (task : ScanTask)
    (waits : task ∈ (collectChild config dir depth root scan child).queue) :
    task ∈ scan.queue ∨ (isFolder child = true ∧ config.recursive = true ∧ depth < config.maxDepth ∧
      task = .folder child.token (dir ++ [safeFilename child.name]) (depth + 1) root) := by
  unfold collectChild at waits
  split at waits
  · rename_i isChild
    dsimp only at waits
    split at waits
    · rename_i deeper
      rw [Bool.and_eq_true, decide_eq_true_eq] at deeper
      rcases mem_append.mp waits with old | new
      · exact .inl old
      · exact .inr ⟨isChild, deeper.1, deeper.2, mem_singleton.mp new⟩
    · exact .inl waits
  · exact .inl waits

theorem collectChild_flights :
    (collectChild config dir depth root scan child).inFlight = scan.inFlight ∧
      (collectChild config dir depth root scan child).scannedFolders = scan.scannedFolders := by
  unfold collectChild
  split
  · exact ⟨rfl, rfl⟩
  · exact ⟨rfl, rfl⟩

theorem rootsOf_collectChild (token other : Text)
    (met : other ∈ rootsOf (collectChild config dir depth root scan child) token) :
    other ∈ rootsOf scan token ∨
      (isFolder child = false ∧ token = child.token ∧ other = folderRoot root) := by
  unfold collectChild at met
  split at met
  · exact .inl met
  · rename_i notFolder
    rw [rootsOf_set scan _ child.token token _ rfl] at met
    split at met
    · rename_i same
      subst same
      rw [rootsOf]
      split at met
      · rename_i missing
        rw [missing]
        exact .inr ⟨by simpa using notFolder, rfl, mem_singleton.mp met⟩
      · rename_i existing found
        rw [found]
        split at met
        · rcases (mem_addRoot _ _ _).mp met with old | new
          · exact .inl old
          · exact .inr ⟨by simpa using notFolder, rfl, new⟩
        · rcases (mem_addRoot _ _ _).mp met with old | new
          · exact .inl old
          · exact .inr ⟨by simpa using notFolder, rfl, new⟩
    · exact .inl met

theorem seen_collectChild (token : Text) :
    token ∈ (collectChild config dir depth root scan child).seen ↔
      token ∈ scan.seen ∨ (isFolder child = false ∧ token = child.token) := by
  unfold collectChild
  split
  · rename_i isChild
    simp [isChild]
  · rename_i notFolder
    have item : isFolder child = false := by simpa using notFolder
    dsimp only
    split
    · rename_i old
      constructor
      · exact .inl
      · intro either
        rcases either with inside | ⟨_, rfl⟩
        · exact inside
        · exact old
    · simp [item]

theorem keys_collectChild (token : Text) :
    token ∈ (collectChild config dir depth root scan child).pending.keys ↔
      token ∈ scan.pending.keys ∨ (isFolder child = false ∧ token = child.token) := by
  unfold collectChild
  split
  · rename_i isChild
    simp [isChild]
  · rename_i notFolder
    have item : isFolder child = false := by simpa using notFolder
    rw [OrderedDict.mem_keys_set, or_comm]
    simp [item]

theorem collectChild_collected (narrow : Bool) (visit : Text → List Text)
    (dir : Path) (scan : Scan) (trail : List Text) (child : FeishuItem) :
    Collected config narrow visit
      (collectChild config dir trail.length (trailRoot trail) scan child) trail [child] := by
  intro other member
  rw [mem_singleton.mp member]
  constructor
  · intro item
    refine ⟨(seen_collectChild _ _ _ _ _ _ _).mpr (.inr ⟨item, rfl⟩), ?_⟩
    rw [collectChild, if_neg (by simp [item]), rootsOf_set scan _ child.token child.token _ rfl,
      if_pos rfl]
    split
    · exact mem_singleton.mpr rfl
    · split
      · exact (mem_addRoot _ _ _).mpr (.inr rfl)
      · exact (mem_addRoot _ _ _).mpr (.inr rfl)
  · intro isChild deeper within
    refine .inr ⟨dir ++ [safeFilename child.name], trailRoot trail, ?_⟩
    rw [collectChild, if_pos isChild]
    dsimp only
    rw [if_pos (by simp [deeper, within])]
    exact mem_append_right _ mem_cons_self

theorem collectChild_explored {config : ScanConfig} {narrow : Bool} {visit : Text → List Text}
    {busy : Text → Prop} {scan : Scan} {folder : Text} {depth : Nat} {root : Text}
    {children : List FeishuItem} (dir : Path) (child : FeishuItem)
    (explored : Explored config narrow visit busy scan)
    (page : Page config visit scan folder depth root children) (listed : child ∈ children) :
    Explored config narrow visit busy (collectChild config dir depth root scan child) := by
  have grows := collectChild_grows config narrow visit dir depth root scan child
  rcases collectChild_flights config dir depth root scan child with ⟨flights, folders⟩
  rcases explored.trails folder page.started with ⟨above, same, way⟩
  refine ⟨?_, ?_, ?_, ?_, ?_, ?_, ?_, ?_, ?_, ?_⟩
  · intro other member
    rw [folders] at member
    rcases explored.trails other member with ⟨up, at_, open_⟩
    exact ⟨up, at_, open_.grow grows⟩
  · intro token otherDir bound from_ waits
    rw [folders]
    rcases queue_collectChild config dir depth root scan child _ waits with old | ⟨isChild, deeper,
      within, new⟩
    · rcases explored.queued token otherDir bound from_ old with started | ⟨up, open_, at_⟩
      · exact .inl started
      · exact .inr ⟨up, open_.grow grows, at_⟩
    · cases new
      by_cases started : child.token ∈ scan.scannedFolders
      · exact .inl started
      · rw [page.depth, same] at within
        have fresh : child.token ∉ folder :: above := by
          intro member
          rcases mem_cons.mp member with here | earlier
          · exact started (here ▸ page.started)
          · exact started (way.2 child.token earlier)
        refine .inr ⟨folder :: above, ⟨.child folder above children child way.1 deeper within
          page.page listed isChild fresh, ?_⟩, ?_, ?_⟩
        · intro other member
          rw [folders]
          rcases mem_cons.mp member with rfl | earlier
          · exact page.started
          · exact way.2 other earlier
        · rw [page.depth, same]
        · rw [page.root, same]
          rfl
  · rw [flights, folders]
    exact explored.flying
  · intro other member
    rw [folders] at member
    exact (explored.finished other member).imp_right (grows.done member)
  · exact fun resource inside isRoot => grows.met _ _ (explored.roots resource inside isRoot)
  · intro resource inside isNamed
    rw [flights]
    rcases explored.named resource inside isNamed with waits | flies | done
    · refine .inl ?_
      unfold collectChild
      split
      · dsimp only
        split
        · exact mem_append_left _ waits
        · exact waits
      · exact waits
    · exact .inr (.inl flies)
    · exact .inr (.inr (grows.named done))
  · intro resource either
    rw [flights] at either
    apply explored.resources resource
    rcases either with waits | flies
    · rcases queue_collectChild config dir depth root scan child _ waits with old | new
      · exact .inl old
      · exact absurd new.2.2.2 (by simp)
    · exact .inr flies
  · intro token other met
    rcases rootsOf_collectChild config dir depth root scan child token other met with old | ⟨item,
      rfl, rfl⟩
    · exact explored.attributed token other old
    · rw [page.root, same]
      exact .folder folder above children child way.1 page.page listed item
  · intro token member
    rcases (seen_collectChild config dir depth root scan child token).mp member with old | ⟨item, rfl⟩
    · exact explored.within token old
    · exact .folder folder _ children child (way.1.folderAt folder above rfl) page.page listed item
  · intro token
    rw [seen_collectChild, keys_collectChild, explored.keys]

/-- The subfolders a folder lists; each counts once when the folder is collected. -/
def links (config : ScanConfig) (folder : Text) : Nat :=
  match config.drive.listing folder with
  | some children => children.countP isFolder
  | none => 0

structure Tally (config : ScanConfig) (completed : List Text) (extra : Nat) (scan : Scan) : Prop where
  count : scan.scanned = (completed.map (links config)).sum + extra + scan.seen.length
  nodup : scan.seen.Nodup

/-- There are more folder links and items in reach than the limit allows. -/
def Overfull (config : ScanConfig) : Prop :=
  ∃ folders tokens : List Text, folders.Nodup ∧ tokens.Nodup ∧
    (∀ folder ∈ folders, ∃ above, Trail config (folder :: above)) ∧
    (∀ token ∈ tokens, WithinDepth config token) ∧
    config.maxItems < (folders.map (links config)).sum + tokens.length

theorem collectChild_tally {config : ScanConfig} {completed : List Text} {front : List FeishuItem}
    {scan : Scan} (tally : Tally config completed (front.countP isFolder) scan) (dir : Path)
    (depth : Nat) (root : Text) (child : FeishuItem) :
    Tally config completed ((front ++ [child]).countP isFolder)
      (collectChild config dir depth root scan child) := by
  rw [countP_append, countP_singleton]
  have before := tally.count
  unfold collectChild
  split
  · refine ⟨?_, tally.nodup⟩
    dsimp only
    omega
  · constructor
    · dsimp only
      split
      · omega
      · rw [length_append, length_singleton]
        omega
    · dsimp only
      split
      · exact tally.nodup
      · rename_i fresh
        exact nodup_append.mpr ⟨tally.nodup, nodup_singleton _, by
          intro one inside other new same
          rw [mem_singleton.mp new] at same
          exact fresh (same ▸ inside)⟩

def taskDepth : ScanTask → Nat
  | .folder _ _ depth _ => depth
  | .explicit _ => 1

/-- What collecting a whole page leaves as it was, and what it appends to the queue. -/
structure Appends (scan next : Scan) (depth : Nat) : Prop where
  inFlight : next.inFlight = scan.inFlight
  folders : next.scannedFolders = scan.scannedFolders
  raised : next.raised = scan.raised
  queue : ∃ added, next.queue = scan.queue ++ added ∧ ∀ task ∈ added, taskDepth task = depth + 1

theorem collectChild_appends :
    Appends scan (collectChild config dir depth root scan child) depth := by
  unfold collectChild
  split
  · refine ⟨rfl, rfl, rfl, ?_⟩
    dsimp only
    split
    · refine ⟨_, rfl, ?_⟩
      intro task member
      rw [mem_singleton.mp member]
      rfl
    · exact ⟨[], (append_nil _).symm, fun _ no => absurd no not_mem_nil⟩
  · exact ⟨rfl, rfl, rfl, [], (append_nil _).symm, fun _ no => absurd no not_mem_nil⟩

theorem Appends.trans {scan middle next : Scan} {depth : Nat} (first : Appends scan middle depth)
    (second : Appends middle next depth) : Appends scan next depth := by
  rcases first.queue with ⟨front, atMiddle, frontDepth⟩
  rcases second.queue with ⟨back, atNext, backDepth⟩
  refine ⟨second.inFlight.trans first.inFlight, second.folders.trans first.folders,
    second.raised.trans first.raised, front ++ back, ?_, ?_⟩
  · rw [atNext, atMiddle, append_assoc]
  · intro task member
    exact (mem_append.mp member).elim (frontDepth task) (backDepth task)

theorem collect_some {config : ScanConfig} {narrow : Bool} {visit : Text → List Text}
    {busy : Text → Prop} {folder : Text} {depth : Nat} {root : Text} {completed : List Text}
    (dir : Path) (rest front : List FeishuItem) {scan next : Scan}
    (explored : Explored config narrow visit busy scan)
    (page : Page config visit scan folder depth root (front ++ rest))
    (collected : Collected config narrow visit scan (visit folder) front)
    (tally : Tally config completed (front.countP isFolder) scan)
    (made : collectFeishuFolderChildren config dir depth root rest scan = some next) :
    Explored config narrow visit busy next ∧
      Collected config narrow visit next (visit folder) (front ++ rest) ∧
      Tally config completed ((front ++ rest).countP isFolder) next ∧ Appends scan next depth ∧
      (scan.scanned ≤ config.maxItems → next.scanned ≤ config.maxItems) := by
  induction rest generalizing front scan with
  | nil =>
    cases made
    rw [append_nil]
    exact ⟨explored, collected, tally, ⟨rfl, rfl, rfl, [], (append_nil _).symm,
      nofun⟩, id⟩
  | cons child rest ih =>
    rw [collectFeishuFolderChildren] at made
    split at made
    · cases made
    · rename_i room
      have listed : child ∈ front ++ child :: rest := by simp
      have grows := collectChild_grows config narrow visit dir depth root scan child
      have step := collectChild_explored dir child explored page listed
      have first := collectChild_appends config dir depth root scan child
      have parts : front ++ child :: rest = (front ++ [child]) ++ rest := by simp
      have both : Collected config narrow visit (collectChild config dir depth root scan child)
          (visit folder) (front ++ [child]) := by
        intro other member
        rcases mem_append.mp member with old | new
        · exact grows.collected collected other old
        · have here := collectChild_collected config narrow visit dir scan (visit folder) child
          rw [← page.depth, ← page.root] at here
          exact here other new
      rw [parts] at page ⊢
      have onward : Page config visit (collectChild config dir depth root scan child) folder depth
          root ((front ++ [child]) ++ rest) :=
        ⟨first.folders ▸ page.started, page.depth, page.root, page.page⟩
      rcases ih (front ++ [child]) step onward both
        (collectChild_tally tally dir depth root child) made with
        ⟨last, all, total, later, bound⟩
      exact ⟨last, all, total, first.trans later, fun _ => bound (Nat.le_of_not_lt room)⟩

theorem collect_none {config : ScanConfig} {narrow : Bool} {visit : Text → List Text}
    {busy : Text → Prop} {folder : Text} {depth : Nat} {root : Text} {completed : List Text}
    (dir : Path) (rest front : List FeishuItem) {scan : Scan}
    (explored : Explored config narrow visit busy scan)
    (page : Page config visit scan folder depth root (front ++ rest))
    (tally : Tally config completed (front.countP isFolder) scan)
    (distinct : (completed ++ [folder]).Nodup)
    (reached : ∀ other ∈ completed, other ∈ scan.scannedFolders)
    (made : collectFeishuFolderChildren config dir depth root rest scan = none) : Overfull config := by
  induction rest generalizing front scan with
  | nil => cases made
  | cons child rest ih =>
    rw [collectFeishuFolderChildren] at made
    have listed : child ∈ front ++ child :: rest := by simp
    have step := collectChild_explored dir child explored page listed
    have first := collectChild_appends config dir depth root scan child
    have next := collectChild_tally tally dir depth root child
    have parts : front ++ child :: rest = (front ++ [child]) ++ rest := by simp
    rw [parts] at page
    split at made
    · rename_i excess
      refine ⟨completed ++ [folder], _, distinct, next.nodup, ?_, step.within, ?_⟩
      · intro other member
        have started : other ∈ scan.scannedFolders := by
          rcases mem_append.mp member with old | new
          · exact reached other old
          · rw [mem_singleton.mp new]
            exact page.started
        rcases explored.trails other started with ⟨above, _, way⟩
        exact ⟨above, way.1⟩
      · rw [next.count] at excess
        have some : (front ++ [child]).countP isFolder ≤ links config folder := by
          rw [links, page.page]
          exact (sublist_append_left (front ++ [child]) rest).countP_le
        rw [map_append, sum_append, map_singleton, sum_singleton]
        omega
    · have onward : Page config visit (collectChild config dir depth root scan child) folder depth
          root ((front ++ [child]) ++ rest) :=
        ⟨first.folders ▸ page.started, page.depth, page.root, page.page⟩
      exact ih (front ++ [child]) step onward next
        (fun other member => first.folders ▸ reached other member) made

end SourceLens.FeishuScan
