import SourceLens.FeishuPaths
import SourceLens.Library.Transition
import Mathlib.Data.List.Nodup
import Mathlib.Data.List.Perm.Basic

/-! The worker threads of one Feishu sync: each download checks where it can go
and is written there later, in any interleaving. -/

namespace SourceLens.FeishuWorkers

open List
open PosixPath (Name Path PlainPath)
open FileTree
open FeishuPaths
open Transition

variable (config : PoolConfig)

structure Job (α : Type) where
  item : FeishuItem
  folder : PlainPath
  previous : Option ManifestItem
  delivery : Option (Delivery α)

/-- A download between its path choice and its write, or after it. -/
structure Placement (α : Type) where
  item : FeishuItem
  delivery : Delivery α
  path : Path

structure Pool (α : Type) where
  tree : Hierarchy α
  waiting : List (Job α)
  chosen : List (Placement α)
  stored : List (Placement α)
  refused : List (Job α)
  crashed : Bool

inductive PoolAction where
  | choose (token : Text)
  | refuse (token : Text)
  | store (token : Text)
  deriving DecidableEq, Repr

structure PoolConfig where
  root : PlainPath
  maxWorkers : Nat
  stableSuffix : Text → Name

variable {α : Type}

def Job.targetDir (config : PoolConfig) (job : Job α) : Path := config.root.parts ++ job.folder.parts

def Job.previousFile (job : Job α) : Text :=
  match job.previous with
  | some entry => entry.localPath
  | none => []

def Job.place (config : PoolConfig) (tree : Hierarchy α) (job : Job α) (delivery : Delivery α) : Path :=
  feishuTargetFilePath config.stableSuffix tree (job.targetDir config) config.root.parts
    (deliveryFilename job.item delivery) job.item.token job.previousFile

def findJob (pool : Pool α) (token : Text) : Option (Job α) :=
  pool.waiting.find? (·.item.token = token)

def findChosen (pool : Pool α) (token : Text) : Option (Placement α) :=
  pool.chosen.find? (·.item.token = token)

def choosePath (config : PoolConfig) (pool : Pool α) (token : Text) : Option (Pool α) :=
  match findJob pool token with
  | none => none
  | some job =>
    match job.delivery with
    | none => none
    | some delivery =>
      if pool.chosen.length < config.maxWorkers then
        some { pool with
          waiting := pool.waiting.eraseP (·.item.token = token)
          chosen := pool.chosen ++ [⟨job.item, delivery, job.place config pool.tree delivery⟩] }
      else none

def refuseJob (pool : Pool α) (token : Text) : Option (Pool α) :=
  match findJob pool token with
  | none => none
  | some job =>
    match job.delivery with
    | some _ => none
    | none =>
      some { pool with
        waiting := pool.waiting.eraseP (·.item.token = token)
        refused := pool.refused ++ [job] }

/-- `path.write_bytes` and `relative_path`; an error of either ends the sync. -/
def storeContent (config : PoolConfig) (pool : Pool α) (token : Text) : Option (Pool α) :=
  match findChosen pool token with
  | none => none
  | some placement =>
    let left := pool.chosen.eraseP (·.item.token = token)
    match writeFile pool.tree placement.path placement.delivery.content with
    | .error _ => some { pool with chosen := left, crashed := true }
    | .ok written =>
      if (relativePath config.root.parts placement.path).isSome then
        some { pool with
          tree := written, chosen := left, stored := pool.stored ++ [placement] }
      else some { pool with tree := written, chosen := left, crashed := true }

def poolStep (config : PoolConfig) (pool : Pool α) : PoolAction → Option (Pool α)
  | .choose token => choosePath config pool token
  | .refuse token => refuseJob pool token
  | .store token => storeContent config pool token

def Pool.start (tree : Hierarchy α) (jobs : List (Job α)) : Pool α := ⟨tree, jobs, [], [], [], false⟩

def Pool.complete (pool : Pool α) : Bool :=
  pool.waiting.isEmpty && pool.chosen.isEmpty && !pool.crashed

theorem perm_eraseP_of_find {β : Type} (test : β → Bool) (elements : List β) (element : β)
    (found : elements.find? test = some element) :
    elements.Perm (element :: elements.eraseP test) := by
  induction elements with
  | nil => exact absurd found (by simp)
  | cons head tail ih =>
    rw [List.find?_cons] at found
    rw [eraseP_cons]
    cases hit : test head with
    | true =>
      simp only [hit, Option.some.injEq] at found
      subst found
      exact List.Perm.refl _
    | false =>
      simp only [hit] at found
      exact ((ih found).cons head).trans (List.Perm.swap element head _)

theorem choosePath_some (pool next : Pool α) (token : Text)
    (taken : choosePath config pool token = some next) :
    ∃ job delivery, findJob pool token = some job ∧ job.delivery = some delivery ∧
      next = { pool with
        waiting := pool.waiting.eraseP (·.item.token = token)
        chosen := pool.chosen ++ [⟨job.item, delivery, job.place config pool.tree delivery⟩] } := by
  unfold choosePath at taken
  split at taken
  · exact absurd taken (by simp)
  · rename_i job found
    split at taken
    · exact absurd taken (by simp)
    · rename_i delivery delivered
      split at taken
      · exact ⟨job, delivery, found, delivered, (Option.some.inj taken).symm⟩
      · exact absurd taken (by simp)

theorem refuseJob_some (pool next : Pool α) (token : Text)
    (taken : refuseJob pool token = some next) :
    ∃ job, findJob pool token = some job ∧ job.delivery = none ∧
      next = { pool with
        waiting := pool.waiting.eraseP (·.item.token = token)
        refused := pool.refused ++ [job] } := by
  unfold refuseJob at taken
  split at taken
  · exact absurd taken (by simp)
  · rename_i job found
    split at taken
    · exact absurd taken (by simp)
    · rename_i undelivered
      exact ⟨job, found, undelivered, (Option.some.inj taken).symm⟩

theorem storeContent_some (pool next : Pool α) (token : Text)
    (taken : storeContent config pool token = some next) :
    ∃ placement, findChosen pool token = some placement ∧
      ((next.crashed = true ∧ next.chosen = pool.chosen.eraseP (·.item.token = token) ∧
          next.waiting = pool.waiting ∧ next.stored = pool.stored ∧ next.refused = pool.refused ∧
          (next.tree = pool.tree ∨
            next.tree = put pool.tree placement.path (some (.file placement.delivery.content)))) ∨
        ((relativePath config.root.parts placement.path).isSome = true ∧
          next = { pool with
            tree := put pool.tree placement.path (some (.file placement.delivery.content))
            chosen := pool.chosen.eraseP (·.item.token = token)
            stored := pool.stored ++ [placement] })) := by
  unfold storeContent at taken
  split at taken
  · exact absurd taken (by simp)
  · rename_i placement found
    refine ⟨placement, found, ?_⟩
    dsimp only at taken
    split at taken
    · have same := Option.some.inj taken
      subst same
      exact Or.inl ⟨rfl, rfl, rfl, rfl, rfl, Or.inl rfl⟩
    · rename_i written attempt
      have stored := writeFile_eq pool.tree written _ _ attempt
      split at taken
      · rename_i below
        rw [← stored]
        exact Or.inr ⟨below, (Option.some.inj taken).symm⟩
      · have same := Option.some.inj taken
        subst same
        exact Or.inl ⟨rfl, rfl, rfl, rfl, rfl, Or.inr stored⟩

/-- The places taken so far: files of kept items, chosen and written paths. -/
def claimed (config : PoolConfig) (kept : List Text) (pool : Pool α) : List Path :=
  kept.map (fileOf config.root.parts) ++ (pool.chosen.map (·.path) ++ pool.stored.map (·.path))

/-- The condition on a path choice: it does not lead to one of the places. -/
def ClearChoice (config : PoolConfig) (places : List Path) (pool : Pool α) : PoolAction → Prop
  | .choose token => ∀ job ∈ findJob pool token, ∀ delivery ∈ job.delivery,
      Clear config.stableSuffix places pool.tree (job.targetDir config) config.root.parts
        (deliveryFilename job.item delivery) job.item.token job.previousFile
  | _ => True

instance (config : PoolConfig) (places : List Path) (pool : Pool α) :
    (action : PoolAction) → Decidable (ClearChoice config places pool action)
  | .choose token =>
    inferInstanceAs (Decidable (∀ job ∈ findJob pool token, ∀ delivery ∈ job.delivery,
      Clear config.stableSuffix places pool.tree (job.targetDir config) config.root.parts
        (deliveryFilename job.item delivery) job.item.token job.previousFile))
  | .refuse _ => inferInstanceAs (Decidable True)
  | .store _ => inferInstanceAs (Decidable True)

def Uncontended (config : PoolConfig) (kept : List Text) (pool : Pool α) (action : PoolAction) :
    Prop :=
  ClearChoice config (claimed config kept pool) pool action

def localPathOf (config : PoolConfig) (placement : Placement α) : Text :=
  (relativePath config.root.parts placement.path).getD []

/-- Distinct items have distinct files, every downloaded item its own bytes, and the
files of kept items are as they were. -/
structure ItemsApart (config : PoolConfig) (kept : List Text) (before : Hierarchy α) (pool : Pool α) :
    Prop where
  distinct :
    ((kept ++ pool.stored.map (localPathOf config)).map (fileOf config.root.parts)).Nodup
  own : ∀ placement ∈ pool.stored,
    pool.tree (fileOf config.root.parts (localPathOf config placement)) =
      some (.file placement.delivery.content)
  untouched : ∀ localPath ∈ kept,
    pool.tree (fileOf config.root.parts localPath) = before (fileOf config.root.parts localPath)

/-- Holds in every run: the places are plain paths and the written ones lie below
the root. -/
structure Located (config : PoolConfig) (pool : Pool α) : Prop where
  chosen : ∀ placement ∈ pool.chosen, PosixPath.Plain placement.path
  stored : ∀ placement ∈ pool.stored, PosixPath.Plain placement.path ∧
    (relativePath config.root.parts placement.path).isSome = true

theorem place_plain (tree : Hierarchy α) (job : Job α) (delivery : Delivery α) :
    PosixPath.Plain (job.place config tree delivery) :=
  feishuTargetFilePath_plain _ tree _ _ _ _ _
    ((PosixPath.plain_append _ _).mpr ⟨config.root.plain, job.folder.plain⟩) config.root.plain

variable (kept : List Text) (pool : Pool α)

theorem findChosen_mem (token : Text) (placement : Placement α)
    (found : findChosen pool token = some placement) : placement ∈ pool.chosen :=
  mem_of_find?_eq_some found

theorem poolStep_located (pool next : Pool α) (action : PoolAction)
    (located : Located config pool) (taken : poolStep config pool action = some next) :
    Located config next := by
  cases action with
  | choose token =>
    rcases choosePath_some config pool next token taken with ⟨job, delivery, _, _, rfl⟩
    refine ⟨?_, located.stored⟩
    intro placement member
    rcases mem_append.mp member with earlier | new
    · exact located.chosen placement earlier
    · rw [mem_singleton.mp new]
      exact place_plain config pool.tree job delivery
  | refuse token =>
    rcases refuseJob_some pool next token taken with ⟨job, _, _, rfl⟩
    exact ⟨located.chosen, located.stored⟩
  | store token =>
    rcases storeContent_some config pool next token taken with ⟨placement, found, crashed | done⟩
    · rcases crashed with ⟨_, chosen, _, stored, _, _⟩
      constructor
      · rw [chosen]
        exact fun other member => located.chosen other (mem_of_mem_eraseP member)
      · rw [stored]
        exact located.stored
    · rcases done with ⟨below, rfl⟩
      constructor
      · exact fun other member => located.chosen other (mem_of_mem_eraseP member)
      · intro other member
        rcases mem_append.mp member with earlier | new
        · exact located.stored other earlier
        · rw [mem_singleton.mp new]
          exact ⟨located.chosen placement (findChosen_mem pool token placement found), below⟩

theorem located_file (located : Located config pool) :
    ∀ placement ∈ pool.stored,
      fileOf config.root.parts (localPathOf config placement) = placement.path := by
  intro placement member
  rcases located.stored placement member with ⟨plain, below⟩
  rcases Option.isSome_iff_exists.mp below with ⟨localPath, listed⟩
  rw [localPathOf, listed]
  exact fileOf_relativePath _ _ localPath config.root.plain plain listed

theorem poolStep_claimed (pool next : Pool α)
    (action : PoolAction) (taken : poolStep config pool action = some next)
    (running : next.crashed = false) :
    (∃ token job delivery, action = .choose token ∧ findJob pool token = some job ∧
        job.delivery = some delivery ∧
        (claimed config kept next).Perm
          (job.place config pool.tree delivery :: claimed config kept pool)) ∨
      ((∀ token, action ≠ .choose token) ∧
        (claimed config kept next).Perm (claimed config kept pool)) := by
  cases action with
  | choose token =>
    rcases choosePath_some config pool next token taken with
      ⟨job, delivery, found, delivered, rfl⟩
    refine Or.inl ⟨token, job, delivery, rfl, found, delivered, ?_⟩
    simp only [claimed, map_append, map_cons, map_nil, append_assoc,
      singleton_append]
    exact (perm_middle.append_left _).trans perm_middle
  | refuse token =>
    rcases refuseJob_some pool next token taken with ⟨job, _, _, rfl⟩
    exact Or.inr ⟨fun _ => by simp, List.Perm.refl _⟩
  | store token =>
    refine Or.inr ⟨fun _ => by simp, ?_⟩
    rcases storeContent_some config pool next token taken with ⟨placement, found, crashed | done⟩
    · rw [crashed.1] at running
      exact absurd running (by simp)
    · rcases done with ⟨_, rfl⟩
      have split := (perm_eraseP_of_find _ pool.chosen placement found).map (·.path)
      simp only [claimed, map_append, map_cons, map_nil]
      apply List.Perm.append_left
      rw [← append_assoc]
      exact perm_append_singleton _ _ |>.trans (split.symm.append_right _)

theorem poolStep_running (pool next : Pool α) (action : PoolAction)
    (taken : poolStep config pool action = some next) (running : next.crashed = false) :
    pool.crashed = false := by
  cases action with
  | choose token =>
    rcases choosePath_some config pool next token taken with ⟨_, _, _, _, rfl⟩
    exact running
  | refuse token =>
    rcases refuseJob_some pool next token taken with ⟨_, _, _, rfl⟩
    exact running
  | store token =>
    rcases storeContent_some config pool next token taken with ⟨_, _, crashed | done⟩
    · rw [crashed.1] at running
      exact absurd running (by simp)
    · rcases done with ⟨_, rfl⟩
      exact running

/-- Until a crash: no place is taken twice, and what was written or kept is intact. -/
structure Intact (config : PoolConfig) (kept : List Text) (before : Hierarchy α) (pool : Pool α) :
    Prop where
  once : (claimed config kept pool).Nodup
  own : ∀ placement ∈ pool.stored,
    pool.tree placement.path = some (.file placement.delivery.content)
  untouched : ∀ localPath ∈ kept,
    pool.tree (fileOf config.root.parts localPath) = before (fileOf config.root.parts localPath)

theorem chosen_apart (once : (claimed config kept pool).Nodup) (placement : Placement α)
    (member : placement ∈ pool.chosen) :
    (∀ other ∈ pool.stored, other.path ≠ placement.path) ∧
      ∀ localPath ∈ kept, fileOf config.root.parts localPath ≠ placement.path := by
  rcases nodup_append.mp once with ⟨_, inner, outer⟩
  rcases nodup_append.mp inner with ⟨_, _, across⟩
  have here : placement.path ∈ pool.chosen.map (·.path) := mem_map_of_mem member
  constructor
  · intro other stored
    exact (across _ here _ (mem_map_of_mem stored)).symm
  · intro localPath listed
    exact outer _ (mem_map_of_mem listed) _ (mem_append_left _ here)

theorem poolStep_intact (before : Hierarchy α)
    (pool next : Pool α) (action : PoolAction) (intact : Intact config kept before pool)
    (allowed : Uncontended config kept pool action) (running : next.crashed = false)
    (taken : poolStep config pool action = some next) : Intact config kept before next := by
  have moved := poolStep_claimed config kept pool next action taken running
  cases action with
  | choose token =>
    rcases choosePath_some config pool next token taken with ⟨job, delivery, found, delivered, rfl⟩
    refine ⟨?_, intact.own, intact.untouched⟩
    have fresh := (clear_iff _ _ _ _ _ _ _ _).mp (allowed job found delivery delivered)
    rcases moved with ⟨_, job', delivery', same, found', delivered', perm⟩ | ⟨other, _⟩
    · cases same
      rw [found, Option.some.injEq] at found'
      subst found'
      rw [delivered, Option.some.injEq] at delivered'
      subst delivered'
      exact perm.nodup_iff.mpr (nodup_cons.mpr ⟨fresh, intact.once⟩)
    · exact absurd rfl (other token)
  | refuse token =>
    rcases refuseJob_some pool next token taken with ⟨job, _, _, rfl⟩
    exact ⟨intact.once, intact.own, intact.untouched⟩
  | store token =>
    have once : (claimed config kept next).Nodup := by
      rcases moved with ⟨_, _, _, same, _⟩ | ⟨_, perm⟩
      · exact absurd same (by simp)
      · exact perm.nodup_iff.mpr intact.once
    rcases storeContent_some config pool next token taken with ⟨placement, found, crashed | done⟩
    · rw [crashed.1] at running
      exact absurd running (by simp)
    · rcases done with ⟨_, rfl⟩
      have apart := chosen_apart config kept pool intact.once placement
        (findChosen_mem pool token placement found)
      refine ⟨once, ?_, ?_⟩
      · intro other member
        rcases mem_append.mp member with earlier | new
        · change put pool.tree placement.path _ other.path = _
          rw [put_other _ _ _ _ (apart.1 other earlier)]
          exact intact.own other earlier
        · rw [mem_singleton.mp new]
          exact put_self _ _ _
      · intro localPath listed
        change put pool.tree placement.path _ (fileOf config.root.parts localPath) = _
        rw [put_other _ _ _ _ (apart.2 localPath listed)]
        exact intact.untouched localPath listed

theorem run_intact (before : Hierarchy α)
    {start finish : Pool α} {actions : List PoolAction}
    (run : Steps (poolStep config) (Uncontended config kept) start actions finish)
    (initial : start.crashed = false → Intact config kept before start) :
    finish.crashed = false → Intact config kept before finish := by
  apply run.invariant (fun pool => pool.crashed = false → Intact config kept before pool) _ initial
  intro pool action next intact allowed taken running
  exact poolStep_intact config kept before pool next action
    (intact (poolStep_running config pool next action taken running)) allowed running taken

theorem run_uncontended {start finish : Pool α}
    {actions : List PoolAction} (run : Steps (poolStep config) Any start actions finish)
    (running : finish.crashed = false) (once : (claimed config kept finish).Nodup) :
    Steps (poolStep config) (Uncontended config kept) start actions finish ∧
      (claimed config kept start).Nodup ∧ start.crashed = false := by
  induction run with
  | nil pool => exact ⟨.nil pool, once, running⟩
  | cons allowed taken later ih =>
    rcases ih running once with ⟨guarded, onceNext, runningNext⟩
    have runningHere := poolStep_running config _ _ _ taken runningNext
    rcases poolStep_claimed config kept _ _ _ taken runningNext with
      ⟨token, job, delivery, rfl, found, delivered, perm⟩ | ⟨other, perm⟩
    · rcases nodup_cons.mp (perm.nodup_iff.mp onceNext) with ⟨fresh, onceHere⟩
      refine ⟨.cons ?_ taken guarded, onceHere, runningHere⟩
      intro job' found' delivery' delivered'
      rw [Option.mem_def, found, Option.some.injEq] at found'
      subst found'
      rw [Option.mem_def, delivered, Option.some.injEq] at delivered'
      subst delivered'
      exact (clear_iff _ _ _ _ _ _ _ _).mpr fresh
    · refine ⟨.cons ?_ taken guarded, perm.nodup_iff.mp onceNext, runningHere⟩
      rename_i action _
      cases action with
      | choose token => exact absurd rfl (other token)
      | refuse token => trivial
      | store token => trivial

theorem complete_parts (complete : pool.complete = true) :
    pool.chosen = [] ∧ pool.crashed = false := by
  simp only [Pool.complete, Bool.and_eq_true, List.isEmpty_iff, Bool.not_eq_true'] at complete
  exact ⟨complete.1.2, complete.2⟩

theorem claimed_complete (located : Located config pool) (idle : pool.chosen = []) :
    (kept ++ pool.stored.map (localPathOf config)).map (fileOf config.root.parts) =
      claimed config kept pool := by
  have same : (pool.stored.map (localPathOf config)).map (fileOf config.root.parts) =
      pool.stored.map (·.path) := by
    rw [map_map]
    exact map_congr_left (located_file config pool located)
  rw [claimed, idle, map_append, same]
  rfl

def sampleConfig : PoolConfig where
  root := ⟨["data".toList], by decide⟩
  maxWorkers := 2
  stableSuffix := fun _ => "0a1b2c3d".toList

def sampleTree : Hierarchy Text :=
  put (put (fun _ => none) ["data".toList] (some .directory))
    ["data".toList, "documents".toList] (some .directory)

def sampleJob (token name : String) (content : Text) : Job Text where
  item := ⟨token.toList, name.toList, "file".toList, SyncMetadata.none⟩
  folder := ⟨["documents".toList], by decide⟩
  previous := none
  delivery := some ⟨[], [], content⟩

def sameNameJobs : List (Job Text) :=
  [sampleJob "tokA" "report.pdf" ['a'], sampleJob "tokB" "report.pdf" ['b']]

def chooseBeforeWrite : List PoolAction :=
  [.choose "tokA".toList, .choose "tokB".toList, .store "tokA".toList, .store "tokB".toList]

def sharesFile (pool : Pool Text) : Bool :=
  pool.complete &&
    (pool.stored.map (localPathOf sampleConfig)) =
      ["documents/report.pdf".toList, "documents/report.pdf".toList]

def twoNameJobs : List (Job Text) :=
  [sampleJob "tokA" "report.pdf" ['a'], sampleJob "tokB" "notes.pdf" ['b']]

def twoNameFinish : Pool Text :=
  (exec (poolStep sampleConfig) (Pool.start sampleTree twoNameJobs) chooseBeforeWrite).getD
    (Pool.start sampleTree [])

end SourceLens.FeishuWorkers
