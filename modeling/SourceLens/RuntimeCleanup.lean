import Mathlib.Data.Prod.Lex
import Mathlib.Data.String.Basic
import SourceLens.Library.Eviction
import SourceLens.Library.Transition

/-! Runtime directories of a node (`runtime_resources.py`): the file tree with its
modification times, and `cleanup_stale_runtime_resources` over it. -/

namespace SourceLens.RuntimeCleanup

open Eviction

abbrev Path := List String

/-- What a symbolic link resolves to; of a directory, the times of the entries below it. -/
inductive Target
  | missing
  | file (size : Nat)
  | directory (mtimes : List Int)
  deriving DecidableEq, Repr

inductive Item
  | file (size : Nat)
  | directory
  | link (target : Target)
  deriving DecidableEq, Repr

/-- An entry of the workspace, under its path from the workspace root. -/
structure Entry where
  path : Path
  mtime : Int
  item : Item
  deriving DecidableEq, Repr

@[ext] structure Tree where
  entries : List Entry
  distinct : (entries.map Entry.path).Nodup

namespace Tree

def find? (tree : Tree) (path : Path) : Option Entry :=
  tree.entries.find? (decide <| ·.path = path)

def has (tree : Tree) (path : Path) : Bool := (tree.find? path).isSome

/-- `path.is_dir() and not path.is_symlink()` -/
def isDirectory (tree : Tree) (path : Path) : Bool :=
  (tree.find? path).any (decide <| ·.item = .directory)

def filter (tree : Tree) (keep : Entry → Bool) : Tree where
  entries := tree.entries.filter keep
  distinct := tree.distinct.sublist (List.filter_sublist.map _)

/-- `shutil.rmtree(path)` -/
def rmtree (tree : Tree) (path : Path) : Tree :=
  tree.filter fun entry => !decide (path <+: entry.path)

def below (tree : Tree) (path : Path) : List Entry :=
  tree.entries.filter fun entry => decide (path <+: entry.path) && decide (entry.path ≠ path)

end Tree

/-! ### `cleanup_stale_runtime_resources` -/

def runsRoot : Path := [".sourcelens", "runtime", "runs"]

def sessionsRoot : Path := ["sessions"]

/-- `sessions.glob("*/runs/*")` -/
def isSessionRun : Path → Bool
  | ["sessions", _, "runs", _] => true
  | _ => false

def candidates (tree : Tree) : List Path :=
  (tree.entries.map Entry.path).filter (decide <| ·.dropLast = runsRoot) ++
    (tree.entries.map Entry.path).filter isSessionRun

def Item.isFile : Item → Bool
  | .file _ => true
  | _ => false

def Item.isLink : Item → Bool
  | .link _ => true
  | _ => false

/-- The times of what `(path / "delegations").rglob("*")` finds, links apart. -/
def descendantMtimes (tree : Tree) (path : Path) : List Int :=
  match tree.find? (path ++ ["delegations"]) with
  | some ⟨_, _, .directory⟩ =>
    ((tree.below (path ++ ["delegations"])).filter (!·.item.isLink)).map Entry.mtime
  | some ⟨_, _, .link (.directory mtimes)⟩ => mtimes
  | _ => []

def stale (tree : Tree) (cutoff : Int) (path : Path) : Bool :=
  match tree.find? path with
  | some ⟨_, mtime, .directory⟩ =>
    decide (mtime ≤ cutoff) && (descendantMtimes tree path).all (decide <| · ≤ cutoff)
  | _ => false

structure Sweep where
  tree : Tree
  removed : Nat

def Sweep.rmtree (sweep : Sweep) (path : Path) : Sweep :=
  ⟨sweep.tree.rmtree path, sweep.removed + 1⟩

def removeIfStale (cutoff : Int) (sweep : Sweep) (path : Path) : Sweep :=
  if stale sweep.tree cutoff path then sweep.rmtree path else sweep

def removeStale (cutoff : Int) (tree : Tree) : Sweep :=
  (candidates tree).foldl (removeIfStale cutoff) ⟨tree, 0⟩

/-- `item.stat().st_size`, of what `item.is_file()` accepts. -/
def Item.fileSize : Item → Nat
  | .file size => size
  | .link (.file size) => size
  | _ => 0

def directorySize (tree : Tree) (path : Path) : Nat :=
  bytes (·.item.fileSize) (tree.below path)

/-- An element of `entries` in a quota pass. -/
structure Weighed where
  mtime : Int
  path : Path
  size : Nat
  deriving DecidableEq, Repr

/-- The order of `sorted(entries)`, where paths are distinct. -/
def Weighed.key (weighed : Weighed) : Int ×ₗ List String := toLex (weighed.mtime, weighed.path)

/-- The directories directly below a root, with the bytes of the files in them. -/
def weigh (tree : Tree) (root : Path) : List Weighed :=
  (tree.entries.filter fun entry =>
    decide (entry.item = .directory) && decide (entry.path.dropLast = root)).map fun entry =>
      ⟨entry.mtime, entry.path, directorySize tree entry.path⟩

/-- A quota pass: of what is weighed, the oldest of the entries go. -/
def evict (quota : Int) (weighed entries : List Weighed) (sweep : Sweep) : Sweep :=
  ((evicted Weighed.size quota (bytes Weighed.size weighed)
    (oldestFirst Weighed.key entries)).map Weighed.path).foldl Sweep.rmtree sweep

def quotaPass (quota : Int) (sweep : Sweep) : Sweep :=
  if 0 < quota then
    evict quota (weigh sweep.tree runsRoot) (weigh sweep.tree runsRoot) sweep
  else sweep

/-- A Session is passed over while it is recent, or while its lock is held. -/
def evictable (cutoff : Int) (locked : List String) (session : Weighed) : Bool :=
  decide (session.mtime ≤ cutoff) &&
    !locked.any fun name => decide (session.path = ["sessions", name])

def sessionQuotaPass (quota cutoff : Int) (locked : List String) (sweep : Sweep) : Sweep :=
  if 0 < quota then
    evict quota (weigh sweep.tree sessionsRoot)
      ((weigh sweep.tree sessionsRoot).filter (evictable cutoff locked)) sweep
  else sweep

structure Config where
  maxAge : Int
  /-- `LENSNODE_RUNTIME_MAX_BYTES` -/
  quota : Int
  /-- `LENSNODE_SESSION_MAX_BYTES` -/
  sessionQuota : Int
  deriving DecidableEq, Repr

def Config.cutoff (config : Config) (now : Int) : Int := now - max 0 config.maxAge

/-- Where `runs_root` cannot be listed, `iterdir` raises and nothing is done. -/
def cleanupStaleRuntimeResources (config : Config) (now : Int) (locked : List String)
    (tree : Tree) : Sweep :=
  if tree.isDirectory runsRoot then
    sessionQuotaPass config.sessionQuota (config.cutoff now) locked
      (quotaPass config.quota (removeStale (config.cutoff now) tree))
  else ⟨tree, 0⟩

/-- Where a run lives (`_run_runtime_path`). -/
inductive RuntimeRoot
  | scratch (run : String)
  | session (owner run : String)
  | delegated (owner parent run : String)
  deriving DecidableEq, Repr

def RuntimeRoot.path : RuntimeRoot → Path
  | .scratch run => runsRoot ++ [run]
  | .session owner run => ["sessions", owner, "runs", run]
  | .delegated owner parent run => ["sessions", owner, "runs", parent, "delegations", run]

def RuntimeRoot.candidate : RuntimeRoot → Path
  | .scratch run => runsRoot ++ [run]
  | .session owner run => ["sessions", owner, "runs", run]
  | .delegated owner parent _ => ["sessions", owner, "runs", parent]

namespace Tree

def touch (tree : Tree) (path : Path) (now : Int) : Tree where
  entries := tree.entries.map fun entry =>
    if entry.path = path then { entry with mtime := now } else entry
  distinct := by
    have same : (tree.entries.map fun entry =>
        if entry.path = path then { entry with mtime := now } else entry).map Entry.path =
          tree.entries.map Entry.path := by
      rw [List.map_map]
      apply List.map_congr_left
      intro entry _
      simp only [Function.comp_apply]
      split <;> rfl
    rw [same]
    exact tree.distinct

/-- A new entry, which its directory gains; or one that is written again. -/
def put (tree : Tree) (path : Path) (item : Item) (now : Int) : Tree where
  entries := ((if tree.has path then tree else tree.touch path.dropLast now).filter
    (decide <| ·.path ≠ path)).entries ++ [⟨path, now, item⟩]
  distinct := by
    rw [List.map_append, List.nodup_append]
    refine ⟨Tree.distinct _, List.nodup_singleton _, ?_⟩
    intro old inOld new inNew same
    rcases List.mem_map.mp inOld with ⟨entry, member, rfl⟩
    have other := of_decide_eq_true (List.mem_filter.mp member).2
    exact other (same.trans (List.mem_singleton.mp inNew))

/-- `path.mkdir(parents=True, exist_ok=True)` -/
def mkdirs (tree : Tree) (path : Path) (now : Int) : Tree :=
  path.inits.foldl (fun tree place =>
    if tree.has place then tree else tree.put place .directory now) tree

def delete (tree : Tree) (path : Path) (now : Int) : Tree :=
  (tree.rmtree path).touch path.dropLast now

end Tree

structure World where
  clock : Int
  tree : Tree
  executing : List RuntimeRoot
  /-- The executions that have ended, with their ends. -/
  stopped : List (RuntimeRoot × Int)
  /-- The Sessions whose lock is held. -/
  locked : List String

inductive Action
  | tick (elapsed : Nat)
  | start (root : RuntimeRoot)
  | stop (root : RuntimeRoot)
  | write (path : Path) (size : Nat)
  | mkdir (path : Path)
  | link (path : Path) (target : Target)
  | delete (path : Path)
  | lock (session : String)
  | unlock (session : String)
  | cleanup
  deriving DecidableEq, Repr

def step (config : Config) (world : World) : Action → Option World
  | .tick elapsed => some { world with clock := world.clock + elapsed }
  | .start root =>
    if root ∈ world.executing then none
    else some { world with
      tree := world.tree.mkdirs root.path world.clock
      executing := world.executing ++ [root] }
  | .stop root =>
    if root ∈ world.executing then
      some { world with
        executing := world.executing.erase root
        stopped := world.stopped ++ [(root, world.clock)] }
    else none
  | .write path size =>
    if world.tree.isDirectory path.dropLast && (world.tree.find? path).all (·.item.isFile) then
      some { world with tree := world.tree.put path (.file size) world.clock }
    else none
  | .mkdir path =>
    if world.tree.isDirectory path.dropLast && !world.tree.has path then
      some { world with tree := world.tree.put path .directory world.clock }
    else none
  | .link path target =>
    if world.tree.isDirectory path.dropLast && !world.tree.has path then
      some { world with tree := world.tree.put path (.link target) world.clock }
    else none
  | .delete path =>
    if world.tree.has path && decide (path ≠ []) then
      some { world with tree := world.tree.delete path world.clock }
    else none
  | .lock session =>
    if session ∈ world.locked then none
    else some { world with locked := world.locked ++ [session] }
  | .unlock session => some { world with locked := world.locked.erase session }
  | .cleanup =>
    some { world with
      tree :=
        (cleanupStaleRuntimeResources config world.clock world.locked world.tree).tree }

def World.initial : World := ⟨0, ⟨[⟨[], 0, .directory⟩], by simp⟩, [], [], []⟩

end SourceLens.RuntimeCleanup
