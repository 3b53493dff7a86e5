import SourceLens.Library.Transition

/-! Run checkpoints on a node (`checkpoint.py`): the orphan stamp of each metadata row,
and the sweep that deletes what has been orphaned for longer than the retention window. -/

namespace SourceLens.CheckpointRetention

/-- A row of `lensnode_run_metadata`, as far as the sweep reads it. -/
structure Metadata where
  runUuid : Nat
  orphanedAt : Option Int
  deriving DecidableEq, Repr

/-- Where `_runtime_cleanup_loop` stands. -/
inductive Pass
  | sleeping
  /-- `active_run_uuids` has been taken in the event loop. -/
  | listed (active : List Nat)
  /-- The worker thread has read its clock, and waits for `_database_lock`. -/
  | clocked (active : List Nat) (now : Int)
  deriving DecidableEq, Repr

structure World where
  clock : Int
  /-- The runs of `running_tasks`. -/
  running : List Nat
  /-- The runs started in this process. The worker thread of a run can outlive its task. -/
  workers : List Nat
  /-- `_saver is not None` -/
  opened : Bool
  pass : Pass
  metadata : List Metadata
  /-- The runs that have a checkpoint thread. -/
  threads : List Nat
  /-- When a run last stopped executing. -/
  stopped : Nat → Option Int

def World.initial : World := ⟨0, [], [], false, .sleeping, [], [], fun _ => none⟩

/-- `UPDATE .. SET orphaned_at = now WHERE orphaned_at IS NULL` -/
def stampOrphan (now : Int) (row : Metadata) : Metadata :=
  if row.orphanedAt.isNone then { row with orphanedAt := some now } else row

/-- `get_checkpoint_saver`, on its first use in the process. -/
def openSaver (world : World) : World :=
  { world with opened := true, metadata := world.metadata.map (stampOrphan world.clock) }

def saveResumeMetadata (world : World) (runUuid : Nat) : World :=
  { world with
    metadata :=
      if world.metadata.any (decide <| ·.runUuid = runUuid) then
        world.metadata.map fun row =>
          if row.runUuid = runUuid then { row with orphanedAt := none } else row
      else world.metadata ++ [⟨runUuid, none⟩] }

def cleanupRunCheckpoint (world : World) (runUuid : Nat) : World :=
  { world with
    metadata := world.metadata.filter (decide <| ·.runUuid ≠ runUuid)
    threads := world.threads.filter (decide <| · ≠ runUuid) }

/-! ### `_cleanup_expired_checkpoints` -/

def sweptRow (active : List Nat) (now : Int) (row : Metadata) : Metadata :=
  if row.runUuid ∈ active then { row with orphanedAt := none } else stampOrphan now row

def Metadata.expired (row : Metadata) (cutoff : Int) : Bool :=
  row.orphanedAt.any (decide <| · < cutoff)

/-- The runs to delete, from the rows as they were before the pass. -/
def expiredRuns (metadata : List Metadata) (active : List Nat) (cutoff : Int) : List Nat :=
  (metadata.filter fun row => decide (row.runUuid ∉ active) && row.expired cutoff).map
    Metadata.runUuid

/-- The locked part. `broken` is where `cleanup_plugin_state` raises: the threads up to
that run are gone, and the metadata rows stay. -/
def cleanupExpiredCheckpoints (ttl : Int) (world : World) (active : List Nat) (now : Int)
    (broken : Option Nat) : World :=
  let runUuids := expiredRuns world.metadata active (now - ttl)
  let swept := world.metadata.map (sweptRow active now)
  match broken with
  | none =>
    { world with
      pass := .sleeping
      metadata := swept.filter (decide <| ·.runUuid ∉ runUuids)
      threads := world.threads.filter (decide <| · ∉ runUuids) }
  | some index =>
    { world with
      pass := .sleeping
      metadata := swept
      threads := world.threads.filter (decide <| · ∉ runUuids.take (index + 1)) }

inductive Action
  | tick (seconds : Nat)
  /-- `_start_command`, of a new run or of a resume. A resume reads the metadata row
  and the thread, and writes neither. -/
  | start (runUuid : Nat)
  | openSaver
  | saveResumeMetadata (runUuid : Nat)
  /-- `save_initial_checkpoint`, or a later checkpoint of the graph. -/
  | saveCheckpoint (runUuid : Nat)
  /-- The task of the run leaves `running_tasks`. -/
  | finish (runUuid : Nat)
  /-- `run_done_ack`, or a cancellation: `cleanup_run_checkpoint`. -/
  | acknowledge (runUuid : Nat)
  /-- The process ends, by a crash or a shutdown. -/
  | crash
  | listActive
  | readClock
  | sweep (broken : Option Nat)
  deriving DecidableEq, Repr

def stopRuns (world : World) (ends : Nat → Bool) : World :=
  { world with
    running := world.running.filter (!ends ·)
    stopped := fun runUuid =>
      if runUuid ∈ world.running ∧ ends runUuid = true then some world.clock
      else world.stopped runUuid }

def crash (world : World) : World :=
  { stopRuns world (fun _ => true) with workers := [], opened := false, pass := .sleeping }

def step (ttl : Int) (world : World) : Action → Option World
  | .tick seconds => some { world with clock := world.clock + seconds }
  | .start runUuid =>
    if runUuid ∈ world.running then none
    else some { world with
      running := world.running ++ [runUuid]
      workers := world.workers ++ [runUuid] }
  | .openSaver => if world.opened then none else some (openSaver world)
  | .saveResumeMetadata runUuid =>
    if world.opened && decide (runUuid ∈ world.workers) then
      some (saveResumeMetadata world runUuid)
    else none
  | .saveCheckpoint runUuid =>
    if world.opened && decide (runUuid ∈ world.workers) then
      some { world with threads := world.threads ++ [runUuid] }
    else none
  | .finish runUuid =>
    if runUuid ∈ world.running then
      some (stopRuns world (decide <| · = runUuid))
    else none
  | .acknowledge runUuid =>
    if world.opened then some (cleanupRunCheckpoint world runUuid) else none
  | .crash => some (crash world)
  | .listActive =>
    match world.pass with
    | .sleeping => some { world with pass := .listed world.running }
    | _ => none
  | .readClock =>
    match world.pass with
    | .listed active =>
      if world.opened then some { world with pass := .clocked active world.clock } else none
    | _ => none
  | .sweep broken =>
    match world.pass with
    | .clocked active now => some (cleanupExpiredCheckpoints ttl world active now broken)
    | _ => none

/-- The step leaves the thread and the metadata row of the run, where it has them. -/
structure Keeps (world next : World) (runUuid : Nat) : Prop where
  thread : runUuid ∈ world.threads → runUuid ∈ next.threads
  row : runUuid ∈ world.metadata.map (·.runUuid) → runUuid ∈ next.metadata.map (·.runUuid)

/-- A checkpoint may be deleted by its acknowledgement, or when its run is not executing
and stopped at least `ttl` ago. -/
def Retains (ttl : Int) (world : World) (action : Action) : Prop :=
  ∀ next, step ttl world action = some next → ∀ runUuid, Keeps world next runUuid ∨
    action = .acknowledge runUuid ∨
      runUuid ∉ world.running ∧ ∃ time, world.stopped runUuid = some time ∧
        time + ttl ≤ world.clock

/-- No run stops while its row has a stamp from before the stop. A pass finds no expired
stamp on an executing run that its list lacks, and no unstamped row of a run that stopped
after the pass had read its clock. -/
def Current (ttl : Int) (world : World) : Action → Prop
  | .finish runUuid => ∀ row ∈ world.metadata, row.runUuid = runUuid →
      row.expired world.clock = false
  | .crash => ∀ row ∈ world.metadata, row.runUuid ∈ world.running →
      row.expired world.clock = false
  | .sweep _ => match world.pass with
      | .clocked active now => ∀ row ∈ world.metadata, row.runUuid ∉ active →
          if row.runUuid ∈ world.running then row.expired (now - ttl) = false
          else row.orphanedAt = none → (world.stopped row.runUuid).all (decide <| · ≤ now) = true
      | _ => True
  | _ => True

instance (ttl : Int) (world : World) (action : Action) : Decidable (Current ttl world action) :=
  match action with
  | .finish _ => inferInstanceAs (Decidable (∀ row ∈ world.metadata, _ → _))
  | .crash => inferInstanceAs (Decidable (∀ row ∈ world.metadata, _ → _))
  | .sweep _ => by
    unfold Current
    cases world.pass with
    | sleeping => exact .isTrue trivial
    | listed active => exact .isTrue trivial
    | clocked active now => exact inferInstance
  | .tick _ | .start _ | .openSaver | .saveResumeMetadata _ | .saveCheckpoint _
  | .acknowledge _ | .listActive | .readClock => .isTrue trivial

end SourceLens.CheckpointRetention
