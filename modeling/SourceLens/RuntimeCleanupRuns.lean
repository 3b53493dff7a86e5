import SourceLens.RuntimeCleanupSpec

/-! When a cleanup takes exactly the abandoned run directories: nothing of a run that
executes or has just stopped, and every directory without activity. -/

namespace SourceLens.RuntimeCleanup

open Transition Eviction List Bool

variable {config : Config} {world : World} {root : RuntimeRoot} {tree : Tree} {now cutoff : Int}
  {locked : List String}

variable {path : Path}

def World.swept (world : World) (config : Config) : Tree :=
  (cleanupStaleRuntimeResources config world.clock world.locked world.tree).tree

def World.Protected (world : World) (config : Config) (root : RuntimeRoot) : Prop :=
  root ∈ world.executing ∨
    ∃ ended ∈ world.stopped, ended.1 = root ∧ config.cutoff world.clock < ended.2

/-- The times of everything at and below a path, and of what its links lead to. -/
def activity (tree : Tree) (path : Path) : List Int :=
  (tree.entries.filter fun entry => decide (path <+: entry.path)).flatMap fun entry =>
    entry.mtime :: match entry.item with
      | .link (.directory mtimes) => mtimes
      | _ => []

/-- A directory below which nothing has happened for longer than the age limit, and no
run is protected. -/
structure World.Idle (world : World) (config : Config) (root : RuntimeRoot) : Prop where
  directory : world.tree.isDirectory root.path = true
  quiet : ∀ time ∈ activity world.tree root.path, time < config.cutoff world.clock
  unused : ∀ other, world.Protected config other → ¬ root.path <+: other.path

/-- What a cleanup should do. A run directory goes with its Session, too. -/
structure World.Safe (world : World) (config : Config) : Prop where
  kept : ∀ root, world.Protected config root → world.tree.has root.path = true →
    (world.swept config).has root.path = true
  removed : ∀ root, world.Idle config root → (world.swept config).has root.path = false

def RuntimeRoot.owner : RuntimeRoot → Option String
  | .scratch _ => none
  | .session owner _ => some owner
  | .delegated owner _ _ => some owner

/-- The Session is over the quota with those as old or younger, and with what may not go. -/
def SessionOverQuota (config : Config) (now : Int) (locked : List String) (tree : Tree)
    (owner : String) : Prop :=
  OverQuota config.sessionQuota (weigh (survivors tree (config.cutoff now)) sessionsRoot)
    ((weigh (survivors tree (config.cutoff now)) sessionsRoot).filter
      (evictable (config.cutoff now) locked)) ["sessions", owner]

/-- The directory of the first loop is fresh, and within the quota; so is the Session. -/
structure Spared (config : Config) (now : Int) (locked : List String) (tree : Tree)
    (root : RuntimeRoot) : Prop where
  fresh : stale tree (config.cutoff now) root.candidate = false
  scratch : ¬ OverQuota config.quota (weigh (survivors tree (config.cutoff now)) runsRoot)
    (weigh (survivors tree (config.cutoff now)) runsRoot) root.candidate
  session : ∀ owner, root.owner = some owner → ¬ SessionOverQuota config now locked tree owner

theorem candidate_eq_take (root : RuntimeRoot) : root.candidate = root.path.take 4 := by
  cases root <;> rfl

theorem candidate_start (root : RuntimeRoot) : root.candidate <+: root.path := by
  rw [candidate_eq_take]
  exact take_prefix 4 root.path

theorem mem_candidates_of_stale (gone : stale tree cutoff root.candidate = true) :
    root.candidate ∈ candidates tree := by
  refine mem_candidates.mpr ⟨stale_present gone, ?_⟩
  cases root with
  | scratch run => exact .inl rfl
  | session owner run => exact .inr rfl
  | delegated owner parent run => exact .inr rfl

theorem eq_take_of_start {short : Path} {length : Nat} (start : short <+: path)
    (same : short.length = length) : short = path.take length := by
  rw [← same]
  exact prefix_iff_eq_take.mp start

theorem kept_iff_spared :
    Kept config now locked tree root.path ↔ Spared config now locked tree root := by
  constructor
  · intro kept
    refine ⟨?_, ?_, ?_⟩
    · rw [eq_false_iff]
      intro gone
      exact kept.fresh root.candidate (mem_candidates_of_stale gone) gone (candidate_start root)
    · intro beyond
      exact kept.scratch root.candidate beyond (candidate_start root)
    · intro owner owned beyond
      apply kept.sessions _ beyond
      cases root with
      | scratch run => cases owned
      | session owner run =>
        cases owned
        exact ⟨["runs", run], rfl⟩
      | delegated owner parent run =>
        cases owned
        exact ⟨["runs", parent, "delegations", run], rfl⟩
  · intro spared
    refine ⟨?_, ?_, ?_⟩
    · intro candidate member gone start
      have same : candidate = root.candidate := by
        rw [candidate_eq_take]
        exact eq_take_of_start start (length_of_mem_candidates member)
      rw [same, spared.fresh] at gone
      cases gone
    · intro path beyond start
      obtain ⟨set, directory, member, rfl, bytes⟩ := beyond
      have child := dropLast_of_mem_weigh member
      have same : directory.path = root.candidate := by
        rw [candidate_eq_take]
        exact eq_take_of_start start (length_of_dropLast child (by decide))
      exact spared.scratch ⟨set, directory, member, same, bytes⟩
    · intro path beyond start
      obtain ⟨set, directory, member, rfl, bytes⟩ := beyond
      have child := dropLast_of_mem_weigh (mem_filter.mp member).1
      have same : directory.path = root.path.take 2 :=
        eq_take_of_start start (length_of_dropLast child (by decide))
      cases root with
      | scratch run =>
        rw [same] at child
        simp [RuntimeRoot.path, runsRoot, sessionsRoot] at child
      | session owner run =>
        exact spared.session owner rfl ⟨set, directory, member, same, bytes⟩
      | delegated owner parent run =>
        exact spared.session owner rfl ⟨set, directory, member, same, bytes⟩

theorem has_swept : (world.swept config).has root.path = true ↔ world.tree.has root.path = true ∧
    (world.tree.isDirectory runsRoot = true →
      Spared config world.clock world.locked world.tree root) := by
  rw [World.swept, has_cleanup, kept_iff_spared]

theorem mem_activity {entry : Entry} (present : entry ∈ tree.entries) (under : path <+: entry.path) :
    entry.mtime ∈ activity tree path :=
  mem_flatMap.mpr
    ⟨entry, mem_filter.mpr ⟨present, decide_eq_true under⟩, mem_cons_self ..⟩

theorem descendantMtimes_subset (tree : Tree) (path : Path) :
    descendantMtimes tree path ⊆ activity tree path := by
  intro time member
  rw [descendantMtimes] at member
  split at member
  · obtain ⟨entry, found, rfl⟩ := mem_map.mp member
    have facts := mem_filter.mp (mem_filter.mp found).1
    simp only [and_eq_true, decide_eq_true_eq] at facts
    exact mem_activity facts.1 ((prefix_append _ _).trans facts.2.1)
  · rename_i place mtime mtimes found
    have link := Tree.find?_eq_some.mp found
    apply mem_flatMap.mpr
    refine ⟨_, mem_filter.mpr ⟨link.1, decide_eq_true ?_⟩, mem_cons_of_mem _ member⟩
    rw [link.2]
    exact prefix_append _ _
  · cases member

theorem stale_of_idle (idle : world.Idle config root) (own : root.candidate = root.path) :
    stale world.tree (config.cutoff world.clock) root.candidate = true := by
  obtain ⟨entry, found, kind⟩ := (Option.any_eq_true _ _).mp idle.directory
  obtain ⟨place, mtime, item⟩ := entry
  have kind : item = .directory := of_decide_eq_true kind
  subst kind
  have facts := Tree.find?_eq_some.mp found
  have old : mtime < config.cutoff world.clock := by
    apply idle.quiet mtime
    apply mem_activity facts.1
    exact facts.2 ▸ prefix_refl root.path
  rw [own, stale, found]
  simp only [and_eq_true, decide_eq_true_eq, all_eq_true]
  refine ⟨old.le, fun time member => ?_⟩
  exact (idle.quiet time (descendantMtimes_subset _ _ member)).le

theorem has_of_isDirectory (directory : tree.isDirectory path = true) : tree.has path = true := by
  obtain ⟨entry, found, _⟩ := (Option.any_eq_true _ _).mp directory
  rw [Tree.has, found]
  rfl

/-- Where the scratch root exists: the directory of every protected run is fresh and
within the quotas, and every idle delegated run lies in a stale directory or in a Session
over the quota. Where it does not exist, no directory is idle. -/
structure World.Met (world : World) (config : Config) : Prop where
  kept : ∀ root, world.Protected config root → world.tree.has root.path = true →
    world.tree.isDirectory runsRoot = true →
      Spared config world.clock world.locked world.tree root
  removed : ∀ root, world.Idle config root → world.tree.isDirectory runsRoot = true ∧
    ∀ owner parent run, root = .delegated owner parent run →
      ¬ Spared config world.clock world.locked world.tree root

theorem safe_iff_met : world.Safe config ↔ world.Met config := by
  constructor
  · intro safe
    refine ⟨fun root used present => (has_swept.mp (safe.kept root used present)).2, ?_⟩
    intro root idle
    have gone := safe.removed root idle
    rw [eq_false_iff, ne_eq, has_swept] at gone
    push Not at gone
    have facts := gone (has_of_isDirectory idle.directory)
    exact ⟨facts.1, fun _ _ _ _ => facts.2⟩
  · intro met
    refine ⟨fun root used present => has_swept.mpr ⟨present, met.kept root used present⟩, ?_⟩
    intro root idle
    rw [eq_false_iff, ne_eq, has_swept]
    rintro ⟨_, spared⟩
    obtain ⟨listed, nested⟩ := met.removed root idle
    cases root with
    | scratch run =>
      have fresh := (spared listed).fresh
      rw [stale_of_idle idle rfl] at fresh
      cases fresh
    | session owner run =>
      have fresh := (spared listed).fresh
      rw [stale_of_idle idle rfl] at fresh
      cases fresh
    | delegated owner parent run => exact nested owner parent run rfl (spared listed)

def SafeCleanup (config : Config) (world : World) : Action → Prop
  | .cleanup => world.Safe config
  | _ => True

def MetCleanup (config : Config) (world : World) : Action → Prop
  | .cleanup => world.Met config
  | _ => True

/-- In every history, the cleanups are safe exactly if they all meet the condition. -/
theorem cleanups_safe_iff {actions : List Action} {start finish : World} :
    Steps (step config) (SafeCleanup config) start actions finish ↔
      Steps (step config) (MetCleanup config) start actions finish := by
  have same : ∀ world action, SafeCleanup config world action ↔ MetCleanup config world action := by
    intro world action
    cases action with
    | cleanup => exact safe_iff_met
    | _ => exact Iff.rfl
  constructor
  · exact fun run => run.weaken fun world action => (same world action).mp
  · exact fun run => run.weaken fun world action => (same world action).mpr

def day : Nat := 24 * 3600

def daily : Config := ⟨day, 0, 0⟩

/-- A run writes below its directory for more than a day; a run before it has left its
directory to the scratch root. -/
def deepHistory : List Action :=
  [.start (.scratch "first"), .stop (.scratch "first"), .tick day, .start (.session "s" "r"),
    .mkdir ["sessions", "s", "runs", "r", "outputs"], .tick (day + 1),
    .mkdir ["sessions", "s", "runs", "r", "outputs", "latest"]]

def unlistedHistory : List Action :=
  [.start (.session "s" "r"), .stop (.session "s" "r"), .tick (day + 1)]

/-- The first history ends with a cleanup that removes the directory of the executing run,
the second with one that leaves a directory without activity for a day. -/
theorem cleanup_unsafe :
    (∃ world, exec (step daily) World.initial deepHistory = some world ∧
      RuntimeRoot.session "s" "r" ∈ world.executing ∧
      world.tree.has ["sessions", "s", "runs", "r", "outputs", "latest"] = true ∧
      (world.swept daily).has ["sessions", "s", "runs", "r"] = false ∧ ¬ world.Safe daily) ∧
    ∃ world, exec (step daily) World.initial unlistedHistory = some world ∧
      world.executing = [] ∧ ¬ world.Safe daily := by
  have deep : (exec (step daily) World.initial deepHistory).any (fun world =>
      decide (RuntimeRoot.session "s" "r" ∈ world.executing) &&
      world.tree.has ["sessions", "s", "runs", "r", "outputs", "latest"] &&
      (world.tree.has (RuntimeRoot.session "s" "r").path &&
        !(world.swept daily).has (RuntimeRoot.session "s" "r").path)) = true := by
    decide +kernel
  have unlisted : (exec (step daily) World.initial unlistedHistory).any (fun world =>
      decide (world.executing = []) && (world.tree.isDirectory (RuntimeRoot.session "s" "r").path &&
      (activity world.tree (RuntimeRoot.session "s" "r").path).all
        (decide <| · < daily.cutoff world.clock)) &&
      (world.stopped.all fun ended => decide (ended.2 ≤ daily.cutoff world.clock)) &&
      (world.swept daily).has (RuntimeRoot.session "s" "r").path) = true := by
    decide +kernel
  obtain ⟨world, reached, facts⟩ := (Option.any_eq_true _ _).mp deep
  obtain ⟨other, reached', facts'⟩ := (Option.any_eq_true _ _).mp unlisted
  simp only [and_eq_true, decide_eq_true_eq, not_eq_true', all_eq_true]
    at facts facts'
  refine ⟨⟨world, reached, facts.1.1, facts.1.2, facts.2.2, ?_⟩, other, reached', facts'.1.1.1, ?_⟩
  · intro safe
    have kept := safe.kept (.session "s" "r") (.inl facts.1.1) facts.2.1
    rw [facts.2.2] at kept
    cases kept
  · intro safe
    have idle : other.Idle daily (.session "s" "r") := by
      refine ⟨facts'.1.1.2.1, facts'.1.1.2.2, ?_⟩
      rintro root (executing | ⟨ended, member, _, late⟩)
      · rw [facts'.1.1.1] at executing
        cases executing
      · have early := facts'.1.2 ended member
        omega
    have gone := safe.removed _ idle
    rw [facts'.2] at gone
    cases gone

end SourceLens.RuntimeCleanup
