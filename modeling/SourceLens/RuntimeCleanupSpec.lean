import SourceLens.RuntimeCleanup

/-! What the cleanup leaves of a tree: the entries below no stale candidate and below no
directory that a quota pass reaches. -/

namespace SourceLens.RuntimeCleanup

open Eviction List Bool

variable {tree : Tree} {cutoff quota : Int} {path : Path} {entry : Entry} {sweep : Sweep}
  {keep : Entry → Bool}

variable {root : Path}

namespace Tree

theorem find?_eq_some : tree.find? path = some entry ↔ entry ∈ tree.entries ∧ entry.path = path := by
  constructor
  · intro found
    exact ⟨mem_of_find?_eq_some found, by simpa using List.find?_some found⟩
  · rintro ⟨present, rfl⟩
    cases found : tree.find? entry.path with
    | none => simpa using List.find?_eq_none.mp found entry present
    | some other =>
      have same : other.path = entry.path := by simpa using List.find?_some found
      rw [inj_on_of_nodup_map tree.distinct (mem_of_find?_eq_some found) present same]

theorem find?_eq_none : tree.find? path = none ↔ ∀ entry ∈ tree.entries, entry.path ≠ path := by
  simp [find?]

theorem has_iff : tree.has path = true ↔ ∃ entry ∈ tree.entries, entry.path = path := by
  simp only [has, Option.isSome_iff_exists, find?_eq_some]

theorem mem_filter : entry ∈ (tree.filter keep).entries ↔ entry ∈ tree.entries ∧ keep entry = true :=
  List.mem_filter

def Spares (tree : Tree) (keep : Entry → Bool) (path : Path) : Prop :=
  ∀ entry ∈ tree.entries, path <+: entry.path → keep entry = true

theorem Spares.longer {longer : Path} (spares : tree.Spares keep path) (start : path <+: longer) :
    tree.Spares keep longer :=
  fun entry member under => spares entry member (start.trans under)

theorem Spares.find? (spares : tree.Spares keep path) :
    (tree.filter keep).find? path = tree.find? path := by
  cases found : tree.find? path with
  | none =>
    rw [find?_eq_none] at found ⊢
    intro entry member
    exact found entry (mem_filter.mp member).1
  | some entry =>
    rw [find?_eq_some] at found ⊢
    refine ⟨mem_filter.mpr ⟨found.1, spares entry found.1 ?_⟩, found.2⟩
    exact found.2 ▸ prefix_refl path

theorem Spares.below (spares : tree.Spares keep path) :
    (tree.filter keep).below path = tree.below path := by
  rw [Tree.below, Tree.below, Tree.filter, filter_filter]
  apply filter_congr
  intro entry member
  by_cases under : path <+: entry.path
  · simp [under, spares entry member under]
  · simp [under]

end Tree

theorem descendantMtimes_filter (spares : tree.Spares keep path) :
    descendantMtimes (tree.filter keep) path = descendantMtimes tree path := by
  have deeper : tree.Spares keep (path ++ ["delegations"]) := spares.longer (prefix_append ..)
  rw [descendantMtimes, descendantMtimes, deeper.find?, deeper.below]

theorem stale_filter (spares : tree.Spares keep path) :
    stale (tree.filter keep) cutoff path = stale tree cutoff path := by
  rw [stale, stale, spares.find?, descendantMtimes_filter spares]

theorem stale_absent (absent : ∀ entry ∈ tree.entries, entry.path ≠ path) :
    stale tree cutoff path = false := by
  rw [stale, Tree.find?_eq_none.mpr absent]

theorem stale_present (gone : stale tree cutoff path = true) :
    ∃ entry ∈ tree.entries, entry.path = path := by
  by_contra absent
  push Not at absent
  rw [stale_absent absent] at gone
  cases gone

theorem length_of_isSessionRun (run : isSessionRun path = true) : path.length = 4 := by
  unfold isSessionRun at run
  split at run
  · rfl
  · cases run

theorem length_of_dropLast (child : path.dropLast = root) (inside : root ≠ []) :
    path.length = root.length + 1 := by
  have length := congrArg List.length child
  have some : 0 < root.length := length_pos_iff.mpr inside
  simp only [length_dropLast] at length
  omega

theorem mem_candidates : path ∈ candidates tree ↔ (∃ entry ∈ tree.entries, entry.path = path) ∧
    (path.dropLast = runsRoot ∨ isSessionRun path = true) := by
  simp only [candidates, mem_append, mem_filter, mem_map, decide_eq_true_eq,
    and_or_left]

theorem length_of_mem_candidates (member : path ∈ candidates tree) : path.length = 4 := by
  rcases (mem_candidates.mp member).2 with child | run
  · exact length_of_dropLast child (by decide)
  · exact length_of_isSessionRun run

/-- Some of the paths are stale candidates with the entry at or below them. -/
def doomedBy (tree : Tree) (cutoff : Int) (paths : List Path) (entry : Entry) : Bool :=
  paths.any fun path => stale tree cutoff path && decide (path <+: entry.path)

theorem doomedBy_iff {paths : List Path} : doomedBy tree cutoff paths entry = true ↔
    ∃ path ∈ paths, stale tree cutoff path = true ∧ path <+: entry.path := by
  simp [doomedBy]

theorem doomedBy_append {paths : List Path} : doomedBy tree cutoff (paths ++ [path]) entry =
    (doomedBy tree cutoff paths entry || stale tree cutoff path && decide (path <+: entry.path)) := by
  simp [doomedBy]

theorem removeIfStale_tree {done : List Path} (lengths : ∀ other ∈ done, other.length = path.length)
    (before : sweep.tree = tree.filter (!doomedBy tree cutoff done ·)) :
    (removeIfStale cutoff sweep path).tree =
      tree.filter (!doomedBy tree cutoff (done ++ [path]) ·) := by
  have unchanged (same : ∀ entry ∈ tree.entries, doomedBy tree cutoff (done ++ [path]) entry =
      doomedBy tree cutoff done entry) :
      sweep.tree = tree.filter (!doomedBy tree cutoff (done ++ [path]) ·) := by
    rw [before]
    apply Tree.ext
    apply filter_congr
    intro entry member
    rw [same entry member]
  by_cases again : path ∈ done ∧ stale tree cutoff path = true
  · have absent : stale sweep.tree cutoff path = false := by
      apply stale_absent
      intro entry member same
      rw [before] at member
      have kept := (Tree.mem_filter.mp member).2
      have doomed : doomedBy tree cutoff done entry = true :=
        doomedBy_iff.mpr ⟨path, again.1, again.2, same ▸ prefix_refl _⟩
      simp [doomed] at kept
    rw [removeIfStale, absent, if_neg Bool.false_ne_true]
    apply unchanged
    intro entry member
    rw [doomedBy_append, or_eq_left_iff_imp]
    intro under
    simp only [and_eq_true, decide_eq_true_eq] at under
    exact doomedBy_iff.mpr ⟨path, again.1, under⟩
  · have spares : tree.Spares (!doomedBy tree cutoff done ·) path := by
      intro entry member under
      rw [not_eq_true', eq_false_iff]
      intro doomed
      obtain ⟨other, earlier, gone, start⟩ := doomedBy_iff.mp doomed
      have same : other = path :=
        (prefix_of_prefix_length_le start under (lengths other earlier).le).eq_of_length
          (lengths other earlier)
      exact again ⟨same ▸ earlier, same ▸ gone⟩
    have judged : stale sweep.tree cutoff path = stale tree cutoff path := by
      rw [before, stale_filter spares]
    rw [removeIfStale, judged]
    split
    · rename_i gone
      rw [Sweep.rmtree, before]
      apply Tree.ext
      simp only [Tree.rmtree, Tree.filter, filter_filter]
      apply filter_congr
      intro entry _
      rw [doomedBy_append, gone, Bool.true_and, Bool.not_or, Bool.and_comm]
    · rename_i fresh
      apply unchanged
      intro entry _
      rw [doomedBy_append, Bool.eq_false_iff.mpr fresh, Bool.false_and, Bool.or_false]

def survivors (tree : Tree) (cutoff : Int) : Tree :=
  tree.filter (!doomedBy tree cutoff (candidates tree) ·)

theorem removeStale_tree (tree : Tree) (cutoff : Int) :
    (removeStale cutoff tree).tree = survivors tree cutoff := by
  have loop : ∀ (paths done : List Path) (sweep : Sweep),
      (∀ path ∈ done ++ paths, path.length = 4) →
      sweep.tree = tree.filter (!doomedBy tree cutoff done ·) →
      (paths.foldl (removeIfStale cutoff) sweep).tree =
        tree.filter (!doomedBy tree cutoff (done ++ paths) ·) := by
    intro paths
    induction paths with
    | nil =>
      intro done sweep _ before
      rw [append_nil]
      exact before
    | cons path rest ih =>
      intro done sweep lengths before
      have length : path.length = 4 := lengths path (by simp)
      have turn : (removeIfStale cutoff sweep path).tree =
          tree.filter (!doomedBy tree cutoff (done ++ [path]) ·) := by
        apply removeIfStale_tree _ before
        intro other earlier
        rw [length]
        exact lengths other (mem_append_left _ earlier)
      rw [foldl_cons, ih (done ++ [path]) _ (by simpa using lengths) turn,
        append_assoc, singleton_append]
  rw [removeStale, survivors]
  apply loop (candidates tree) []
  · exact fun path member => length_of_mem_candidates member
  · apply Tree.ext
    simp [Tree.filter, doomedBy]

theorem foldl_rmtree (paths : List Path) (sweep : Sweep) :
    (paths.foldl Sweep.rmtree sweep).tree =
      sweep.tree.filter fun entry => !paths.any fun path => decide (path <+: entry.path) := by
  induction paths generalizing sweep with
  | nil =>
    apply Tree.ext
    simp [Tree.filter]
  | cons path rest ih =>
    rw [foldl_cons, ih]
    apply Tree.ext
    simp only [Sweep.rmtree, Tree.rmtree, Tree.filter, filter_filter, any_cons,
      Bool.not_or, Bool.and_comm]

theorem weigh_paths (tree : Tree) (root : Path) :
    ((weigh tree root).map Weighed.path).Sublist (tree.entries.map Entry.path) := by
  rw [weigh, map_map]
  exact filter_sublist.map _

theorem weigh_distinct {entries : List Weighed} (part : entries.Sublist (weigh tree root)) :
    (entries.map Weighed.key).Nodup := by
  have paths : (entries.map Weighed.path).Nodup :=
    tree.distinct.sublist ((part.map _).trans (weigh_paths tree root))
  refine List.Nodup.of_map (fun key => (ofLex key).2) ?_
  rw [map_map]
  exact paths

theorem dropLast_of_mem_weigh {weighed : Weighed} (member : weighed ∈ weigh tree root) :
    weighed.path.dropLast = root := by
  obtain ⟨entry, found, rfl⟩ := mem_map.mp member
  have facts := (mem_filter.mp found).2
  simp only [and_eq_true, decide_eq_true_eq] at facts
  exact facts.2

/-- The quota is set, and a directory at the path with those as old or younger, and with
what may not go, is over it. -/
def OverQuota (quota : Int) (weighed entries : List Weighed) (path : Path) : Prop :=
  0 < quota ∧ ∃ directory ∈ entries, directory.path = path ∧
    quota < (bytes Weighed.size weighed : Int) -
      bytesBefore Weighed.key Weighed.size entries directory

theorem mem_evict {weighed entries : List Weighed} (part : entries.Sublist (weigh sweep.tree root))
    (set : 0 < quota) :
    entry ∈ (evict quota weighed entries sweep).tree.entries ↔ entry ∈ sweep.tree.entries ∧
      ∀ path, OverQuota quota weighed entries path → ¬ path <+: entry.path := by
  rw [evict, foldl_rmtree, Tree.mem_filter]
  refine and_congr_right fun _ => ?_
  simp only [not_eq_true', any_eq_false, mem_map, decide_eq_true_eq,
    mem_evicted_oldestFirst (weigh_distinct part), OverQuota]
  constructor
  · rintro spared path ⟨_, directory, member, rfl, beyond⟩
    exact spared directory.path ⟨directory, ⟨member, beyond⟩, rfl⟩
  · rintro spared path ⟨directory, ⟨member, beyond⟩, rfl⟩
    exact spared directory.path ⟨set, directory, member, rfl, beyond⟩

theorem mem_quotaPass : entry ∈ (quotaPass quota sweep).tree.entries ↔
    entry ∈ sweep.tree.entries ∧ ∀ path, OverQuota quota (weigh sweep.tree runsRoot)
      (weigh sweep.tree runsRoot) path → ¬ path <+: entry.path := by
  rw [quotaPass]
  split
  · rename_i set
    exact mem_evict (List.Sublist.refl _) set
  · rename_i unset
    simp [OverQuota, unset]

theorem mem_sessionQuotaPass {locked : List String} :
    entry ∈ (sessionQuotaPass quota cutoff locked sweep).tree.entries ↔
      entry ∈ sweep.tree.entries ∧ ∀ path, OverQuota quota (weigh sweep.tree sessionsRoot)
        ((weigh sweep.tree sessionsRoot).filter (evictable cutoff locked)) path →
          ¬ path <+: entry.path := by
  rw [sessionQuotaPass]
  split
  · rename_i set
    exact mem_evict filter_sublist set
  · rename_i unset
    simp [OverQuota, unset]

theorem weigh_filter (spares : tree.Spares keep root) :
    weigh (tree.filter keep) root = weigh tree root := by
  have inside : ∀ entry ∈ tree.entries, entry.path.dropLast = root → root <+: entry.path := by
    rintro entry _ rfl
    exact dropLast_prefix _
  rw [weigh, weigh, Tree.filter, filter_filter]
  have same : tree.entries.filter (fun entry =>
      (decide (entry.item = .directory) && decide (entry.path.dropLast = root)) && keep entry) =
      tree.entries.filter fun entry =>
        decide (entry.item = .directory) && decide (entry.path.dropLast = root) := by
    apply filter_congr
    intro entry member
    by_cases child : entry.path.dropLast = root
    · simp [spares entry member (inside entry member child)]
    · simp [child]
  rw [same]
  apply map_congr_left
  intro entry member
  have facts := mem_filter.mp member
  simp only [and_eq_true, decide_eq_true_eq] at facts
  have under := spares.longer (inside entry facts.1 facts.2.2)
  rw [directorySize, directorySize]
  exact congrArg (fun entries => Weighed.mk entry.mtime entry.path
    (bytes (·.item.fileSize) entries)) under.below

theorem weigh_quotaPass (quota : Int) (sweep : Sweep) :
    weigh (quotaPass quota sweep).tree sessionsRoot = weigh sweep.tree sessionsRoot := by
  rw [quotaPass]
  split
  · rw [evict, foldl_rmtree]
    apply weigh_filter
    intro entry _ session
    rw [not_eq_true', any_eq_false]
    intro path member under
    obtain ⟨directory, gone, rfl⟩ := mem_map.mp member
    have scratch := ((mem_evicted_oldestFirst (weigh_distinct (List.Sublist.refl _))).mp gone).1
    have start : runsRoot <+: entry.path := by
      have child := dropLast_prefix directory.path
      rw [dropLast_of_mem_weigh scratch] at child
      exact child.trans (of_decide_eq_true under)
    obtain ⟨inSession, one⟩ := session
    obtain ⟨inRuns, other⟩ := start
    rw [← one] at other
    simp [runsRoot, sessionsRoot] at other
  · rfl

/-- What must not hold of a path for it to stay: its candidate is stale, its directory is
over the quota, or its Session is. -/
structure Kept (config : Config) (now : Int) (locked : List String) (tree : Tree) (path : Path) :
    Prop where
  fresh : ∀ candidate ∈ candidates tree, stale tree (config.cutoff now) candidate = true →
    ¬ candidate <+: path
  scratch : ∀ directory, OverQuota config.quota (weigh (survivors tree (config.cutoff now)) runsRoot)
    (weigh (survivors tree (config.cutoff now)) runsRoot) directory → ¬ directory <+: path
  sessions : ∀ directory, OverQuota config.sessionQuota
    (weigh (survivors tree (config.cutoff now)) sessionsRoot)
    ((weigh (survivors tree (config.cutoff now)) sessionsRoot).filter
      (evictable (config.cutoff now) locked)) directory → ¬ directory <+: path

theorem mem_survivors : entry ∈ (survivors tree cutoff).entries ↔ entry ∈ tree.entries ∧
    ∀ candidate ∈ candidates tree, stale tree cutoff candidate = true →
      ¬ candidate <+: entry.path := by
  rw [survivors, Tree.mem_filter, not_eq_true', eq_false_iff, ne_eq, doomedBy_iff]
  push Not
  rfl

theorem has_cleanup {config : Config} {now : Int} {locked : List String} :
    (cleanupStaleRuntimeResources config now locked tree).tree.has path = true ↔
      tree.has path = true ∧ (tree.isDirectory runsRoot = true → Kept config now locked tree path) := by
  rw [cleanupStaleRuntimeResources]
  split
  · rename_i listed
    simp only [listed, forall_const, Tree.has_iff, mem_sessionQuotaPass, weigh_quotaPass,
      mem_quotaPass, removeStale_tree, mem_survivors]
    constructor
    · rintro ⟨entry, ⟨⟨⟨present, fresh⟩, scratch⟩, sessions⟩, rfl⟩
      exact ⟨⟨entry, present, rfl⟩, fresh, scratch, sessions⟩
    · rintro ⟨⟨entry, present, rfl⟩, fresh, scratch, sessions⟩
      exact ⟨entry, ⟨⟨⟨present, fresh⟩, scratch⟩, sessions⟩, rfl⟩
  · rename_i unlisted
    simp [unlisted]

end SourceLens.RuntimeCleanup
