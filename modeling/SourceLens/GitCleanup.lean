import Mathlib.Data.List.Sort
import SourceLens.Library.DirectoryTree

/-! The removal of the owned repositories below the root of a Git datasource that are no
longer configured. Paths are relative to the resolved root. -/

namespace SourceLens.GitCleanup

open List
open PosixPath (Name Path asPosix)
open DirectoryTree

abbrev Text := List Char

inductive Reading
  /-- an `OSError` or a `JSONDecodeError` -/
  | unreadable
  /-- any other exception: no UTF-8 text, or no JSON object -/
  | raises
  /-- `str(payload.get("datasource_uuid") or "")` -/
  | owner (uuid : Text)
  deriving DecidableEq, Repr

abbrev Root := DirTree Reading

/-- `MARKER_FILE` -/
def markerFile : Name := ".sourcelens-datasource.json".toList

def gitName : Name := ".git".toList

/-- `(current / ".git").exists()` -/
def gitExists (current : Root) : Bool :=
  match lookup current [gitName] with
  | none => false
  | some (.link _ present _) => present
  | some _ => true

def markerReading (current : Root) : Option Reading :=
  match lookup current [markerFile] with
  | some (.file reading) => some reading
  | some (.link false _ reading) => some reading
  | _ => none

def before (first second : Text) : Prop := ¬ second < first

instance : DecidableRel before := fun _ _ => inferInstanceAs (Decidable (¬ _))

/-- The directories that the walk goes down to, unless it prunes all of them. -/
def dirnames (names : List Name) (child : Name → Root) : List Name :=
  (names.filter fun name => name ≠ gitName && (child name).isDirectory).insertionSort before

/-- The directories below the root that the walk finds a marker in, each with what the
marker says. -/
def walk : Root → Path → List (Path × Reading)
  | .directory names child, current =>
    let below := (dirnames names child).flatMap fun name =>
      walk (child name) (current ++ [name])
    if current = [] then below
    else
      match markerReading (.directory names child) with
      | some reading => [(current, reading)]
      | none => if gitExists (.directory names child) then [] else below
  | .file _, _ => []
  | .link .., _ => []

/-- `none` where a marker raises. -/
def staleRepositories (repositoryNames : List Text) (datasourceUuid : Text) :
    List (Path × Reading) → Option (List Path)
  | [] => some []
  | (path, reading) :: rest =>
    match reading with
    | .unreadable => staleRepositories repositoryNames datasourceUuid rest
    | .raises => none
    | .owner uuid =>
      if uuid ≠ datasourceUuid || repositoryNames.contains (asPosix path) then
        staleRepositories repositoryNames datasourceUuid rest
      else (staleRepositories repositoryNames datasourceUuid rest).map (path :: ·)

/-- `rmtreeLeaves` is what an `rmtree` that raises leaves of a directory; `rmdirRefused`
are directories that cannot be removed although they are empty. -/
structure Disk where
  rmtreeLeaves : Path → Option Root
  rmdirRefused : Path → Bool

/-- `_remove_empty_git_namespace_dirs`; the path comes with its last name first. -/
def removeEmptyGitNamespaceDirs (disk : Disk) : Path → Root → Root
  | [], tree => tree
  | name :: above, tree =>
    let path := (name :: above).reverse
    if isEmptyDirectory (lookup tree path) && !disk.rmdirRefused path then
      removeEmptyGitNamespaceDirs disk above (put none path tree)
    else tree

/-- The tree at the end, the paths that `rmtree` was called for, and the names that are
returned unless an exception is raised. -/
structure Cleanup where
  tree : Root
  deleted : List Path
  removed : Option (List Text)

def removeStale (disk : Disk) : List Path → Root → Cleanup
  | [], tree => ⟨tree, [], some []⟩
  | path :: rest, tree =>
    match disk.rmtreeLeaves path with
    | some left => ⟨put (some left) path tree, [path], none⟩
    | none =>
      let done := removeStale disk rest
        (removeEmptyGitNamespaceDirs disk path.dropLast.reverse (put none path tree))
      ⟨done.tree, path :: done.deleted, done.removed.map (asPosix path :: ·)⟩

def byName (first second : Path) : Prop := before (asPosix first) (asPosix second)

instance : DecidableRel byName := fun _ _ => inferInstanceAs (Decidable (before _ _))

def cleanupRemovedGitRepositories (disk : Disk) (root : Root) (repositoryNames : List Text)
    (datasourceUuid : Text) : Cleanup :=
  if datasourceUuid = [] then ⟨root, [], some []⟩
  else if gitExists root then ⟨root, [], some []⟩
  else
    match staleRepositories repositoryNames datasourceUuid (walk root []) with
    | none => ⟨root, [], none⟩
    | some stale => removeStale disk (stale.insertionSort byName) root

def Owned (root : Root) (datasourceUuid : Text) (path : Path) : Prop :=
  ∃ tree, lookup root path = some tree ∧ markerReading tree = some (.owner datasourceUuid)

theorem mem_dirnames {names : List Name} {child : Name → Root} {name : Name}
    (member : name ∈ dirnames names child) : name ∈ names :=
  (mem_filter.mp ((mem_insertionSort before).mp member)).1

theorem walk_marked {tree : Root} {current path : Path} {reading : Reading}
    (found : (path, reading) ∈ walk tree current) :
    path ≠ [] ∧ ∃ rest, path = current ++ rest ∧
      ∃ below, lookup tree rest = some below ∧ markerReading below = some reading := by
  induction tree generalizing current with
  | file content => cases found
  | link toDirectory present content => cases found
  | directory names child ih =>
    have descend : (path, reading) ∈ (dirnames names child).flatMap (fun name =>
        walk (child name) (current ++ [name])) →
        path ≠ [] ∧ ∃ rest, path = current ++ rest ∧
          ∃ below, lookup (.directory names child) rest = some below ∧
            markerReading below = some reading := by
      intro deeper
      obtain ⟨name, listed, inside⟩ := mem_flatMap.mp deeper
      obtain ⟨filled, rest, whole, below, there, marked⟩ := ih name inside
      refine ⟨filled, name :: rest, by rw [whole, append_assoc]; rfl, below, ?_, marked⟩
      rw [lookup_directory, if_pos (contains_iff_mem.mpr (mem_dirnames listed))]
      exact there
    rw [walk] at found
    split at found
    · exact descend found
    · rename_i below
      split at found
      · rename_i here marked
        cases mem_singleton.mp found
        exact ⟨below, [], (append_nil _).symm, _, lookup_nil _, marked⟩
      · split at found
        · cases found
        · exact descend found

theorem stale_owned {repositoryNames : List Text} {datasourceUuid : Text}
    {found : List (Path × Reading)} {stale : List Path}
    (taken : staleRepositories repositoryNames datasourceUuid found = some stale) :
    ∀ path ∈ stale, (path, Reading.owner datasourceUuid) ∈ found ∧
      asPosix path ∉ repositoryNames := by
  induction found generalizing stale with
  | nil =>
    cases taken
    rintro _ ⟨⟩
  | cons entry rest ih =>
    obtain ⟨place, reading⟩ := entry
    have later : ∀ {others : List Path},
        staleRepositories repositoryNames datasourceUuid rest = some others →
        ∀ path ∈ others, (path, Reading.owner datasourceUuid) ∈ (place, reading) :: rest ∧
          asPosix path ∉ repositoryNames := by
      intro others done path member
      exact ⟨mem_cons_of_mem _ (ih done path member).1, (ih done path member).2⟩
    cases reading with
    | unreadable => exact later taken
    | raises => cases taken
    | owner uuid =>
      rw [staleRepositories] at taken
      split at taken
      · exact later taken
      · rename_i wanted
        obtain ⟨others, done, rfl⟩ := Option.map_eq_some_iff.mp taken
        intro path member
        rcases mem_cons.mp member with rfl | other
        · simp only [Bool.or_eq_true, decide_eq_true_eq, not_or, not_not,
            contains_iff_mem] at wanted
          rw [wanted.1]
          exact ⟨mem_cons_self .., wanted.2⟩
        · exact later done path other

/-- A directory below the root that went because it was left empty, above a deleted one. -/
structure Emptied (root after : Root) (deleted : List Path) (place : Path) : Prop where
  inside : place ≠ []
  directory : itemAt root place = some .directory
  gone : itemAt after place = none
  above : ∃ path ∈ deleted, place <+: path

def Cleaned (deleted : List Path) (root after : Root) : Prop :=
  ∀ place, (∀ path ∈ deleted, ¬ path <+: place) →
    itemAt after place = itemAt root place ∨ Emptied root after deleted place

variable {root middle after : Root} {deleted more : List Path}

theorem Cleaned.refl (root : Root) : Cleaned deleted root root := fun _ _ => .inl rfl

theorem Cleaned.mono (cleaned : Cleaned deleted root after)
    (wider : ∀ path ∈ deleted, path ∈ more) : Cleaned more root after := by
  intro place apart
  rcases cleaned place (fun path member => apart path (wider path member)) with same | emptied
  · exact .inl same
  · obtain ⟨path, member, above⟩ := emptied.above
    exact .inr ⟨emptied.inside, emptied.directory, emptied.gone, path, wider path member, above⟩

theorem Cleaned.trans (first : Cleaned deleted root middle) (second : Cleaned deleted middle after) :
    Cleaned deleted root after := by
  intro place apart
  rcases first place apart with same | emptied
  · rcases second place apart with again | later
    · exact .inl (again.trans same)
    · exact .inr ⟨later.inside, same ▸ later.directory, later.gone, later.above⟩
  · rcases second place apart with again | later
    · exact .inr ⟨emptied.inside, emptied.directory, again.trans emptied.gone, emptied.above⟩
    · have gone := emptied.gone
      rw [later.directory] at gone
      cases gone

theorem put_cleaned (new : Option Root) (path : Path) (tree : Root) :
    Cleaned [path] tree (put new path tree) := by
  intro place apart
  exact .inl (itemAt_put_outside new tree (apart path (mem_singleton_self path)))

theorem empty_below {tree : Root} {path : Path}
    (empty : isEmptyDirectory (lookup tree path) = true) :
    itemAt tree path = some .directory ∧
      ∀ place, path <+: place → place ≠ path → itemAt tree place = none := by
  unfold isEmptyDirectory at empty
  split at empty
  · rename_i child there
    refine ⟨by rw [itemAt, there]; rfl, ?_⟩
    intro place below different
    obtain ⟨rest, rfl⟩ := below
    cases rest with
    | nil => exact absurd (append_nil path) different
    | cons name rest => rw [itemAt, lookup_append, there]; rfl
  · cases empty

theorem removeEmpty_cleaned (disk : Disk) (path above : Path) (tree : Root)
    (upward : above.reverse <+: path) :
    Cleaned [path] tree (removeEmptyGitNamespaceDirs disk above tree) := by
  induction above generalizing tree with
  | nil => exact .refl tree
  | cons name above ih =>
    rw [removeEmptyGitNamespaceDirs]
    split
    · rename_i removable
      have empty := empty_below (Bool.and_eq_true _ _ ▸ removable).1
      have filled : (name :: above).reverse ≠ [] := by simp
      have shorter : above.reverse <+: path := by
        rw [reverse_cons] at upward
        exact (prefix_append _ _).trans upward
      refine Cleaned.trans ?_ (ih _ shorter)
      intro place apart
      by_cases below : (name :: above).reverse <+: place
      · have gone := itemAt_put_none tree filled below
        by_cases here : place = (name :: above).reverse
        · rw [here] at gone ⊢
          exact .inr ⟨filled, empty.1, gone, path, mem_singleton_self path, upward⟩
        · exact .inl (gone.trans (empty.2 place below here).symm)
      · exact .inl (itemAt_put_outside none tree below)
    · exact .refl tree

theorem removeStale_deleted (disk : Disk) (stale : List Path) (tree : Root) :
    ∀ path ∈ (removeStale disk stale tree).deleted, path ∈ stale := by
  induction stale generalizing tree with
  | nil => rintro _ ⟨⟩
  | cons path rest ih =>
    intro place member
    rw [removeStale] at member
    split at member
    · rw [mem_singleton.mp member]
      exact mem_cons_self ..
    · rcases mem_cons.mp member with rfl | later
      · exact mem_cons_self ..
      · exact mem_cons_of_mem _ (ih _ place later)

theorem removeStale_cleaned (disk : Disk) (stale : List Path) (tree : Root) :
    Cleaned (removeStale disk stale tree).deleted tree (removeStale disk stale tree).tree := by
  induction stale generalizing tree with
  | nil => exact .refl tree
  | cons path rest ih =>
    rw [removeStale]
    split
    · exact put_cleaned _ _ _
    · have upward : path.dropLast.reverse.reverse <+: path := by
        rw [reverse_reverse]
        exact dropLast_prefix path
      have first : Cleaned [path] tree
          (removeEmptyGitNamespaceDirs disk path.dropLast.reverse (put none path tree)) :=
        (put_cleaned none path tree).trans (removeEmpty_cleaned disk path _ _ upward)
      refine Cleaned.trans (first.mono ?_) ((ih _).mono ?_)
      · intro place member
        rw [mem_singleton.mp member]
        exact mem_cons_self ..
      · exact fun place member => mem_cons_of_mem _ member

/-- For every tree, every set of configured names and every failure of the disk: only
directories below the root whose own marker carries this datasource's uuid and that are not
configured are deleted, and beside what is in them only directories above them go, each
with nothing left in it. -/
theorem cleanup_removes_owned (disk : Disk) (root : Root) (repositoryNames : List Text)
    (datasourceUuid : Text) :
    let done := cleanupRemovedGitRepositories disk root repositoryNames datasourceUuid
    (∀ path ∈ done.deleted, path ≠ [] ∧ datasourceUuid ≠ [] ∧ Owned root datasourceUuid path ∧
      asPosix path ∉ repositoryNames) ∧
    (∀ place, itemAt done.tree place ≠ itemAt root place →
      (∃ path ∈ done.deleted, path <+: place) ∨
      Emptied root done.tree done.deleted place ∧ ∀ below, place <+: below →
        itemAt root below = none ∨ (∃ path ∈ done.deleted, path <+: below) ∨
          Emptied root done.tree done.deleted below) := by
  intro done
  have deletes : ∀ path ∈ done.deleted, path ≠ [] ∧ datasourceUuid ≠ [] ∧
      Owned root datasourceUuid path ∧ asPosix path ∉ repositoryNames := by
    intro path member
    simp only [done, cleanupRemovedGitRepositories] at member
    split at member
    · cases member
    · rename_i filled
      split at member
      · cases member
      · split at member
        · cases member
        · rename_i stale taken
          have chosen := (mem_insertionSort byName).mp (removeStale_deleted _ _ _ path member)
          obtain ⟨found, unknown⟩ := stale_owned taken path chosen
          obtain ⟨inside, rest, rfl, below, there, marked⟩ := walk_marked found
          exact ⟨inside, filled, ⟨below, there, marked⟩, unknown⟩
  have cleaned : Cleaned done.deleted root done.tree := by
    simp only [done, cleanupRemovedGitRepositories]
    split
    · exact .refl root
    · split
      · exact .refl root
      · split
        · exact .refl root
        · exact removeStale_cleaned _ _ _
  refine ⟨deletes, ?_⟩
  intro place changed
  by_cases apart : ∀ path ∈ done.deleted, ¬ path <+: place
  · rcases cleaned place apart with same | emptied
    · exact absurd same changed
    · refine .inr ⟨emptied, ?_⟩
      intro below inside
      by_cases clear : ∀ path ∈ done.deleted, ¬ path <+: below
      · rcases cleaned below clear with same | again
        · exact .inl (same.symm.trans (itemAt_below done.tree emptied.gone inside))
        · exact .inr (.inr again)
      · push Not at clear
        exact .inr (.inl clear)
  · push Not at apart
    exact .inl apart

/-- A directory that goes lies in an owned one that is not configured, and neither is nor
contains the target of a configured repository. -/
def RemovesOwnedOnly (root after : Root) (repositoryNames : List Text) (datasourceUuid : Text) :
    Prop :=
  ∀ place, itemAt root place = some .directory → itemAt after place = none →
    (∃ path, path <+: place ∧ Owned root datasourceUuid path ∧
      asPosix path ∉ repositoryNames) ∧
    ∀ target, asPosix target ∈ repositoryNames → ¬ place <+: target

def willing : Disk where
  rmtreeLeaves _ := none
  rmdirRefused _ := false

/-- The repository `n/o` of the datasource `u`. -/
def renamedRoot : Root :=
  .directory [['n']] fun _ => .directory [['o']] fun _ =>
    .directory [markerFile] fun _ => .file (.owner ['u'])

/-- With `n/o` renamed to `n/w` the namespace `n` goes too, which has no marker. -/
theorem namespace_removed :
    ¬ ∀ (disk : Disk) (root : Root) (repositoryNames : List Text) (datasourceUuid : Text),
      RemovesOwnedOnly root
        (cleanupRemovedGitRepositories disk root repositoryNames datasourceUuid).tree
        repositoryNames datasourceUuid := by
  intro claimed
  obtain ⟨path, above, ⟨tree, there, marked⟩, _⟩ :=
    (claimed willing renamedRoot [asPosix [['n'], ['w']]] ['u'] [['n']] (by decide)
      (by decide)).1
  have unmarked : ∀ place ∈ [[], [['n']]], (lookup renamedRoot place).bind markerReading = none := by
    decide
  have short : path ∈ [[], [['n']]] := by
    rcases prefix_cons_iff.mp above with rfl | ⟨rest, rfl, empty⟩
    · exact mem_cons_self ..
    · rw [prefix_nil.mp empty]
      exact mem_cons_of_mem _ (mem_cons_self ..)
  have none := unmarked path short
  rw [there, Option.bind_some, marked] at none
  cases none

end SourceLens.GitCleanup
