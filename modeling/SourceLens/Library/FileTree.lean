import SourceLens.Library.PosixPath

/-! A file tree without symbolic links: every absolute path is absent, a
directory or a file. -/

namespace SourceLens.FileTree

open PosixPath (Name Path)

inductive Node (α : Type) where
  | file (content : α)
  | directory
  deriving DecidableEq, Repr

inductive FileError where
  | notFound
  | notADirectory
  | isADirectory
  deriving DecidableEq, Repr

abbrev Hierarchy (α : Type) := Path → Option (Node α)

variable {α : Type}

def isFile (tree : Hierarchy α) (path : Path) : Bool :=
  match tree path with
  | some (.file _) => true
  | _ => false

def isDirectory (tree : Hierarchy α) (path : Path) : Bool :=
  match tree path with
  | some .directory => true
  | _ => false

def present (tree : Hierarchy α) (path : Path) : Bool := (tree path).isSome

def put (tree : Hierarchy α) (path : Path) (node : Option (Node α)) : Hierarchy α :=
  fun place => if place = path then node else tree place

/-- `path.mkdir(parents=True, exist_ok=True)`. -/
def mkdirs (tree : Hierarchy α) (path : Path) : Except FileError (Hierarchy α) :=
  if path.inits.any (isFile tree) then .error .notADirectory
  else .ok fun place => if place <+: path ∧ tree place = none then some .directory else tree place

def writeFile (tree : Hierarchy α) (path : Path) (content : α) : Except FileError (Hierarchy α) :=
  if isDirectory tree path then .error .isADirectory
  else if isDirectory tree path.dropLast then .ok (put tree path (some (.file content)))
  else .error .notFound

/-- `source.replace(destination)` of a file. -/
def replaceFile (tree : Hierarchy α) (source destination : Path) : Except FileError (Hierarchy α) :=
  match tree source with
  | some (.file content) =>
    (writeFile tree destination content).map fun moved =>
      if source = destination then moved else put moved source none
  | _ => .error .notFound

def unlink (tree : Hierarchy α) (path : Path) : Hierarchy α := put tree path none

/-- `shutil.rmtree(path)`. -/
def rmtree (tree : Hierarchy α) (path : Path) : Hierarchy α :=
  fun place => if path <+: place then none else tree place

@[simp]
theorem put_self (tree : Hierarchy α) (path : Path) (node : Option (Node α)) :
    put tree path node path = node := by
  simp [put]

theorem put_other (tree : Hierarchy α) (path place : Path) (node : Option (Node α))
    (other : place ≠ path) : put tree path node place = tree place := by
  simp [put, other]

theorem isFile_put (tree : Hierarchy α) (path place : Path) (content : α)
    (there : place = path ∨ isFile tree place = true) :
    isFile (put tree path (some (.file content))) place = true := by
  by_cases same : place = path
  · simp [isFile, same]
  · rcases there with here | before
    · exact absurd here same
    · rw [isFile, put_other tree path place _ same]
      exact before

theorem rmtree_outside (tree : Hierarchy α) (path place : Path) (outside : ¬ path <+: place) :
    rmtree tree path place = tree place := by
  simp [rmtree, outside]

theorem mkdirs_outside (tree made : Hierarchy α) (path place : Path) (outside : ¬ place <+: path)
    (done : mkdirs tree path = .ok made) : made place = tree place := by
  unfold mkdirs at done
  split at done
  · exact absurd done (by simp)
  · cases done
    simp [outside]

theorem mkdirs_present (tree made : Hierarchy α) (path : Path) (done : mkdirs tree path = .ok made) :
    present made path = true := by
  unfold mkdirs at done
  split at done
  · exact absurd done (by simp)
  · cases done
    cases there : tree path with
    | none => simp [present, there]
    | some node => simp [present, there]

theorem mkdirs_still (tree made : Hierarchy α) (path place : Path) (there : present tree place = true)
    (done : mkdirs tree path = .ok made) : present made place = true := by
  unfold mkdirs at done
  split at done
  · exact absurd done (by simp)
  · cases done
    rcases Option.isSome_iff_exists.mp there with ⟨node, found⟩
    simp [present, found]

theorem mkdirs_same (tree made : Hierarchy α) (path place : Path) (there : present tree place = true)
    (done : mkdirs tree path = .ok made) : made place = tree place := by
  unfold mkdirs at done
  split at done
  · exact absurd done (by simp)
  · cases done
    rcases Option.isSome_iff_exists.mp there with ⟨node, found⟩
    simp [found]

theorem mkdirs_file (tree made : Hierarchy α) (path place : Path) (content : α)
    (done : mkdirs tree path = .ok made) :
    made place = some (.file content) ↔ tree place = some (.file content) := by
  unfold mkdirs at done
  split at done
  · exact absurd done (by simp)
  · cases done
    by_cases new : place <+: path ∧ tree place = none
    · simp [new]
    · simp [new]

theorem mkdirs_isFile (tree made : Hierarchy α) (path place : Path) (there : isFile tree place = true)
    (done : mkdirs tree path = .ok made) : isFile made place = true := by
  cases found : tree place with
  | none => simp [isFile, found] at there
  | some node =>
    cases node with
    | directory => simp [isFile, found] at there
    | file content => simp [isFile, (mkdirs_file tree made path place content done).mpr found]

theorem writeFile_eq (tree written : Hierarchy α) (path : Path) (content : α)
    (done : writeFile tree path content = .ok written) :
    written = put tree path (some (.file content)) := by
  unfold writeFile at done
  split at done
  · exact absurd done (by simp)
  · split at done
    · exact (Except.ok.inj done).symm
    · exact absurd done (by simp)

theorem writeFile_still (tree written : Hierarchy α) (path place : Path) (content : α)
    (there : present tree place = true) (done : writeFile tree path content = .ok written) :
    present written place = true := by
  rw [writeFile_eq tree written path content done, present, put]
  split
  · rfl
  · exact there

theorem writeFile_outside (tree written : Hierarchy α) (path place : Path) (content : α)
    (other : place ≠ path) (done : writeFile tree path content = .ok written) :
    written place = tree place := by
  rw [writeFile_eq tree written path content done, put_other tree path place _ other]

end SourceLens.FileTree
