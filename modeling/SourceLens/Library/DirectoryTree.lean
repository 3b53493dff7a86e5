import SourceLens.Library.PosixPath

/-! Directory trees that can be listed: what stands at a path, and one part of a tree put
in the place of another or taken away. -/

namespace SourceLens.DirectoryTree

open PosixPath (Name Path)

variable {path place : Path}

/-- A directory lists its names; what `child` is at other names does not count. -/
inductive DirTree (α : Type)
  | file (content : α)
  | link (toDirectory present : Bool) (content : α)
  | directory (names : List Name) (child : Name → DirTree α)

inductive Item (α : Type)
  | file (content : α)
  | link (toDirectory present : Bool) (content : α)
  | directory
  deriving DecidableEq, Repr

variable {α : Type}

def DirTree.item : DirTree α → Item α
  | .file content => .file content
  | .link toDirectory present content => .link toDirectory present content
  | .directory _ _ => .directory

def DirTree.isDirectory : DirTree α → Bool
  | .directory _ _ => true
  | _ => false

def lookup : DirTree α → Path → Option (DirTree α)
  | tree, [] => some tree
  | .directory names child, name :: rest =>
    if names.contains name then lookup (child name) rest else none
  | _, _ :: _ => none

def itemAt (tree : DirTree α) (path : Path) : Option (Item α) := (lookup tree path).map DirTree.item

/-- `shutil.rmtree` of a path, or what stands there replaced by another tree. -/
def put (new : Option (DirTree α)) : Path → DirTree α → DirTree α
  | [], tree => tree
  | name :: rest, .directory names child =>
    match rest, new with
    | [], none => .directory (names.filter (· ≠ name)) child
    | [], some other => .directory names fun place => if place = name then other else child place
    | _ :: _, _ =>
      .directory names fun place =>
        if place = name then put new rest (child name) else child place
  | _ :: _, .file content => .file content
  | _ :: _, .link toDirectory present content => .link toDirectory present content

/-- An empty directory, as `rmdir` wants it. -/
def isEmptyDirectory : Option (DirTree α) → Bool
  | some (.directory [] _) => true
  | _ => false

@[simp] theorem lookup_nil (tree : DirTree α) : lookup tree [] = some tree := by
  cases tree <;> rfl

theorem lookup_directory (names : List Name) (child : Name → DirTree α) (name : Name) (rest : Path) :
    lookup (.directory names child) (name :: rest) =
      if names.contains name then lookup (child name) rest else none := rfl

theorem lookup_append (tree : DirTree α) (front back : Path) :
    lookup tree (front ++ back) = (lookup tree front).bind fun below => lookup below back := by
  induction front generalizing tree with
  | nil => rw [List.nil_append, lookup_nil, Option.bind_some]
  | cons name rest ih =>
    cases tree with
    | file content => rfl
    | link toDirectory present content => rfl
    | directory names child =>
      rw [List.cons_append, lookup_directory, lookup_directory]
      split
      · exact ih (child name)
      · rfl

theorem itemAt_below (tree : DirTree α) (gone : itemAt tree path = none) (below : path <+: place) :
    itemAt tree place = none := by
  obtain ⟨rest, rfl⟩ := below
  rw [itemAt, Option.map_eq_none_iff] at gone ⊢
  rw [lookup_append, gone, Option.bind_none]

theorem put_item (new : Option (DirTree α)) (path : Path) (tree : DirTree α) :
    (put new path tree).item = tree.item := by
  cases path with
  | nil => rfl
  | cons name rest =>
    cases tree with
    | file content => rfl
    | link toDirectory present content => rfl
    | directory names child =>
      cases rest with
      | nil => cases new <;> rfl
      | cons second more => rfl

theorem itemAt_put_outside (new : Option (DirTree α)) (tree : DirTree α)
    (outside : ¬ path <+: place) : itemAt (put new path tree) place = itemAt tree place := by
  induction path generalizing tree place with
  | nil => exact absurd List.nil_prefix outside
  | cons name rest ih =>
    cases place with
    | nil => rw [itemAt, itemAt, lookup_nil, lookup_nil, Option.map_some, Option.map_some, put_item]
    | cons other below =>
      cases tree with
      | file content => rfl
      | link toDirectory present content => rfl
      | directory names child =>
        by_cases same : other = name
        · subst same
          have deeper : ¬ rest <+: below := fun above => outside (List.cons_prefix_cons.mpr
            ⟨rfl, above⟩)
          cases rest with
          | nil => exact absurd List.nil_prefix deeper
          | cons second more =>
            simp only [put, itemAt, lookup_directory, if_true]
            split
            · exact ih (child other) deeper
            · rfl
        · cases rest with
          | nil =>
            cases new with
            | none => simp [put, itemAt, lookup_directory, same]
            | some tree => simp [put, itemAt, lookup_directory, same]
          | cons second more => simp [put, itemAt, lookup_directory, same]

theorem itemAt_put_none (tree : DirTree α) (filled : path ≠ []) (below : path <+: place) :
    itemAt (put none path tree) place = none := by
  refine itemAt_below _ ?_ below
  clear below
  induction path generalizing tree with
  | nil => exact absurd rfl filled
  | cons name rest ih =>
    cases tree with
    | file content => rfl
    | link toDirectory present content => rfl
    | directory names child =>
      cases rest with
      | nil => simp [put, itemAt, lookup_directory]
      | cons second more =>
        simp only [put, itemAt, lookup_directory, if_true]
        split
        · exact ih (child name) (by simp)
        · rfl

end SourceLens.DirectoryTree
