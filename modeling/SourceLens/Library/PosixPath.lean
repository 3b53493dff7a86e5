import Mathlib.Data.List.Basic

/-! Paths of a POSIX host: the parts of a path text, joining, lexical
resolution, and the stem and suffix of a name. -/

namespace SourceLens.PosixPath

open List

abbrev Name := List Char

abbrev Path := List Name

instance lawfulName : LawfulBEq Name := inferInstanceAs (LawfulBEq (List Char))

instance lawfulPath : LawfulBEq Path := inferInstanceAs (LawfulBEq (List (List Char)))

def isAbsolute (text : List Char) : Bool := text.head? == some '/'

/-- The parts of a path text; empty parts and single dots vanish. -/
def parts (text : List Char) : Path :=
  (text.splitOn '/').filter fun part => part ≠ [] && part ≠ ['.']

/-- `root / text`: an absolute text replaces the root. -/
def join (root : Path) (text : List Char) : Path :=
  if isAbsolute text then parts text else root ++ parts text

def resolvePart (done : Path) (part : Name) : Path :=
  if part = ['.', '.'] then done.dropLast else done ++ [part]

/-- `path.resolve()` where no part is a symbolic link. -/
def resolve (path : Path) : Path := path.foldl resolvePart []

/-- `path.as_posix()` of a relative path. -/
def asPosix (path : Path) : List Char :=
  if path = [] then ['.'] else ['/'].intercalate path

def Named (name : Name) : Prop := name ≠ [] ∧ '/' ∉ name ∧ name ≠ ['.']

instance (name : Name) : Decidable (Named name) :=
  inferInstanceAs (Decidable (name ≠ [] ∧ '/' ∉ name ∧ name ≠ ['.']))

/-- Parts that name a place below any directory they are joined to. -/
def Plain (path : Path) : Prop := (∀ part ∈ path, Named part) ∧ ['.', '.'] ∉ path

instance (path : Path) : Decidable (Plain path) :=
  inferInstanceAs (Decidable ((∀ part ∈ path, Named part) ∧ ['.', '.'] ∉ path))

/-- A resolved path, or the resolved part of one below a directory. -/
structure PlainPath where
  parts : Path
  plain : Plain parts
  deriving DecidableEq

/-- `path.name` of a path text. -/
def lastName (text : List Char) : Name := (parts text).getLastD []

/-- The index of the last dot of a name, unless it opens or ends the name. -/
def dotIndex (name : Name) : Option Nat :=
  let after := (name.reverse.takeWhile (· ≠ '.')).length
  if '.' ∈ name ∧ 0 < after ∧ after + 1 < name.length then some (name.length - (after + 1))
  else none

/-- `path.stem` of the last part. -/
def stem (name : Name) : Name :=
  match dotIndex name with
  | some index => name.take index
  | none => name

/-- `path.suffix` of the last part. -/
def suffix (name : Name) : Name :=
  match dotIndex name with
  | some index => name.drop index
  | none => []

example : stem "notes.tar.gz".toList = "notes.tar".toList := by decide
example : suffix ".env".toList = [] := by decide

theorem mem_of_mem_splitOn (text : List Char) (part : Name) (member : part ∈ text.splitOn '/') :
    '/' ∉ part := by
  induction text generalizing part with
  | nil =>
    simp only [splitOn_nil, mem_singleton] at member
    simp [member]
  | cons c rest ih =>
    rw [splitOn_cons_eq_if_modifyHead] at member
    split at member
    · rcases mem_cons.mp member with rfl | later
      · exact not_mem_nil
      · exact ih part later
    · rename_i other
      cases split : rest.splitOn '/' with
      | nil => exact absurd split (splitOn_ne_nil '/' rest)
      | cons head tail =>
        rw [split] at member
        simp only [modifyHead_cons, mem_cons] at member
        rcases member with rfl | later
        · intro inside
          rcases mem_cons.mp inside with same | tailed
          · exact other (beq_iff_eq.mpr same.symm)
          · exact ih head (by simp [split]) tailed
        · exact ih part (by simp [split, later])

theorem parts_named (text : List Char) : ∀ part ∈ parts text, Named part := by
  intro part member
  have filtered := mem_filter.mp member
  have kept : part ≠ [] ∧ part ≠ ['.'] := by simpa using filtered.2
  exact ⟨kept.1, mem_of_mem_splitOn text part filtered.1, kept.2⟩

theorem parts_asPosix (path : Path) (named : ∀ part ∈ path, Named part) (filled : path ≠ []) :
    parts (asPosix path) = path := by
  have split : (['/'].intercalate path).splitOn '/' = path :=
    splitOn_intercalate '/' (fun part member => (named part member).2.1) filled
  rw [parts, asPosix, if_neg filled, split]
  apply filter_eq_self.mpr
  intro part member
  simp [(named part member).1, (named part member).2.2]

theorem asPosix_relative (path : Path) (named : ∀ part ∈ path, Named part) :
    isAbsolute (asPosix path) = false := by
  cases path with
  | nil => rfl
  | cons part rest =>
    have plain := named part mem_cons_self
    rw [asPosix, if_neg (cons_ne_nil part rest)]
    cases part with
    | nil => exact absurd rfl plain.1
    | cons c part =>
      have other : c ≠ '/' := by
        intro same
        exact plain.2.1 (same ▸ mem_cons_self)
      cases rest <;> simpa [isAbsolute, intercalate_cons_cons] using other

theorem join_asPosix (root path : Path) (named : ∀ part ∈ path, Named part) (filled : path ≠ []) :
    join root (asPosix path) = root ++ path := by
  rw [join, asPosix_relative path named, if_neg Bool.false_ne_true, parts_asPosix path named filled]

theorem asPosix_ne_nil (path : Path) (named : ∀ part ∈ path, Named part) : asPosix path ≠ [] := by
  intro empty
  cases path with
  | nil => exact absurd empty (by decide)
  | cons part rest =>
    have split := parts_asPosix (part :: rest) named (cons_ne_nil part rest)
    rw [empty] at split
    exact absurd split.symm (by simp [parts])

theorem foldl_resolvePart (path done : Path) (straight : ['.', '.'] ∉ path) :
    path.foldl resolvePart done = done ++ path := by
  induction path generalizing done with
  | nil => exact (append_nil done).symm
  | cons part path ih =>
    have other : ['.', '.'] ≠ part := ne_of_not_mem_cons straight
    rw [foldl_cons, ih _ (not_mem_of_not_mem_cons straight), resolvePart,
      if_neg other.symm, append_assoc, singleton_append]

theorem resolve_straight (path : Path) (straight : ['.', '.'] ∉ path) : resolve path = path :=
  foldl_resolvePart path [] straight

theorem resolvePart_straight (done : Path) (part : Name) (straight : ['.', '.'] ∉ done) :
    ['.', '.'] ∉ resolvePart done part := by
  unfold resolvePart
  split
  · exact fun member => straight (dropLast_subset done member)
  · rename_i other
    intro member
    rcases mem_append.mp member with before | last
    · exact straight before
    · exact other (mem_singleton.mp last).symm

theorem foldl_resolvePart_straight (path done : Path) (straight : ['.', '.'] ∉ done) :
    ['.', '.'] ∉ path.foldl resolvePart done := by
  induction path generalizing done with
  | nil => exact straight
  | cons part path ih => exact ih _ (resolvePart_straight done part straight)

theorem straight_resolve (path : Path) : ['.', '.'] ∉ resolve path :=
  foldl_resolvePart_straight path [] not_mem_nil

theorem foldl_resolvePart_named (path done : Path) (named : ∀ part ∈ path, Named part)
    (before : ∀ part ∈ done, Named part) : ∀ part ∈ path.foldl resolvePart done, Named part := by
  induction path generalizing done with
  | nil => exact before
  | cons part path ih =>
    apply ih _ (fun other member => named other (mem_cons_of_mem _ member))
    intro other member
    unfold resolvePart at member
    split at member
    · exact before other (dropLast_subset done member)
    · rcases mem_append.mp member with earlier | last
      · exact before other earlier
      · exact mem_singleton.mp last ▸ named part mem_cons_self

theorem plain_resolve (path : Path) (named : ∀ part ∈ path, Named part) : Plain (resolve path) :=
  ⟨foldl_resolvePart_named path [] named nofun,
    straight_resolve path⟩

theorem plain_append (front back : Path) : Plain (front ++ back) ↔ Plain front ∧ Plain back := by
  constructor
  · intro whole
    rcases whole with ⟨named, straight⟩
    constructor
    · exact ⟨fun part member => named part (mem_append_left _ member),
        fun member => straight (mem_append_left _ member)⟩
    · exact ⟨fun part member => named part (mem_append_right _ member),
        fun member => straight (mem_append_right _ member)⟩
  · intro sides
    rcases sides with ⟨⟨named, straight⟩, ⟨namedBack, straightBack⟩⟩
    constructor
    · intro part member
      rcases mem_append.mp member with inFront | inBack
      · exact named part inFront
      · exact namedBack part inBack
    · intro member
      rcases mem_append.mp member with inFront | inBack
      · exact straight inFront
      · exact straightBack inBack

theorem join_named (root : Path) (text : List Char) (named : ∀ part ∈ root, Named part) :
    ∀ part ∈ join root text, Named part := by
  unfold join
  split
  · exact parts_named text
  · intro part member
    rcases mem_append.mp member with above | below
    · exact named part above
    · exact parts_named text part below

theorem plain_resolve_join (root : Path) (text : List Char) (plain : Plain root) :
    Plain (resolve (join root text)) :=
  plain_resolve _ (join_named root text plain.1)

theorem resolve_join_asPosix (root path : Path) (plainRoot : Plain root) (plain : Plain path) :
    resolve (join root (asPosix path)) = root ++ path := by
  have whole : resolve (root ++ path) = root ++ path :=
    resolve_straight _ ((plain_append root path).mpr ⟨plainRoot, plain⟩).2
  by_cases filled : path = []
  · subst filled
    have dot : join root (asPosix []) = root ++ [] := by
      rw [join, asPosix_relative [] plain.1, if_neg Bool.false_ne_true]
      rfl
    rw [dot, whole]
  · rw [join_asPosix root path plain.1 filled, whole]

end SourceLens.PosixPath
