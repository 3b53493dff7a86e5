import SourceLens.Library.FileTree
import SourceLens.Library.PyText

/-! The path rules of a node workspace: safe filenames and stable child paths. -/

namespace SourceLens.PathRules

open PosixPath (Name Path join lastName resolve stem suffix)
open FileTree (Hierarchy present)

/-- A run of matching characters becomes one replacement character. -/
def subRuns (matching : Char → Bool) (replacement : Char) : Bool → List Char → List Char
  | _, [] => []
  | inRun, c :: rest =>
    if matching c then
      if inRun then subRuns matching replacement true rest
      else replacement :: subRuns matching replacement true rest
    else c :: subRuns matching replacement false rest

def invalidFilenameChar (c : Char) : Bool :=
  c ∈ ['\\', '/', ':', '*', '?', '"', '<', '>', '|'] || c.toNat < 32

def dotOrSpace (c : Char) : Bool := c = ' ' || c = '.'

def fallbackName : Name := "document".toList

def safeFilename (value : List Char) : Name :=
  let cleaned := subRuns invalidFilenameChar '-' false (PyText.strip PyText.isSpace value)
  let spaced := PyText.strip dotOrSpace (subRuns PyText.isSpace ' ' false cleaned)
  if spaced ∈ [[], ['.'], ['.', '.']] then fallbackName else spaced

/-- The conflict-safe name: stem, digest of the source id, suffix. -/
def suffixedName (stableSuffix : List Char → Name) (filename sourceId : List Char) : Name :=
  let name := lastName filename
  let base := if stem name = [] then fallbackName else stem name
  let digest := stableSuffix (if sourceId = [] then filename else sourceId)
  base ++ "__".toList ++ digest ++ suffix name

def uniqueChildPath {α : Type} (stableSuffix : List Char → Name) (tree : Hierarchy α) (parent : Path)
    (filename sourceId : List Char) : Path :=
  let candidate := resolve (join parent filename)
  if present tree candidate then resolve (join parent (suffixedName stableSuffix filename sourceId))
  else candidate

theorem mem_subRuns (matching : Char → Bool) (replacement : Char) (inRun : Bool)
    (text : List Char) (c : Char) (member : c ∈ subRuns matching replacement inRun text) :
    c = replacement ∨ c ∈ text ∧ matching c = false := by
  induction text generalizing inRun with
  | nil => exact absurd member List.not_mem_nil
  | cons d rest ih =>
    rw [subRuns] at member
    have later : ∀ flag, c ∈ subRuns matching replacement flag rest →
        c = replacement ∨ c ∈ d :: rest ∧ matching c = false := by
      intro flag inside
      rcases ih flag inside with same | found
      · exact Or.inl same
      · exact Or.inr ⟨List.mem_cons_of_mem _ found.1, found.2⟩
    split at member
    · split at member
      · exact later true member
      · rcases List.mem_cons.mp member with same | inside
        · exact Or.inl same
        · exact later true inside
    · rename_i plain
      rcases List.mem_cons.mp member with same | inside
      · subst same
        exact Or.inr ⟨List.mem_cons_self, by simpa using plain⟩
      · exact later false inside

theorem safeFilename_no_slash (value : List Char) : '/' ∉ safeFilename value := by
  unfold safeFilename
  intro member
  dsimp only at member
  split at member
  · exact absurd member (by decide)
  · have spaced := (PyText.strip_within dotOrSpace _).subset member
    rcases mem_subRuns _ _ _ _ _ spaced with same | found
    · exact absurd same (by decide)
    · rcases mem_subRuns _ _ _ _ _ found.1 with same | kept
      · exact absurd same (by decide)
      · exact absurd kept.2 (by decide)

theorem safeFilename_opens (value : List Char) :
    ∃ c rest, safeFilename value = c :: rest ∧ c ≠ '.' := by
  unfold safeFilename
  dsimp only
  split
  · exact ⟨'d', "ocument".toList, by decide, by decide⟩
  · rename_i usual
    generalize shape : PyText.strip dotOrSpace _ = spaced at usual ⊢
    cases spaced with
    | nil => exact absurd List.mem_cons_self usual
    | cons c rest =>
      refine ⟨c, rest, rfl, ?_⟩
      intro dot
      have visible := PyText.strip_opens c (congrArg List.head? shape)
      rw [dot] at visible
      exact absurd visible (by decide)

example : safeFilename " ..report: final?.zip. ".toList = "report- final-.zip".toList := by decide

end SourceLens.PathRules
