import Mathlib.Data.List.Basic
import Mathlib.Data.Int.Basic

/-! Ranges of lines: what a list of them covers, and lists whose ranges lie apart. -/

namespace SourceLens.LineRanges

open List

abbrev Range := Int × Int

def Holds (range : Range) (line : Int) : Prop := range.1 ≤ line ∧ line ≤ range.2

def Covered (ranges : List Range) (line : Int) : Prop := ∃ range ∈ ranges, Holds range line

variable {ranges more : List Range} {range : Range} {line size : Int}

theorem covered_append : Covered (ranges ++ more) line ↔ Covered ranges line ∨ Covered more line := by
  constructor
  · intro covered
    obtain ⟨range, member, holds⟩ := covered
    rcases mem_append.mp member with early | late
    · exact .inl ⟨range, early, holds⟩
    · exact .inr ⟨range, late, holds⟩
  · intro either
    rcases either with ⟨range, member, holds⟩ | ⟨range, member, holds⟩
    · exact ⟨range, mem_append_left _ member, holds⟩
    · exact ⟨range, mem_append_right _ member, holds⟩

theorem covered_singleton : Covered [range] line ↔ Holds range line := by
  constructor
  · intro covered
    obtain ⟨other, member, holds⟩ := covered
    exact mem_singleton.mp member ▸ holds
  · exact fun holds => ⟨range, mem_singleton_self _, holds⟩

/-- Between any two ranges of the list there is a line that neither holds. -/
def Separated (ranges : List Range) : Prop :=
  ranges.Pairwise fun early late => early.2 + 1 < late.1

def Within (size : Int) (ranges : List Range) : Prop := ∀ range ∈ ranges, range.2 < range.1 + size

theorem Separated.below (apart : Separated (ranges ++ [range])) (covered : Covered ranges line) :
    line + 1 < range.1 := by
  obtain ⟨other, member, holds⟩ := covered
  have gap := (pairwise_append.mp apart).2.2 other member range (mem_singleton_self _)
  have upper := holds.2
  omega

theorem Separated.free (apart : Separated ranges) (member : range ∈ ranges)
    (filled : range.1 ≤ range.2) : ¬ Covered ranges (range.2 + 1) := by
  intro covered
  obtain ⟨front, back, rfl⟩ := append_of_mem member
  obtain ⟨-, behind, before⟩ := pairwise_append.mp apart
  obtain ⟨other, inside, lower, upper⟩ := covered
  rcases mem_append.mp inside with early | late
  · have gap := before other early range (mem_cons_self ..)
    omega
  · rcases mem_cons.mp late with rfl | later
    · omega
    · have gap := (pairwise_cons.mp behind).1 other later
      omega

theorem Separated.gap (apart : Separated ranges) (within : Within size ranges)
    (covered : Covered ranges line) :
    ∃ later, line < later ∧ later ≤ line + size ∧ ¬ Covered ranges later := by
  obtain ⟨range, member, lower, upper⟩ := covered
  have bound := within range member
  refine ⟨range.2 + 1, by omega, by omega, apart.free member (by omega)⟩

end SourceLens.LineRanges
