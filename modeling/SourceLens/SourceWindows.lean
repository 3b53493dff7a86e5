import SourceLens.Library.LineRanges
import SourceLens.Library.OrderedDict
import Mathlib.Data.List.Sort
import Mathlib.Data.List.Induction

/-! The source windows of a retrieval plan, merged path by path before they are read. -/

namespace SourceLens.SourceWindows

open LineRanges List

variable (windows : List SourceWindow)

structure SourceWindow where
  path : String
  startLine : Int
  endLine : Option Int
  deriving DecidableEq

/-- `window.end_line or default`. -/
def endOr (endLine : Option Int) (default : Int) : Int :=
  match endLine with
  | some line => if line = 0 then default else line
  | none => default

def cutRange (maxLines : Int) (window : SourceWindow) : Range :=
  let last := window.startLine + maxLines - 1
  (window.startLine, min (endOr window.endLine last) last)

def groupWindow (maxLines : Int) (grouped : OrderedDict String (List Range))
    (window : SourceWindow) : OrderedDict String (List Range) :=
  grouped.set window.path ((grouped.get? window.path).getD [] ++ [cutRange maxLines window])

/-- The order of `sorted`. -/
def Precedes (one other : Range) : Prop := one.1 < other.1 ∨ one.1 = other.1 ∧ one.2 ≤ other.2

instance : DecidableRel Precedes := fun one other =>
  inferInstanceAs (Decidable (one.1 < other.1 ∨ one.1 = other.1 ∧ one.2 ≤ other.2))

structure Merge where
  merged : List Range
  current : Option Range

def mergeRange (maxLines : Int) (state : Merge) (range : Range) : Merge :=
  match state.current with
  | none => { state with current := some range }
  | some current =>
    if range.1 ≤ current.2 + 1 then
      { state with
        current := some (current.1, min (max current.2 range.2) (current.1 + maxLines - 1)) }
    else ⟨state.merged ++ [current], some range⟩

def Merge.ranges (state : Merge) : List Range := state.merged ++ state.current.toList

def mergeRanges (maxLines : Int) (ranges : List Range) : List Range :=
  (ranges.foldl (mergeRange maxLines) ⟨[], none⟩).ranges

def coalesceSourceWindows (windows : List SourceWindow) (maxLines : Int) : List SourceWindow :=
  let grouped := windows.foldl (groupWindow maxLines) .empty
  grouped.entries.flatMap fun (path, ranges) =>
    (mergeRanges maxLines (ranges.insertionSort Precedes)).map fun range =>
      ⟨path, range.1, some range.2⟩

def Valid (window : SourceWindow) : Prop :=
  1 ≤ window.startLine ∧ ∀ last, window.endLine = some last → window.startLine ≤ last

/-- A window of the path asks for the line among its first lines. -/
def Requested (windows : List SourceWindow) (maxLines : Int) (path : String) (line : Int) : Prop :=
  ∃ window ∈ windows, window.path = path ∧ window.startLine ≤ line ∧
    line < window.startLine + maxLines ∧ ∀ last, window.endLine = some last → line ≤ last

def Returned (windows : List SourceWindow) (path : String) (line : Int) : Prop :=
  ∃ window ∈ windows, window.path = path ∧ window.startLine ≤ line ∧
    ∃ last, window.endLine = some last ∧ line ≤ last

/-- Windows in order and disjoint for each path, within the line budget, with every line
that is asked for. -/
structure Coalesced (windows : List SourceWindow) (maxLines : Int)
    (result : List SourceWindow) : Prop where
  ordered : result.Pairwise fun early late => early.path = late.path →
    ∀ last, early.endLine = some last → last < late.startLine
  bounded : ∀ window ∈ result, ∃ last, window.endLine = some last ∧
    last - window.startLine + 1 ≤ maxLines
  covers : ∀ path line, Requested windows maxLines path line → Returned result path line

/-- After no requested line all the lines of a budget are requested too. -/
def Gapped (windows : List SourceWindow) (maxLines : Int) : Prop :=
  ∀ path line, Requested windows maxLines path line →
    ∃ later, line < later ∧ later ≤ line + maxLines ∧ ¬ Requested windows maxLines path later

/-- The cap cut the line off, which stays behind the current range. -/
structure Lost (maxLines : Int) (done ranges : List Range) (current : Range) (line : Int) :
    Prop where
  room : 0 ≤ maxLines
  asked : ∀ offset, 0 ≤ offset → offset ≤ maxLines → Covered done (line - offset)
  missing : ¬ Covered ranges line
  behind : line < current.1 ∨ line = current.2 + 1 ∧ current.2 = current.1 + maxLines - 1

structure Merging (maxLines : Int) (done merged : List Range) (current : Range) : Prop where
  starts : ∃ range ∈ done, range.1 = current.1
  apart : Separated (merged ++ [current])
  within : Within maxLines (merged ++ [current])
  sound : ∀ line, Covered (merged ++ [current]) line → Covered done line
  kept : (∀ line, Covered done line → Covered (merged ++ [current]) line) ∨
    ∃ line, Lost maxLines done (merged ++ [current]) current line

variable {maxLines : Int} {done merged : List Range} {current range : Range}

theorem Lost.more {ranges others : List Range} {next : Range} {line : Int}
    (lost : Lost maxLines done ranges current line)
    (missing : ¬ Covered others line)
    (behind : line < next.1 ∨ line = next.2 + 1 ∧ next.2 = next.1 + maxLines - 1) :
    Lost maxLines (done ++ [range]) others next line :=
  ⟨lost.room, fun offset low high => covered_append.mpr (.inl (lost.asked offset low high)),
    missing, behind⟩

theorem Merging.single (short : range.2 < range.1 + maxLines) :
    Merging maxLines [range] [] range where
  starts := ⟨range, mem_singleton_self _, rfl⟩
  apart := pairwise_singleton ..
  within other member := by
    rw [mem_singleton.mp member]
    exact short
  sound _ covered := covered
  kept := .inl fun _ covered => covered

theorem Merging.push (merging : Merging maxLines done merged current)
    (short : range.2 < range.1 + maxLines) (later : current.1 ≤ range.1)
    (after : current.2 + 1 < range.1) :
    Merging maxLines (done ++ [range]) (merged ++ [current]) range where
  starts := ⟨range, mem_append_right _ (mem_singleton_self _), rfl⟩
  apart := by
    refine pairwise_append.mpr ⟨merging.apart, pairwise_singleton .., ?_⟩
    intro other member next last
    rw [mem_singleton.mp last]
    rcases mem_append.mp member with early | own
    · have gap := (pairwise_append.mp merging.apart).2.2 other early current
        (mem_singleton_self _)
      omega
    · rw [mem_singleton.mp own]
      exact after
  within other member := by
    rcases mem_append.mp member with early | last
    · exact merging.within other early
    · rw [mem_singleton.mp last]
      exact short
  sound line covered := by
    rcases covered_append.mp covered with early | last
    · exact covered_append.mpr (.inl (merging.sound line early))
    · exact covered_append.mpr (.inr last)
  kept := by
    rcases merging.kept with all | ⟨line, lost⟩
    · refine .inl fun line covered => ?_
      rcases covered_append.mp covered with early | last
      · exact covered_append.mpr (.inl (all line early))
      · exact covered_append.mpr (.inr last)
    · have behind : line < range.1 := by
        rcases lost.behind with before | ⟨next, -⟩
        · omega
        · omega
      refine .inr ⟨line, lost.more ?_ (.inl behind)⟩
      intro covered
      rcases covered_append.mp covered with early | last
      · exact lost.missing early
      · have lower := (covered_singleton.mp last).1
        omega

theorem Merging.extend (merging : Merging maxLines done merged current)
    (later : current.1 ≤ range.1) (near : range.1 ≤ current.2 + 1) :
    Merging maxLines (done ++ [range]) merged
      (current.1, min (max current.2 range.2) (current.1 + maxLines - 1)) := by
  have bound := merging.within current (mem_append_right _ (mem_singleton_self _))
  have before : ∀ line, Covered merged line → line + 1 < current.1 :=
    fun line covered => merging.apart.below covered
  have sound : ∀ line, Covered (merged ++
      [(current.1, min (max current.2 range.2) (current.1 + maxLines - 1))]) line →
        Covered (done ++ [range]) line := by
    intro line covered
    rcases covered_append.mp covered with early | last
    · exact covered_append.mpr (.inl (merging.sound line (covered_append.mpr (.inl early))))
    · obtain ⟨lower, upper⟩ := covered_singleton.mp last
      dsimp only at lower upper
      by_cases old : line ≤ current.2
      · have own : Covered [current] line := covered_singleton.mpr ⟨lower, old⟩
        exact covered_append.mpr (.inl (merging.sound line (covered_append.mpr (.inr own))))
      · refine covered_append.mpr (.inr (covered_singleton.mpr ⟨?_, ?_⟩))
        · omega
        · omega
  refine ⟨?_, ?_, ?_, sound, ?_⟩
  · obtain ⟨other, member, same⟩ := merging.starts
    exact ⟨other, mem_append_left _ member, same⟩
  · obtain ⟨front, -, gaps⟩ := pairwise_append.mp merging.apart
    refine pairwise_append.mpr ⟨front, pairwise_singleton .., ?_⟩
    intro other member next last
    rw [mem_singleton.mp last]
    exact gaps other member current (mem_singleton_self _)
  · intro other member
    rcases mem_append.mp member with early | last
    · exact merging.within other (mem_append_left _ early)
    · rw [mem_singleton.mp last]
      dsimp only
      omega
  · rcases merging.kept with all | ⟨line, lost⟩
    · by_cases fits : range.2 ≤ current.1 + maxLines - 1
      · refine .inl fun line covered => ?_
        rcases covered_append.mp covered with early | last
        · rcases covered_append.mp (all line early) with front | own
          · exact covered_append.mpr (.inl front)
          · obtain ⟨lower, upper⟩ := covered_singleton.mp own
            refine covered_append.mpr (.inr (covered_singleton.mpr ⟨lower, ?_⟩))
            dsimp only
            omega
        · obtain ⟨lower, upper⟩ := covered_singleton.mp last
          refine covered_append.mpr (.inr (covered_singleton.mpr ⟨?_, ?_⟩))
          · dsimp only
            omega
          · dsimp only
            omega
      · -- the first line behind the cap is asked for, and no later range gets it
        refine .inr ⟨current.1 + maxLines, ⟨by omega, ?_, ?_, .inr ⟨?_, ?_⟩⟩⟩
        · intro offset low high
          by_cases first : offset = 0
          · subst first
            refine covered_append.mpr (.inr (covered_singleton.mpr ⟨?_, ?_⟩))
            · omega
            · omega
          · refine sound _ (covered_append.mpr (.inr (covered_singleton.mpr ⟨?_, ?_⟩)))
            · dsimp only
              omega
            · dsimp only
              omega
        · intro covered
          rcases covered_append.mp covered with early | last
          · have below := before _ early
            omega
          · have upper := (covered_singleton.mp last).2
            dsimp only at upper
            omega
        · dsimp only
          omega
        · dsimp only
          omega
    · refine .inr ⟨line, lost.more ?_ ?_⟩
      · intro covered
        rcases covered_append.mp covered with early | last
        · exact lost.missing (covered_append.mpr (.inl early))
        · obtain ⟨lower, upper⟩ := covered_singleton.mp last
          dsimp only at lower upper
          rcases lost.behind with ahead | ⟨next, full⟩
          · omega
          · omega
      · dsimp only
        rcases lost.behind with ahead | ⟨next, full⟩
        · exact .inl ahead
        · refine .inr ⟨?_, ?_⟩
          · omega
          · omega

theorem mergeRanges_spec {ranges : List Range} (sorted : ranges.Pairwise Precedes)
    (short : Within maxLines ranges) (filled : ranges ≠ []) :
    ∃ merged current, mergeRanges maxLines ranges = merged ++ [current] ∧
      Merging maxLines ranges merged current := by
  have state : ∃ merged current,
      ranges.foldl (mergeRange maxLines) ⟨[], none⟩ = ⟨merged, some current⟩ ∧
        Merging maxLines ranges merged current := by
    induction ranges using List.reverseRecOn with
    | nil => exact absurd rfl filled
    | append_singleton ranges range ih =>
      obtain ⟨front, -, order⟩ := pairwise_append.mp sorted
      have own : range.2 < range.1 + maxLines :=
        short range (mem_append_right _ (mem_singleton_self _))
      rw [foldl_append, foldl_cons, foldl_nil]
      by_cases first : ranges = []
      · subst first
        exact ⟨[], range, rfl, .single own⟩
      · obtain ⟨merged, current, folded, merging⟩ :=
          ih front (fun other member => short other (mem_append_left _ member)) first
        obtain ⟨start, member, same⟩ := merging.starts
        have later : current.1 ≤ range.1 := by
          rcases order start member range (mem_singleton_self _) with less | ⟨equal, -⟩
          · omega
          · omega
        rw [folded, mergeRange]
        dsimp only
        split
        · rename_i near
          exact ⟨_, _, rfl, merging.extend later near⟩
        · rename_i after
          exact ⟨_, _, rfl, merging.push own later (by omega)⟩
  obtain ⟨merged, current, folded, merging⟩ := state
  exact ⟨merged, current, by rw [mergeRanges, folded]; rfl, merging⟩

def rangesOf (maxLines : Int) (windows : List SourceWindow) (path : String) : List Range :=
  (windows.filter fun window => window.path = path).map (cutRange maxLines)

theorem rangesOf_append (window : SourceWindow) (path : String) :
    rangesOf maxLines (windows ++ [window]) path =
      if window.path = path then rangesOf maxLines windows path ++ [cutRange maxLines window]
      else rangesOf maxLines windows path := by
  by_cases same : window.path = path
  · simp [rangesOf, filter_append, same]
  · simp [rangesOf, filter_append, same]

theorem grouped_spec (path : String) (ranges : List Range) :
    (windows.foldl (groupWindow maxLines) .empty).get? path = some ranges ↔
      ranges = rangesOf maxLines windows path ∧ ranges ≠ [] := by
  induction windows using List.reverseRecOn generalizing ranges with
  | nil =>
    constructor
    · intro found
      exact absurd (OrderedDict.get?_eq_some_iff.mp found) not_mem_nil
    · intro made
      exact absurd made.1 made.2
  | append_singleton windows window ih =>
    rw [foldl_append, foldl_cons, foldl_nil, groupWindow, OrderedDict.get?_set,
      rangesOf_append]
    by_cases same : path = window.path
    · subst same
      rw [if_pos rfl, if_pos rfl]
      -- the entry of the path, before this window
      have old : ((windows.foldl (groupWindow maxLines) .empty).get? window.path).getD [] =
          rangesOf maxLines windows window.path := by
        cases found : (windows.foldl (groupWindow maxLines) .empty).get? window.path with
        | some before => exact ((ih before).mp found).1
        | none =>
          by_contra other
          have filled : rangesOf maxLines windows window.path ≠ [] := fun none => other none.symm
          rw [(ih _).mpr ⟨rfl, filled⟩] at found
          exact absurd found (by simp)
      rw [old, Option.some.injEq]
      constructor
      · intro made
        exact ⟨made.symm, by simp [← made]⟩
      · exact fun made => made.1.symm
    · rw [if_neg same, if_neg (fun equal => same equal.symm), ih]

theorem cutRange_within (window : SourceWindow) :
    (cutRange maxLines window).2 < (cutRange maxLines window).1 + maxLines := by
  simp only [cutRange]
  omega

theorem rangesOf_within (path : String) :
    Within maxLines (rangesOf maxLines windows path) := by
  intro range member
  obtain ⟨window, -, rfl⟩ := mem_map.mp member
  exact cutRange_within window

theorem holds_cutRange {window : SourceWindow} (valid : Valid window) (line : Int) :
    Holds (cutRange maxLines window) line ↔ window.startLine ≤ line ∧
      line < window.startLine + maxLines ∧
        ∀ last, window.endLine = some last → line ≤ last := by
  obtain ⟨positive, ordered⟩ := valid
  rw [Holds, cutRange]
  cases ending : window.endLine with
  | none =>
    simp only [endOr, min_self, reduceCtorEq, false_implies, implies_true, and_true]
    omega
  | some last =>
    have reaches := ordered last ending
    rw [endOr, if_neg (by omega)]
    simp only [Option.some.injEq, forall_eq']
    omega

theorem covered_rangesOf {windows : List SourceWindow} (valid : ∀ window ∈ windows, Valid window)
    (path : String) (line : Int) :
    Covered (rangesOf maxLines windows path) line ↔ Requested windows maxLines path line := by
  constructor
  · intro covered
    obtain ⟨range, member, holds⟩ := covered
    obtain ⟨window, kept, rfl⟩ := mem_map.mp member
    obtain ⟨listed, same⟩ := mem_filter.mp kept
    exact ⟨window, listed, of_decide_eq_true same, (holds_cutRange (valid window listed) line).mp holds⟩
  · intro requested
    obtain ⟨window, listed, same, holds⟩ := requested
    exact ⟨_, mem_map_of_mem (mem_filter.mpr ⟨listed, decide_eq_true same⟩),
      (holds_cutRange (valid window listed) line).mpr holds⟩

instance : Std.Total Precedes where
  total one other := by
    simp only [Precedes]
    omega

instance : IsTrans Range Precedes where
  trans one other third first second := by
    simp only [Precedes] at first second ⊢
    omega

def mergedOf (maxLines : Int) (windows : List SourceWindow) (path : String) : List Range :=
  mergeRanges maxLines ((rangesOf maxLines windows path).insertionSort Precedes)

theorem mergedOf_spec (path : String) :
    mergedOf maxLines windows path = [] ∧ rangesOf maxLines windows path = [] ∨
      ∃ merged current, mergedOf maxLines windows path = merged ++ [current] ∧
        Merging maxLines ((rangesOf maxLines windows path).insertionSort Precedes) merged current := by
  by_cases empty : rangesOf maxLines windows path = []
  · refine .inl ⟨?_, empty⟩
    rw [mergedOf, empty]
    rfl
  · refine .inr (mergeRanges_spec (pairwise_insertionSort Precedes _) ?_ ?_)
    · intro range member
      exact rangesOf_within windows path range ((mem_insertionSort Precedes).mp member)
    · intro none
      have size := length_insertionSort Precedes (rangesOf maxLines windows path)
      rw [none] at size
      exact empty (length_eq_zero_iff.mp size.symm)

theorem covered_sorted {ranges : List Range} {line : Int} :
    Covered (ranges.insertionSort Precedes) line ↔ Covered ranges line := by
  simp only [Covered, mem_insertionSort]

theorem mergedOf_separated (path : String) :
    Separated (mergedOf maxLines windows path) := by
  rcases mergedOf_spec windows path with ⟨empty, -⟩ | ⟨merged, current, shape, merging⟩
  · rw [empty]
    exact List.Pairwise.nil
  · rw [shape]
    exact merging.apart

theorem mergedOf_within (path : String) :
    Within maxLines (mergedOf maxLines windows path) := by
  rcases mergedOf_spec windows path with ⟨empty, -⟩ | ⟨merged, current, shape, merging⟩
  · rw [empty]
    exact fun range member => absurd member not_mem_nil
  · rw [shape]
    exact merging.within

theorem mergedOf_kept (maxLines : Int) (windows : List SourceWindow) (path : String) :
    (∀ line, Covered (rangesOf maxLines windows path) line →
      Covered (mergedOf maxLines windows path) line) ∨
    ∃ line, 0 ≤ maxLines ∧ ∀ offset, 0 ≤ offset → offset ≤ maxLines →
      Covered (rangesOf maxLines windows path) (line - offset) := by
  rcases mergedOf_spec windows path with ⟨-, empty⟩ | ⟨merged, current, shape, merging⟩
  · refine .inl fun line covered => ?_
    rw [empty] at covered
    obtain ⟨range, member, -⟩ := covered
    exact absurd member not_mem_nil
  · rw [shape]
    rcases merging.kept with all | ⟨line, lost⟩
    · exact .inl fun line covered => all line (covered_sorted.mpr covered)
    · exact .inr ⟨line, lost.room, fun offset low high =>
        covered_sorted.mp (lost.asked offset low high)⟩

theorem mem_coalesceSourceWindows {windows : List SourceWindow} {window : SourceWindow} :
    window ∈ coalesceSourceWindows windows maxLines ↔
      ∃ range ∈ mergedOf maxLines windows window.path,
        window = ⟨window.path, range.1, some range.2⟩ := by
  rw [coalesceSourceWindows, mem_flatMap]
  constructor
  · intro returned
    obtain ⟨⟨path, ranges⟩, entry, made⟩ := returned
    obtain ⟨range, member, rfl⟩ := mem_map.mp made
    obtain ⟨rfl, -⟩ := (grouped_spec windows path ranges).mp (OrderedDict.get?_eq_some_iff.mpr entry)
    exact ⟨range, member, rfl⟩
  · intro returned
    obtain ⟨range, member, shape⟩ := returned
    have filled : rangesOf maxLines windows window.path ≠ [] := by
      intro empty
      rcases mergedOf_spec windows window.path with ⟨none, -⟩ | ⟨merged, current, -, merging⟩
      · rw [none] at member
        exact absurd member not_mem_nil
      · obtain ⟨start, inside, -⟩ := merging.starts
        rw [empty] at inside
        exact absurd inside not_mem_nil
    have entry := OrderedDict.get?_eq_some_iff.mp ((grouped_spec windows window.path _).mpr ⟨rfl, filled⟩)
    exact ⟨_, entry, mem_map.mpr ⟨range, member, shape.symm⟩⟩

theorem returned_iff {windows : List SourceWindow} {path : String} {line : Int} :
    Returned (coalesceSourceWindows windows maxLines) path line ↔
      Covered (mergedOf maxLines windows path) line := by
  constructor
  · intro returned
    obtain ⟨window, listed, rfl, lower, last, ending, upper⟩ := returned
    obtain ⟨range, member, shape⟩ := mem_coalesceSourceWindows.mp listed
    rw [shape] at lower ending
    rw [← Option.some.inj ending] at upper
    exact ⟨range, member, lower, upper⟩
  · intro covered
    obtain ⟨range, member, lower, upper⟩ := covered
    exact ⟨⟨path, range.1, some range.2⟩, mem_coalesceSourceWindows.mpr ⟨range, member, rfl⟩, rfl,
      lower, range.2, rfl, upper⟩

theorem coalesced_ordered :
    (coalesceSourceWindows windows maxLines).Pairwise fun early late => early.path = late.path →
      ∀ last, early.endLine = some last → last < late.startLine := by
  refine pairwise_flatMap.mpr ⟨?_, ?_⟩
  · intro entry member
    obtain ⟨path, ranges⟩ := entry
    obtain ⟨rfl, -⟩ := (grouped_spec windows path ranges).mp (OrderedDict.get?_eq_some_iff.mpr member)
    refine pairwise_map.mpr ((mergedOf_separated windows path).imp ?_)
    intro early late gap _ last ending
    rw [← Option.some.inj ending]
    dsimp only
    omega
  · -- the entries of two different paths
    have apart := pairwise_map.mp (windows.foldl (groupWindow maxLines) .empty).distinct
    refine apart.imp ?_
    intro one other differ early first late second same
    obtain ⟨range, -, rfl⟩ := mem_map.mp first
    obtain ⟨next, -, rfl⟩ := mem_map.mp second
    exact absurd same differ

theorem coalesced_bounded :
    ∀ window ∈ coalesceSourceWindows windows maxLines, ∃ last, window.endLine = some last ∧
      last - window.startLine + 1 ≤ maxLines := by
  intro window listed
  obtain ⟨range, member, shape⟩ := mem_coalesceSourceWindows.mp listed
  have short := mergedOf_within windows window.path range member
  rw [shape]
  refine ⟨range.2, rfl, ?_⟩
  dsimp only
  omega

theorem coalesced_iff (windows : List SourceWindow) (maxLines : Int)
    (valid : ∀ window ∈ windows, Valid window) :
    Coalesced windows maxLines (coalesceSourceWindows windows maxLines) ↔
      Gapped windows maxLines := by
  constructor
  · intro coalesced path line requested
    have covered := returned_iff.mp (coalesced.covers path line requested)
    obtain ⟨later, after, near, free⟩ := (mergedOf_separated windows path).gap
      (mergedOf_within windows path) covered
    exact ⟨later, after, near, fun asked =>
      free (returned_iff.mp (coalesced.covers path later asked))⟩
  · intro gapped
    refine ⟨coalesced_ordered windows, coalesced_bounded windows, ?_⟩
    intro path line requested
    rw [returned_iff]
    rcases mergedOf_kept maxLines windows path with all | ⟨last, room, asked⟩
    · exact all line ((covered_rangesOf valid path line).mpr requested)
    · -- the lost line and the budget before it are all requested
      exfalso
      have first := (covered_rangesOf valid path _).mp (asked maxLines room (Int.le_refl _))
      obtain ⟨later, after, near, free⟩ := gapped path _ first
      have offset := asked (last - later) (by omega) (by omega)
      rw [Int.sub_sub_self] at offset
      exact free ((covered_rangesOf valid path later).mp offset)

theorem coalesced_apart :
    Coalesced [⟨"a", 300, none⟩, ⟨"a", 1, some 10⟩] 250
      (coalesceSourceWindows [⟨"a", 300, none⟩, ⟨"a", 1, some 10⟩] 250) := by
  refine (coalesced_iff [⟨"a", 300, none⟩, ⟨"a", 1, some 10⟩] 250 ?_).mpr ?_
  · simp [Valid]
  · intro path line requested
    simp only [Requested, mem_cons, not_mem_nil, or_false, exists_eq_or_imp,
      exists_eq_left, reduceCtorEq, false_implies, implies_true, and_true, Option.some.injEq,
      forall_eq'] at requested ⊢
    rcases requested with ⟨-, lower, upper⟩ | ⟨-, lower, upper, last⟩
    · exact ⟨550, by omega, by omega, by omega⟩
    · exact ⟨11, by omega, by omega, by omega⟩

/-- Of two adjacent windows the second one is lost. -/
theorem coalesced_adjacent :
    ¬ Coalesced [⟨"a", 1, some 250⟩, ⟨"a", 251, some 500⟩] 250
      (coalesceSourceWindows [⟨"a", 1, some 250⟩, ⟨"a", 251, some 500⟩] 250) := by
  intro coalesced
  have requested : Requested [⟨"a", 1, some 250⟩, ⟨"a", 251, some 500⟩] 250 "a" 251 :=
    ⟨⟨"a", 251, some 500⟩, by simp, rfl, by decide, by decide, by simp⟩
  have shape : coalesceSourceWindows [⟨"a", 1, some 250⟩, ⟨"a", 251, some 500⟩] 250 =
      [⟨"a", 1, some 250⟩] := by decide
  obtain ⟨window, listed, -, -, last, ending, upper⟩ := coalesced.covers "a" 251 requested
  rw [shape] at listed
  rw [mem_singleton.mp listed] at ending
  have bound : last = 250 := (Option.some.inj ending).symm
  omega

end SourceLens.SourceWindows
