import SourceLens.WorkspaceSearch
import Mathlib

/-! What the removal of duplicates, the ranking, a reranker and the limits leave of the matches that
a search has found. -/

namespace SourceLens.WorkspaceSearch

open List

variable {Dir Item : Type} (workspace : Workspace Dir)

variable {matched : List Match} {items : List Item}

def itemsAt (items : List Item) (indices : List Nat) : List Item := indices.filterMap (items[·]?)

theorem itemsAt_append {last : Item} {indices : List Nat}
    (within : ∀ index ∈ indices, index < items.length) :
    itemsAt (items ++ [last]) indices = itemsAt items indices := by
  apply filterMap_congr
  intro index member
  exact getElem?_append_left (within index member)

theorem zipIdx_filter (items : List Item) (keep : Nat → Bool) :
    (items.zipIdx.filter fun entry => keep entry.2).map Prod.fst =
      itemsAt items ((List.range items.length).filter keep) := by
  induction items using List.reverseRecOn with
  | nil => rfl
  | append_singleton items last ih =>
    have before : itemsAt (items ++ [last]) ((List.range items.length).filter keep) =
        itemsAt items ((List.range items.length).filter keep) := by
      apply itemsAt_append
      intro index member
      exact mem_range.mp (mem_of_mem_filter member)
    have split : itemsAt (items ++ [last]) ((List.range (items ++ [last]).length).filter keep) =
        itemsAt items ((List.range items.length).filter keep) ++
          itemsAt (items ++ [last]) ([items.length].filter keep) := by
      rw [← before, length_append, length_singleton, range_succ,
        filter_append, itemsAt, filterMap_append]
      rfl
    rw [split, zipIdx_append, filter_append, map_append, ih, Nat.zero_add]
    congr 1
    cases kept : keep items.length with
    | false => simp [kept, itemsAt]
    | true => simp [kept, itemsAt]

theorem itemsAt_range (items : List Item) : itemsAt items (List.range items.length) = items := by
  have every := zipIdx_filter items fun _ => true
  simpa using every.symm

theorem eraseDups_nodup [DecidableEq Item] : ∀ items : List Item, items.eraseDups.Nodup
  | [] => nodup_nil
  | item :: rest => by
    rw [eraseDups_cons, nodup_cons]
    constructor
    · simp
    · exact eraseDups_nodup _
termination_by items => items.length
decreasing_by
  have shorter := length_filter_le (fun other => !other == item) rest
  simp only [length_cons]
  omega

theorem chosenIndices_lt {count : Nat} {order : List (Option Int)} {index : Nat}
    (member : index ∈ chosenIndices count order) : index < count := by
  rw [chosenIndices, mem_eraseDups, mem_filterMap] at member
  obtain ⟨entry, -, read⟩ := member
  split at read
  · obtain rfl := Option.some.inj read
    omega
  · cases read

theorem applyRerank_perm (matched : List Match) (rerank : Option Rerank) :
    (applyRerank matched rerank).Perm matched := by
  unfold applyRerank
  cases rerank with
  | none => exact .refl _
  | some rerank =>
    dsimp only
    split
    · exact .refl _
    · cases rerank matched with
      | none => exact .refl _
      | some order =>
        let seen := chosenIndices matched.length order
        have indices : (seen ++ (List.range matched.length).filter fun index =>
            !seen.any (decide <| · = index)).Perm (List.range matched.length) := by
          rw [perm_ext_iff_of_nodup]
          · intro index
            have within : index ∈ seen → index < matched.length := chosenIndices_lt
            simp only [mem_append, mem_filter, mem_range, Bool.not_eq_true',
              any_eq_false, decide_eq_true_eq]
            grind
          · apply List.Nodup.append
            · exact eraseDups_nodup _
            · exact nodup_range.filter _
            · intro index chosen other
              have fresh := (mem_filter.mp other).2
              simp only [Bool.not_eq_true', any_eq_false, decide_eq_true_eq] at fresh
              exact fresh index chosen rfl
          · exact nodup_range
        have moved := indices.filterMap (matched[·]?)
        rw [filterMap_append] at moved
        have rest := zipIdx_filter matched fun index => !seen.any (decide <| · = index)
        dsimp only
        rw [rest]
        exact moved.trans (.of_eq (itemsAt_range matched))

theorem rankMatches_perm (matched : List Match) (terms : List String) :
    (rankMatches workspace matched terms).Perm matched := by
  unfold rankMatches
  split
  · exact .refl _
  · exact perm_insertionSort _ _

theorem orderedMatches_perm (call : Call) (rerank : Option Rerank) :
    (orderedMatches workspace call rerank).Perm (visibleMatches workspace call) :=
  (applyRerank_perm _ rerank).trans (rankMatches_perm workspace _ _)

theorem sliceTo_whole {stop : Int} (whole : (sliceTo stop items).length = items.length) :
    sliceTo stop items = items :=
  ( take_prefix _ items).eq_of_length whole

theorem sliceTo_length {Other : Type} (stop : Int) {others : List Other}
    (same : items.length = others.length) :
    (sliceTo stop items).length = (sliceTo stop others).length := by
  rw [sliceTo, sliceTo, length_take, length_take, same]

def totalCost (matched : List Match) : Int := (matched.map matchCost).sum

theorem contextCost_nonneg (context : List (Int × String)) : 0 ≤ contextCost context := by
  induction context with
  | nil => exact Int.le_refl 0
  | cons item context ih =>
    have step : contextCost (item :: context) = item.2.length + 8 + contextCost context := rfl
    omega

theorem matchCost_pos (found : Match) : 0 < matchCost found := by
  have before := contextCost_nonneg found.before
  have after := contextCost_nonneg found.after
  unfold matchCost recordOverhead
  omega

theorem totalCost_cons (found : Match) (rest : List Match) :
    totalCost (found :: rest) = matchCost found + totalCost rest := by
  rw [totalCost, map_cons, sum_cons, totalCost]

theorem totalCost_nonneg (matched : List Match) : 0 ≤ totalCost matched := by
  induction matched with
  | nil => exact Int.le_refl 0
  | cons found rest ih =>
    have cost := matchCost_pos found
    rw [totalCost_cons]
    omega

theorem boundFrom_cut_iff (budget : Int) (matched : List Match) : ∀ used,
    (boundFrom budget used true matched).2 = true ↔
      matched ≠ [] ∧ budget < used + totalCost matched := by
  induction matched with
  | nil => simp [boundFrom]
  | cons found rest ih =>
    intro used
    have later := totalCost_nonneg rest
    rw [totalCost_cons, boundFrom]
    by_cases dear : budget < used + matchCost found
    · simp only [dear, decide_true, Bool.and_self, if_true, ne_eq, reduceCtorEq, not_false_eq_true,
        true_and, true_iff]
      omega
    · simp only [dear, decide_false, Bool.and_false, Bool.false_eq_true, if_false, ne_eq,
        reduceCtorEq, not_false_eq_true, true_and]
      rw [ih]
      cases rest with
      | nil =>
        simp only [ne_eq, not_true_eq_false, false_and, false_iff]
        have none : totalCost [] = 0 := rfl
        omega
      | cons second rest =>
        simp only [ne_eq, reduceCtorEq, not_false_eq_true, true_and]
        omega

theorem boundFrom_whole {budget : Int} : ∀ {used : Int} {kept : Bool},
    (boundFrom budget used kept matched).2 = false → (boundFrom budget used kept matched).1 = matched := by
  induction matched with
  | nil => exact fun _ => rfl
  | cons found rest ih =>
    intro used kept whole
    rw [boundFrom] at whole ⊢
    split at whole
    · cases whole
    · rename_i fits
      rw [if_neg fits]
      exact congrArg (found :: ·) (ih whole)

theorem boundMatches_cut_iff (matched : List Match) (budget : Int) :
    (boundMatches matched budget).2 = true ↔
      0 < budget ∧ 2 ≤ matched.length ∧ budget < totalCost matched := by
  unfold boundMatches
  split
  · simp only [Bool.false_eq_true, false_iff]
    omega
  · rename_i positive
    cases matched with
    | nil => simp [boundFrom]
    | cons found rest =>
      simp only [boundFrom, Bool.false_and, Bool.false_eq_true, if_false]
      rw [boundFrom_cut_iff, totalCost_cons, Int.zero_add]
      cases rest with
      | nil => simp
      | cons second rest =>
        simp only [ne_eq, reduceCtorEq, not_false_eq_true, true_and, length_cons]
        omega

theorem boundMatches_whole {budget : Int} (whole : (boundMatches matched budget).2 = false) :
    (boundMatches matched budget).1 = matched := by
  unfold boundMatches at whole ⊢
  split
  · rfl
  · rename_i positive
    rw [if_neg positive] at whole
    exact boundFrom_whole whole

def Match.place (found : Match) : String × Int := (found.path, found.line)

structure Collects (seen : List Match) (unique : OrderedDict (String × Int) Match) : Prop where
  entries : ∀ entry ∈ unique.entries, entry.2 ∈ seen ∧ entry.2.place = entry.1
  places : ∀ found ∈ seen, found.place ∈ unique.keys

theorem Collects.step {seen : List Match} {unique : OrderedDict (String × Int) Match}
    (collects : Collects seen unique) (found : Match) :
    Collects (seen ++ [found]) (unique.setDefault found.place found) := by
  rw [OrderedDict.setDefault]
  split
  · rename_i known
    constructor
    · intro entry member
      obtain ⟨read, place⟩ := collects.entries entry member
      exact ⟨mem_append_left _ read, place⟩
    · intro other member
      rcases mem_append.mp member with earlier | last
      · exact collects.places other earlier
      · rw [mem_singleton.mp last]
        exact known
  · constructor
    · intro entry member
      rcases OrderedDict.mem_set.mp member with same | ⟨old, -⟩
      · subst same
        exact ⟨mem_append_right _ (mem_singleton_self _), rfl⟩
      · obtain ⟨read, place⟩ := collects.entries entry old
        exact ⟨mem_append_left _ read, place⟩
    · intro other member
      rw [OrderedDict.mem_keys_set]
      rcases mem_append.mp member with earlier | last
      · exact .inr (collects.places other earlier)
      · rw [mem_singleton.mp last]
        exact .inl rfl

theorem collects_fold (matched : List Match) : ∀ {seen : List Match}
    {unique : OrderedDict (String × Int) Match}, Collects seen unique →
      Collects (seen ++ matched)
        (matched.foldl (fun unique found => unique.setDefault found.place found) unique) := by
  induction matched with
  | nil =>
    intro seen unique collects
    rwa [append_nil]
  | cons found rest ih =>
    intro seen unique collects
    have later := ih (collects.step found)
    rwa [append_assoc] at later

theorem collects_all (matched : List Match) : Collects matched
    (matched.foldl (fun unique found => unique.setDefault found.place found) .empty) :=
  collects_fold matched ⟨fun _ none => (not_mem_nil none).elim,
    fun _ none => (not_mem_nil none).elim⟩

theorem mem_of_mem_unique {found : Match} (member : found ∈ uniqueMatches matched) :
    found ∈ matched := by
  obtain ⟨entry, listed, rfl⟩ := mem_map.mp member
  exact ((collects_all matched).entries entry listed).1

theorem exists_unique_place {found : Match} (member : found ∈ matched) :
    ∃ kept ∈ uniqueMatches matched, kept.place = found.place := by
  obtain ⟨entry, listed, place⟩ := mem_map.mp ((collects_all matched).places found member)
  exact ⟨entry.2, mem_map_of_mem listed,
    ((collects_all matched).entries entry listed).2.trans place⟩

theorem unique_places (matched : List Match) : ((uniqueMatches matched).map Match.place).Nodup := by
  have distinct := (matched.foldl (fun unique found => unique.setDefault found.place found)
    (OrderedDict.empty : OrderedDict (String × Int) Match)).distinct
  have same : (uniqueMatches matched).map Match.place =
      (matched.foldl (fun unique found => unique.setDefault found.place found)
        (OrderedDict.empty : OrderedDict (String × Int) Match)).entries.map Prod.fst := by
    rw [uniqueMatches, OrderedDict.values, map_map]
    apply map_congr_left
    intro entry listed
    exact ((collects_all matched).entries entry listed).2
  rw [same]
  exact distinct

end SourceLens.WorkspaceSearch
