import SourceLens.GatewayBudget

/-! The tree of runs a budget is shared by: its root, its levels and its usage. -/

namespace SourceLens.GatewayBudget

open List

variable {runs : List (Run × Option Run)} {root run : Run}

/-- A run table as it grows: every run but the root comes after its parent. -/
inductive Grown (root : Run) : List (Run × Option Run) → Prop
  | start : Grown root [(root, none)]
  | spawn {runs : List (Run × Option Run)} (run parent : Run) (before : Grown root runs)
      (fresh : run ∉ runs.map Prod.fst) (known : parent ∈ runs.map Prod.fst) :
      Grown root (runs ++ [(run, some parent)])

theorem lookup_append_known (runs more : List (Run × Option Run)) (run : Run)
    (known : run ∈ runs.map Prod.fst) : (runs ++ more).lookup run = runs.lookup run := by
  have found : (runs.lookup run).isSome = true := by
    rw [lookup_isSome_iff]
    rcases mem_map.mp known with ⟨entry, member, rfl⟩
    exact ⟨entry, member, by simp⟩
  rw [lookup_append, Option.or_of_isSome found]

theorem lookup_other (runs : List (Run × Option Run)) (last run : Run) (parent : Option Run)
    (other : run ≠ last) : (runs ++ [(last, parent)]).lookup run = runs.lookup run := by
  have single : [(last, parent)].lookup run = none := by
    rw [lookup_cons, beq_false_of_ne other]
    rfl
  rw [lookup_append, single, Option.or_none]

theorem lookup_fresh (runs : List (Run × Option Run)) (last : Run) (parent : Option Run)
    (fresh : last ∉ runs.map Prod.fst) : (runs ++ [(last, parent)]).lookup last = some parent := by
  have absent : runs.lookup last = none := by
    rw [lookup_eq_none_iff]
    intro entry member
    have other : entry.1 ≠ last := fun same => fresh (mem_map.mpr ⟨entry, member, same⟩)
    simpa using fun same => other same.symm
  simp [lookup_append, absent]

theorem Grown.root_lookup (grown : Grown root runs) :
    root ∈ runs.map Prod.fst ∧ runs.lookup root = some none := by
  induction grown with
  | start => simp
  | spawn run parent before fresh known ih =>
    refine ⟨by simp [ih.1], ?_⟩
    rw [lookup_append_known _ _ root ih.1, ih.2]

theorem Grown.parent_known (grown : Grown root runs) :
    ∀ run parent, runs.lookup run = some (some parent) → parent ∈ runs.map Prod.fst := by
  induction grown with
  | start =>
    intro run parent found
    simp only [lookup_cons, lookup_nil] at found
    split at found <;> simp at found
  | @spawn runs last above before fresh known ih =>
    intro run parent found
    rw [map_append, mem_append]
    by_cases same : run = last
    · rw [same, lookup_fresh runs last _ fresh] at found
      cases found
      exact Or.inl known
    · rw [lookup_other runs last run _ same] at found
      exact Or.inl (ih run parent found)

theorem climb_append (grown : Grown root runs) (more : List (Run × Option Run)) (fuel : Nat)
    (run : Run) (known : run ∈ runs.map Prod.fst) :
    climb (runs ++ more) fuel run = climb runs fuel run := by
  induction fuel generalizing run with
  | zero => rfl
  | succ fuel ih =>
    rw [climb, climb, lookup_append_known runs more run known]
    split
    · rename_i parent found
      exact ih parent (grown.parent_known run parent found)
    · rfl

theorem climb_more (top : runs.lookup root = some none) (fuel : Nat) (run : Run)
    (reached : climb runs fuel run = root) : climb runs (fuel + 1) run = root := by
  induction fuel generalizing run with
  | zero =>
    rw [climb] at reached
    rw [climb, reached, top]
  | succ fuel ih =>
    rw [climb] at reached
    rw [climb]
    split at reached
    · rename_i parent found
      exact ih parent reached
    · exact reached

theorem climb_root (grown : Grown root runs) :
    ∀ run ∈ runs.map Prod.fst, climb runs runs.length run = root := by
  induction grown with
  | start =>
    intro run member
    have same : run = root := by simpa using member
    subst same
    simp [climb]
  | @spawn runs last above before fresh known ih =>
    intro run member
    have old : ∀ r ∈ runs.map Prod.fst,
        climb (runs ++ [(last, some above)]) runs.length r = root := by
      intro r there
      rw [climb_append before _ _ r there, ih r there]
    have size : (runs ++ [(last, some above)]).length = runs.length + 1 := by simp
    have top : (runs ++ [(last, some above)]).lookup root = some none :=
      (Grown.spawn last above before fresh known).root_lookup.2
    rw [size]
    rw [map_append, mem_append] at member
    rcases member with there | new
    · exact climb_more top _ run (old run there)
    · have same : run = last := by simpa using new
      rw [same, climb, lookup_fresh runs last _ fresh]
      exact old above known

inductive Below (runs : List (Run × Option Run)) : Run → Run → Prop
  | child {parent run : Run} (entry : (run, some parent) ∈ runs) : Below runs parent run
  | under {parent middle run : Run} (entry : (middle, some parent) ∈ runs)
      (later : Below runs middle run) : Below runs parent run

theorem Below.grow (more : List (Run × Option Run)) {above : Run} (below : Below runs above run) :
    Below (runs ++ more) above run := by
  induction below with
  | child entry => exact .child (mem_append_left _ entry)
  | under entry later ih => exact .under (mem_append_left _ entry) ih

theorem Below.snoc {above middle : Run} (below : Below runs above middle)
    (entry : (run, some middle) ∈ runs) : Below runs above run := by
  induction below with
  | child first => exact .under first (.child entry)
  | under first later ih => exact .under first (ih entry)

theorem Grown.below_root (grown : Grown root runs) :
    ∀ run ∈ runs.map Prod.fst, run = root ∨ Below runs root run := by
  induction grown with
  | start =>
    intro run member
    exact Or.inl (by simpa using member)
  | @spawn runs last above before fresh known ih =>
    intro run member
    rw [map_append, mem_append] at member
    have entry : (last, some above) ∈ runs ++ [(last, some above)] := by simp
    rcases member with there | new
    · rcases ih run there with same | below
      · exact Or.inl same
      · exact Or.inr (below.grow _)
    · have same : run = last := by simpa using new
      rw [same]
      rcases ih above known with top | below
      · rw [top] at entry ⊢
        exact Or.inr (.child entry)
      · exact Or.inr ((below.grow _).snoc entry)

def Covered (runs : List (Run × Option Run)) (frontier usageIds : List Run) (run : Run) : Prop :=
  run ∈ usageIds ∨ ∃ above ∈ frontier, Below runs above run

theorem Covered.grow (more : List (Run × Option Run)) {frontier usageIds : List Run}
    (covered : Covered runs frontier usageIds run) :
    Covered (runs ++ more) frontier usageIds run := by
  rcases covered with counted | ⟨above, member, below⟩
  · exact Or.inl counted
  · exact Or.inr ⟨above, member, below.grow more⟩

theorem mem_children (runs : List (Run × Option Run)) (frontier : List Run) (parent run : Run)
    (entry : (run, some parent) ∈ runs) (member : parent ∈ frontier) :
    run ∈ children runs frontier :=
  mem_map.mpr ⟨_, mem_filter.mpr ⟨entry, by simpa using member⟩, rfl⟩

theorem Covered.level {frontier usageIds : List Run} (covered : Covered runs frontier usageIds run) :
    Covered runs (children runs frontier) (usageIds ++ children runs frontier) run := by
  rcases covered with counted | ⟨above, member, below⟩
  · exact Or.inl (mem_append_left _ counted)
  · cases below with
    | child entry =>
      exact Or.inl (mem_append_right _ (mem_children runs frontier above run entry member))
    | @under _ middle _ entry later =>
      exact Or.inr ⟨middle, mem_children runs frontier above middle entry member, later⟩

theorem used_eq_recorded (usage : List (Run × Nat)) (usageIds : List Run)
    (all : ∀ entry ∈ usage, entry.1 ∈ usageIds) : used usage usageIds = recorded usage := by
  have whole : usage.filter (fun entry => decide (entry.1 ∈ usageIds)) = usage := by
    rw [filter_eq_self]
    intro entry member
    simpa using all entry member
  rw [used, whole, recorded]

@[simp] theorem recorded_append (usage : List (Run × Nat)) (run : Run) (tokens : Nat) :
    recorded (usage ++ [(run, tokens)]) = recorded usage + tokens := by
  simp [recorded]

end SourceLens.GatewayBudget
