import SourceLens.PluginEvidence

/-! When the combined evidence and the policy of Plugin extensions are the same in every order of the
extensions. -/

namespace SourceLens.PluginExtensions

open List Option
open StickyLast (Opened)

variable {Route Tool : Type} {extensions order : List (AgentExtension Route Tool)}
  {combined : Combined}

variable {key : String} {value : Json} {route : Route} {tools : List Tool}
  {extension : AgentExtension Route Tool} {original : Finset String}

def PartAlike : Part → Part → Prop
  | .value left, .value right => Json.equal left right = true
  | .payloads left, .payloads right => payloadAgreement.AlikeAt left right
  | _, _ => False

def Alike : Except Failure Combined → Except Failure Combined → Prop
  | .ok left, .ok right => ∀ key, Option.Rel PartAlike (left.get? key) (right.get? key)
  | .error _, .error _ => True
  | _, _ => False

def KeepsRoute (extensions : List (AgentExtension Route Tool)) (route : Route) (tools : List Tool) : Prop :=
  ∀ extension ∈ extensions, ∀ policy, extension.executionPolicy route tools = some policy →
    policy.route = route

structure OrderFree (name : Tool → String) (extensions : List (AgentExtension Route Tool)) : Prop where
  evidence : ∀ order : List (AgentExtension Route Tool), order.Perm extensions →
    Alike (evidence order) (evidence extensions)
  levels : ∀ order : List (AgentExtension Route Tool), order.Perm extensions → ∀ combined,
    PluginExtensions.evidence order = .ok combined → ∀ key ∈ completenessKeys,
      incomplete ∈ levelsAt extensions key ∨ .str "unverified" ∈ levelsAt extensions key →
        combined.get? key ≠ some (.value (.str "complete"))
  policy : ∀ order : List (AgentExtension Route Tool), order.Perm extensions → ∀ route tools,
    KeepsRoute extensions route tools →
      (applyPolicy name route tools order).toOption = (applyPolicy name route tools extensions).toOption

def Invalid (extensions : List (AgentExtension Route Tool)) (key : String) : Prop :=
  ∃ value ∈ levelsAt extensions key, isLevel value = false

/-- No invalid level is reported, and a key with both other levels has an incomplete one. -/
def Settled (extensions : List (AgentExtension Route Tool)) : Prop :=
  ∀ key ∈ completenessKeys, ¬Invalid extensions key ∧
    (.str "complete" ∈ levelsAt extensions key → .str "unverified" ∈ levelsAt extensions key →
      incomplete ∈ levelsAt extensions key)

/-- Each incomplete level comes with an invalid one under another key. -/
def Crossed (extensions : List (AgentExtension Route Tool)) : Prop :=
  ∀ extension ∈ extensions, ∀ key ∈ completenessKeys,
    incomplete ∈ levelsAt [extension] key → ∃ other ∈ completenessKeys, Invalid [extension] other

inductive Rejected (extensions : List (AgentExtension Route Tool)) : Prop
  | malformed (extension : AgentExtension Route Tool) (listed : extension ∈ extensions)
      (bad : ¬WellFormed extension.evidence)
  | conflict (key : String) (payload : key ∈ payloadKeys)
      (differ : ¬(payloadsAt extensions key).Pairwise payloadAgreement.Compatible)
  | invalid (key : String) (level : key ∈ completenessKeys) (bad : Invalid extensions key)
      (complete : incomplete ∉ levelsAt extensions key)
  | crossed (bad : ∀ key ∈ completenessKeys, Invalid extensions key) (crossed : Crossed extensions)

theorem levelsAt_perm (permuted : order.Perm extensions) (key : String) :
    (levelsAt order key).Perm (levelsAt extensions key) := permuted.filterMap _

theorem payloadsAt_perm (permuted : order.Perm extensions) (key : String) :
    (payloadsAt order key).Perm (payloadsAt extensions key) := permuted.flatMap_right _

theorem agree_perm (permuted : order.Perm extensions) (key : String) :
    (payloadsAt order key).Pairwise payloadAgreement.Compatible ↔
      (payloadsAt extensions key).Pairwise payloadAgreement.Compatible :=
  (payloadsAt_perm permuted key).pairwise_iff (Std.Symm.symm _ _)

theorem levelsAt_cons (extension : AgentExtension Route Tool) (key : String) :
    levelsAt (extension :: extensions) key = levelsAt [extension] key ++ levelsAt extensions key := by
  rw [levelsAt, levelsAt, levelsAt, ← filterMap_append]
  rfl

theorem levelsAt_single (extension : AgentExtension Route Tool) (key : String) :
    levelsAt [extension] key = (extension.evidence.bind (·.get? key)).toList := by
  rw [levelsAt, filterMap_cons]
  cases extension.evidence.bind (·.get? key) <;> rfl

theorem opened_single {values : List Json}
    (opened : Opened incomplete isLevel (levelsAt [extension] key ++ values)) :
    ∀ value ∈ levelsAt [extension] key, isLevel value = true := by
  rw [levelsAt_single] at opened ⊢
  cases told : extension.evidence.bind (·.get? key) with
  | none => simp
  | some value =>
    intro other member
    obtain rfl := Option.some.inj (mem_toList.mp member)
    by_cases same : value = incomplete
    · rw [same]
      exact isLevel_incomplete
    · rw [told] at opened
      exact ((StickyLast.opened_cons same).mp opened).1

theorem opened_rest {values : List Json}
    (opened : Opened incomplete isLevel (levelsAt [extension] key ++ values))
    (other : incomplete ∉ levelsAt [extension] key) : Opened incomplete isLevel values := by
  rw [levelsAt_single] at opened other
  cases told : extension.evidence.bind (·.get? key) with
  | none =>
    rw [told] at opened
    exact opened
  | some value =>
    rw [told] at opened other
    have apart : value ≠ incomplete := fun same => other (by simp [same])
    exact ((StickyLast.opened_cons apart).mp opened).2

theorem not_crossed (opened : ∀ key ∈ completenessKeys, Opened incomplete isLevel (levelsAt order key))
    (bad : ∀ key ∈ completenessKeys, Invalid order key) : ¬Crossed order := by
  intro crossed
  induction order with
  | nil =>
    obtain ⟨value, member, -⟩ := bad "evidence_completeness" (by simp [completenessKeys])
    cases member
  | cons first rest ih =>
    have fits (key : String) (level : key ∈ completenessKeys) :
        ∀ value ∈ levelsAt [first] key, isLevel value = true :=
      opened_single (levelsAt_cons first key ▸ opened key level)
    by_cases told : ∃ key ∈ completenessKeys, incomplete ∈ levelsAt [first] key
    · obtain ⟨key, level, member⟩ := told
      obtain ⟨other, known, value, listed, invalid⟩ := crossed first mem_cons_self key level member
      rw [fits other known value listed] at invalid
      cases invalid
    · have silent (key : String) (level : key ∈ completenessKeys) :
          incomplete ∉ levelsAt [first] key := fun member => told ⟨key, level, member⟩
      apply ih
      · intro key level
        exact opened_rest (levelsAt_cons first key ▸ opened key level) (silent key level)
      · intro key level
        obtain ⟨value, member, invalid⟩ := bad key level
        rw [levelsAt_cons, mem_append] at member
        rcases member with here | later
        · rw [fits key level value here] at invalid
          cases invalid
        · exact ⟨value, later, invalid⟩
      · intro extension member
        exact crossed extension (mem_cons_of_mem _ member)

theorem Rejected.perm (rejected : Rejected extensions) (permuted : order.Perm extensions) :
    Rejected order := by
  cases rejected with
  | malformed extension listed bad => exact .malformed extension (permuted.mem_iff.mpr listed) bad
  | conflict key payload differ => exact .conflict key payload (mt (agree_perm permuted key).mp differ)
  | invalid key level bad complete =>
    obtain ⟨value, member, invalid⟩ := bad
    have levels := levelsAt_perm permuted key
    exact .invalid key level ⟨value, levels.mem_iff.mpr member, invalid⟩ (mt levels.mem_iff.mp complete)
  | crossed bad crossed =>
    refine .crossed ?_ fun extension member => crossed extension (permuted.mem_iff.mp member)
    intro key level
    obtain ⟨value, member, invalid⟩ := bad key level
    exact ⟨value, (levelsAt_perm permuted key).mem_iff.mpr member, invalid⟩

theorem Rejected.not_accepted (rejected : Rejected extensions) : ¬Accepted extensions := by
  intro accepted
  cases rejected with
  | malformed extension listed bad => exact bad (accepted.wellFormed extension listed)
  | conflict key payload differ => exact differ (accepted.agree key payload)
  | invalid key level bad complete =>
    obtain ⟨value, member, invalid⟩ := bad
    rw [(accepted.opened key level).valid_of_missing complete value member] at invalid
    cases invalid
  | crossed bad crossed => exact not_crossed accepted.opened bad crossed

theorem exists_first (member : value ∈ levelsAt extensions key) :
    ∃ first rest, (first :: rest).Perm extensions ∧ levelsAt [first] key = [value] := by
  obtain ⟨first, listed, told⟩ := mem_filterMap.mp member
  obtain ⟨before, after, rfl⟩ := append_of_mem listed
  exact ⟨first, before ++ after, perm_middle.symm, by rw [levelsAt_single, told]; rfl⟩

theorem opened_of_first {first : AgentExtension Route Tool}
    (told : levelsAt [first] key = [incomplete]) :
    Opened incomplete isLevel (levelsAt (first :: extensions) key) := by
  rw [levelsAt_cons, told]
  exact StickyLast.opened_cons_sticky

theorem valid_of_not_invalid (valid : ¬Invalid extensions key) :
    ∀ value ∈ levelsAt extensions key, isLevel value = true := by
  intro value member
  by_contra invalid
  exact valid ⟨value, member, by simpa using invalid⟩

theorem opened_of_not_invalid (valid : ¬Invalid extensions key) (permuted : order.Perm extensions) :
    Opened incomplete isLevel (levelsAt order key) :=
  StickyLast.opened_of_valid fun value member =>
    valid_of_not_invalid valid value ((levelsAt_perm permuted key).mem_iff.mp member)

theorem exists_opened_both {first : AgentExtension Route Tool} {one other : String}
    (permuted : (first :: order).Perm extensions) (told : levelsAt [first] one = [incomplete])
    (clean : ¬Invalid [first] other) (complete : incomplete ∈ levelsAt extensions other) :
    ∃ order : List (AgentExtension Route Tool), order.Perm extensions ∧
      Opened incomplete isLevel (levelsAt order one) ∧
        Opened incomplete isLevel (levelsAt order other) := by
  rw [← (levelsAt_perm permuted other).mem_iff, levelsAt_cons, mem_append] at complete
  rcases complete with here | later
  · refine ⟨first :: order, permuted, opened_of_first told, opened_of_first ?_⟩
    rw [levelsAt_single] at here ⊢
    rw [mem_toList.mp here]
    rfl
  · obtain ⟨second, rest, others, opens⟩ := exists_first later
    refine ⟨first :: second :: rest, (others.cons first).trans permuted, opened_of_first told, ?_⟩
    rw [levelsAt_cons]
    exact StickyLast.opened_append (valid_of_not_invalid clean) (opened_of_first opens)

theorem exists_opened
    (completes : ∀ key ∈ completenessKeys, Invalid extensions key → incomplete ∈ levelsAt extensions key)
    (apart : (∀ key ∈ completenessKeys, Invalid extensions key) → ¬Crossed extensions) :
    ∃ order : List (AgentExtension Route Tool), order.Perm extensions ∧
      ∀ key ∈ completenessKeys, Opened incomplete isLevel (levelsAt order key) := by
  simp only [completenessKeys, forall_mem_cons, not_mem_nil, false_implies, implies_true,
    and_true] at completes apart ⊢
  by_cases evidence : Invalid extensions "evidence_completeness"
  · have complete := completes.1 evidence
    by_cases review : Invalid extensions "review_completeness"
    · have crossed := apart ⟨evidence, review⟩
      unfold Crossed at crossed
      push Not at crossed
      obtain ⟨first, listed, key, level, here, clean⟩ := crossed
      obtain ⟨before, after, rfl⟩ := append_of_mem listed
      have permuted : (first :: (before ++ after)).Perm (before ++ first :: after) :=
        perm_middle.symm
      have told : levelsAt [first] key = [incomplete] := by
        rw [levelsAt_single] at here ⊢
        rw [mem_toList.mp here]
        rfl
      simp only [completenessKeys, mem_cons, not_mem_nil, or_false, forall_eq_or_imp,
        forall_eq] at level clean
      rcases level with rfl | rfl
      · exact exists_opened_both permuted told clean.2 (completes.2 review)
      · obtain ⟨order, same, opened, other⟩ := exists_opened_both permuted told clean.1 complete
        exact ⟨order, same, other, opened⟩
    · obtain ⟨first, rest, permuted, told⟩ := exists_first complete
      exact ⟨first :: rest, permuted, opened_of_first told, opened_of_not_invalid review permuted⟩
  · by_cases review : Invalid extensions "review_completeness"
    · obtain ⟨first, rest, permuted, told⟩ := exists_first (completes.2 review)
      exact ⟨first :: rest, permuted, opened_of_not_invalid evidence permuted, opened_of_first told⟩
    · exact ⟨extensions, .refl _, opened_of_not_invalid evidence (.refl _),
        opened_of_not_invalid review (.refl _)⟩

theorem exists_accepted (admissible : ¬Rejected extensions) :
    ∃ order : List (AgentExtension Route Tool), order.Perm extensions ∧ Accepted order := by
  obtain ⟨order, permuted, opened⟩ := exists_opened
    (fun key level bad => by
      by_contra complete
      exact admissible (.invalid key level bad complete))
    (fun bad crossed => admissible (.crossed bad crossed))
  refine ⟨order, permuted, ?_, ?_, opened⟩
  · intro extension member
    by_contra bad
    exact admissible (.malformed extension (permuted.mem_iff.mp member) bad)
  · intro key payload
    rw [agree_perm permuted]
    by_contra differ
    exact admissible (.conflict key payload differ)

def narrow (allowed : Finset String) (names : Option (List String)) : Finset String :=
  names.elim allowed fun names => allowed ∩ names.toFinset

theorem narrow_right_comm (allowed : Finset String) (names others : Option (List String)) :
    narrow (narrow allowed names) others = narrow (narrow allowed others) names := by
  cases names with
  | none => rfl
  | some names =>
    cases others with
    | none => rfl
    | some others => exact Finset.inter_right_comm allowed names.toFinset others.toFinset

/-- What an extension's policy for the route leaves of the constraints. -/
def constrain (original : Finset String) (route : Route) (tools : List Tool)
    (constraints : Constraints Route) (extension : AgentExtension Route Tool) :
    Option (Constraints Route) :=
  ((extension.executionPolicy route tools).filter fun policy =>
    policy.allowedToolNames.all fun names => decide (names.toFinset ⊆ original)).map fun policy =>
      ⟨route, narrow constraints.allowed policy.allowedToolNames,
        constraints.subagentsAllowed && policy.subagentsAllowed,
        constraints.requiredSources ∪ policy.requiredSources.toFinset⟩

theorem constrain_right_comm (original : Finset String) (route : Route) (tools : List Tool)
    (constraints : Constraints Route) (one other : AgentExtension Route Tool) :
    ((constrain original route tools constraints one).bind fun left =>
        constrain original route tools left other) =
      (constrain original route tools constraints other).bind fun left =>
        constrain original route tools left one := by
  unfold constrain
  cases (one.executionPolicy route tools).filter _ with
  | none => cases (other.executionPolicy route tools).filter _ <;> rfl
  | some policy =>
    cases (other.executionPolicy route tools).filter _ with
    | none => rfl
    | some second =>
      simp only [map_some, bind_some, Option.some.injEq, Constraints.mk.injEq, true_and]
      exact ⟨narrow_right_comm _ _ _, Bool.and_right_comm _ _ _, Finset.union_right_comm _ _ _⟩

theorem addPolicy_toOption {constraints : Constraints Route}
    (selected : constraints.selected = route) (keeps : KeepsRoute [extension] route tools) :
    (addPolicy original tools constraints extension).toOption =
      constrain original route tools constraints extension := by
  rw [addPolicy, constrain, selected]
  cases told : extension.executionPolicy route tools with
  | none => rfl
  | some policy =>
    have same := keeps extension (mem_singleton_self _) policy told
    cases fits : policy.allowedToolNames.all fun names => decide (names.toFinset ⊆ original) with
    | true => simp [Option.filter, fits, same, narrow, Except.toOption]
    | false => simp [Option.filter, fits, Except.toOption]

theorem addPolicies_toOption {constraints : Constraints Route}
    (selected : constraints.selected = route) (keeps : KeepsRoute extensions route tools) :
    (extensions.foldlM (addPolicy original tools) constraints).toOption =
      extensions.foldlM (constrain original route tools) constraints := by
  induction extensions generalizing constraints with
  | nil => rfl
  | cons first rest ih =>
    have now : (addPolicy original tools constraints first).toOption =
        constrain original route tools constraints first :=
      addPolicy_toOption selected fun extension member =>
        keeps extension (mem_singleton.mp member ▸ mem_cons_self)
    rw [foldlM_cons, foldlM_cons, ← now]
    cases added : addPolicy original tools constraints first with
    | error failure => rfl
    | ok next =>
      rw [added] at now
      obtain ⟨policy, -, made⟩ := map_eq_some_iff.mp now.symm
      exact ih (by rw [← made]) fun extension member =>
        keeps extension (mem_cons_of_mem _ member)

theorem constrain_perm (permuted : order.Perm extensions) (constraints : Constraints Route) :
    order.foldlM (constrain original route tools) constraints =
      extensions.foldlM (constrain original route tools) constraints := by
  induction permuted generalizing constraints with
  | nil => rfl
  | cons first _ ih =>
    rw [foldlM_cons, foldlM_cons]
    exact congrArg _ (funext ih)
  | swap one other rest =>
    have swapped := constrain_right_comm original route tools constraints other one
    simp only [foldlM_cons, bind_eq_bind, ← bind_assoc, swapped]
  | trans _ _ first second => rw [first, second]

theorem applyPolicy_perm (name : Tool → String) (permuted : order.Perm extensions)
    (keeps : KeepsRoute extensions route tools) : (applyPolicy name route tools order).toOption =
      (applyPolicy name route tools extensions).toOption := by
  have toOption_map {Value Other : Type} (change : Value → Other) (outcome : Except Failure Value) :
      (outcome.map change).toOption = outcome.toOption.map change := by
    cases outcome <;> rfl
  have keeping : KeepsRoute order route tools :=
    fun extension member => keeps extension (permuted.mem_iff.mp member)
  unfold applyPolicy
  rw [toOption_map, toOption_map, addPolicies_toOption rfl keeping, addPolicies_toOption rfl keeps,
    constrain_perm permuted]

theorem Alike.isOk {left right : Except Failure Combined} (alike : Alike left right) :
    left.isOk = right.isOk := by
  cases left with
  | error => cases right with
    | error => rfl
    | ok => cases alike
  | ok => cases right with
    | error => cases alike
    | ok => rfl

theorem alike_of_failed {left right : Except Failure Combined} (first : ¬left.isOk = true)
    (second : ¬right.isOk = true) : Alike left right := by
  cases left with
  | ok => exact absurd rfl first
  | error => cases right with
    | ok => exact absurd rfl second
    | error => trivial

theorem isLevel_iff : isLevel value = true ↔ ∃ level ∈ levels, value = .str level := by
  cases value with
  | str level => by_cases known : level ∈ levels <;> simp [isLevel, checkLevel, known, Except.isOk, Except.toBool]
  | _ => simp [isLevel, checkLevel, Except.isOk, Except.toBool]

theorem exists_last (member : value ∈ levelsAt extensions key) :
    ∃ order : List (AgentExtension Route Tool), order.Perm extensions ∧
      (levelsAt order key).getLast? = some value := by
  obtain ⟨first, rest, permuted, told⟩ := exists_first member
  refine ⟨rest ++ [first], (perm_append_singleton first rest).trans permuted, ?_⟩
  have parts : levelsAt (rest ++ [first]) key = levelsAt rest key ++ levelsAt [first] key :=
    filterMap_append
  rw [parts, told, List.getLast?_concat]

theorem last_level (level : key ∈ completenessKeys)
    (complete : incomplete ∉ levelsAt extensions key) (permuted : order.Perm extensions)
    (last : (levelsAt order key).getLast? = some value) (ran : evidence order = .ok combined) :
    combined.get? key = some (.value value) := by
  have kinds := (evidence_combines ran).levels key level
  rw [if_neg (mt (levelsAt_perm permuted key).mem_iff.mp complete), last] at kinds
  exact kinds

theorem settled_of_alike (accepted : Accepted extensions)
    (same : ∀ order : List (AgentExtension Route Tool), order.Perm extensions →
      Alike (evidence order) (evidence extensions)) : Settled extensions := by
  have all (order : List (AgentExtension Route Tool)) (permuted : order.Perm extensions) :
      Accepted order := by
    rw [← evidence_isOk_iff, (same order permuted).isOk, evidence_isOk_iff]
    exact accepted
  intro key level
  constructor
  · intro bad
    obtain ⟨value, member, invalid⟩ := bad
    obtain ⟨first, rest, permuted, told⟩ := exists_first member
    have opened := (all _ permuted).opened key level
    rw [levelsAt_cons] at opened
    rw [opened_single opened value (told ▸ mem_singleton_self _)] at invalid
    cases invalid
  · intro complete unverified
    by_contra missing
    have value (level' : Json) (member : level' ∈ levelsAt extensions key) :
        ∃ combined, evidence extensions = .ok combined ∧
          Option.Rel PartAlike (some (.value level')) (combined.get? key) := by
      obtain ⟨order, permuted, last⟩ := exists_last member
      have alike := same order permuted
      cases ran : evidence order with
      | error failure =>
        have ok := evidence_isOk_iff.mpr (all order permuted)
        rw [ran] at ok
        cases ok
      | ok combined =>
        rw [ran] at alike
        cases whole : evidence extensions with
        | error failure =>
          rw [whole] at alike
          cases alike
        | ok other =>
          rw [whole] at alike
          have at_key := alike key
          rw [last_level level missing permuted last ran] at at_key
          exact ⟨other, rfl, at_key⟩
    obtain ⟨combined, ran, first⟩ := value _ complete
    obtain ⟨other, again, second⟩ := value _ unverified
    rw [ran] at again
    obtain rfl := Except.ok.inj again
    cases held : combined.get? key with
    | none =>
      rw [held] at first
      cases first
    | some left =>
      rw [held] at first second
      cases left with
      | payloads payloads =>
        cases first with
        | some alike => cases alike
      | value value =>
        cases first with
        | some one => cases second with
          | some two =>
            have one := of_decide_eq_true one
            have two := of_decide_eq_true two
            have levels := one.trans two.symm
            simp [Json.canonical] at levels

theorem Settled.perm (settled : Settled extensions) (permuted : order.Perm extensions) : Settled order := by
  intro key level
  have levels := levelsAt_perm permuted key
  obtain ⟨valid, divided⟩ := settled key level
  constructor
  · intro bad
    obtain ⟨value, member, invalid⟩ := bad
    exact valid ⟨value, levels.mem_iff.mp member, invalid⟩
  · intro complete unverified
    rw [levels.mem_iff] at complete unverified ⊢
    exact divided complete unverified

theorem Settled.accepted_perm (settled : Settled extensions) (permuted : order.Perm extensions)
    (accepted : Accepted extensions) : Accepted order where
  wellFormed extension member := accepted.wellFormed extension (permuted.mem_iff.mp member)
  agree key payload := (agree_perm permuted key).mpr (accepted.agree key payload)
  opened key level := opened_of_not_invalid (settled key level).1 permuted

theorem Settled.level_eq (settled : Settled extensions) (permuted : order.Perm extensions)
    (level : key ∈ completenessKeys) :
    (if incomplete ∈ levelsAt order key then some incomplete else (levelsAt order key).getLast?) =
      if incomplete ∈ levelsAt extensions key then some incomplete
      else (levelsAt extensions key).getLast? := by
  have perm := levelsAt_perm permuted key
  simp only [perm.mem_iff]
  split
  · rfl
  · rename_i missing
    obtain ⟨valid, divided⟩ := settled key level
    have only (value : Json) (member : value ∈ levelsAt extensions key) :
        value = .str "complete" ∨ value = .str "unverified" := by
      obtain ⟨name, known, rfl⟩ := isLevel_iff.mp (valid_of_not_invalid valid value member)
      simp only [levels, mem_cons, not_mem_nil, or_false] at known
      rcases known with rfl | rfl | rfl
      · exact .inl rfl
      · exact absurd member missing
      · exact .inr rfl
    have same (one other : Json) (first : one ∈ levelsAt extensions key)
        (second : other ∈ levelsAt extensions key) : one = other := by
      rcases only one first with rfl | rfl <;> rcases only other second with rfl | rfl
      · rfl
      · exact absurd (divided first second) missing
      · exact absurd (divided second first) missing
      · rfl
    cases left : (levelsAt order key).getLast? with
    | none =>
      rw [List.getLast?_eq_none_iff] at left
      rw [left, nil_perm] at perm
      rw [perm]
      rfl
    | some value =>
      have member := perm.mem_iff.mp (mem_of_getLast? left)
      cases right : (levelsAt extensions key).getLast? with
      | none =>
        rw [List.getLast?_eq_none_iff] at right
        rw [right] at member
        cases member
      | some other => rw [same value other member (mem_of_getLast? right)]

theorem Settled.alike (settled : Settled extensions) (permuted : order.Perm extensions) :
    Alike (evidence order) (evidence extensions) := by
  have both : Accepted order ↔ Accepted extensions :=
    ⟨(settled.perm permuted).accepted_perm permuted.symm, settled.accepted_perm permuted⟩
  rw [← evidence_isOk_iff, ← evidence_isOk_iff] at both
  cases first : evidence order with
  | error failure =>
    rw [first] at both
    exact alike_of_failed Bool.false_ne_true (mt both.mpr Bool.false_ne_true)
  | ok left =>
    cases second : evidence extensions with
    | error failure =>
      rw [first, second] at both
      cases both.mp rfl
    | ok right =>
      intro key
      have one := evidence_combines first
      have two := evidence_combines second
      by_cases payload : key ∈ payloadKeys
      · obtain ⟨merged, whole, held⟩ := one.payloads key payload
        obtain ⟨other, again, kept⟩ := two.payloads key payload
        obtain ⟨swapped, same, alike⟩ := Agreement.merge_perm (payloadsAt_perm permuted key) again
        obtain rfl := Option.some.inj (whole.symm.trans same)
        rw [held, kept, permuted.any_eq]
        split
        · exact .some alike
        · exact .none
      · by_cases level : key ∈ completenessKeys
        · rw [one.levels key level, two.levels key level, settled.level_eq permuted level]
          cases (if incomplete ∈ levelsAt extensions key then some incomplete
            else (levelsAt extensions key).getLast?) with
          | none => exact .none
          | some value => exact .some (Json.equal_refl value)
        · have unknown : key ∉ payloadKeys ++ completenessKeys := by simp [payload, level]
          rw [one.others key unknown, two.others key unknown]
          exact .none

theorem Settled.level_ne_complete (settled : Settled extensions) (permuted : order.Perm extensions)
    (ran : evidence order = .ok combined) (level : key ∈ completenessKeys)
    (told : incomplete ∈ levelsAt extensions key ∨ .str "unverified" ∈ levelsAt extensions key) :
    combined.get? key ≠ some (.value (.str "complete")) := by
  rw [(evidence_combines ran).levels key level, settled.level_eq permuted level]
  split
  · simp [incomplete]
  · rename_i missing
    intro last
    obtain ⟨value, left, same⟩ := map_eq_some_iff.mp last
    cases same
    exact missing ((settled key level).2 (mem_of_getLast? left) (told.resolve_left missing))

/-- The combined evidence and the policy do not depend on the order of the extensions exactly when
their levels are settled, or when no order is accepted. -/
theorem orderFree_iff (name : Tool → String) (extensions : List (AgentExtension Route Tool)) :
    OrderFree name extensions ↔ Settled extensions ∨ Rejected extensions := by
  constructor
  · intro free
    by_cases rejected : Rejected extensions
    · exact .inr rejected
    · obtain ⟨order, permuted, accepted⟩ := exists_accepted rejected
      have ok := (free.evidence order permuted).isOk
      rw [evidence_isOk_iff.mpr accepted] at ok
      exact .inl (settled_of_alike (evidence_isOk_iff.mp ok.symm) free.evidence)
  · intro condition
    refine ⟨?_, ?_, fun order permuted route tools keeps => applyPolicy_perm name permuted keeps⟩
    · intro order permuted
      rcases condition with settled | rejected
      · exact settled.alike permuted
      · exact alike_of_failed (mt evidence_isOk_iff.mp (rejected.perm permuted).not_accepted)
          (mt evidence_isOk_iff.mp rejected.not_accepted)
    · intro order permuted combined ran key level told
      rcases condition with settled | rejected
      · exact settled.level_ne_complete permuted ran level told
      · have accepted := evidence_isOk_iff.mp (by rw [ran]; rfl : (evidence order).isOk = true)
        exact absurd accepted (rejected.perm permuted).not_accepted

/-- An extension that reports its review as unverified or complete, and nothing else. -/
def reviewer (level : String) : AgentExtension Unit Unit where
  evidence := some ⟨[("review_completeness", .str level)], nodup_singleton _⟩
  executionPolicy _ _ := some ⟨(), none, true, []⟩

/-- The second extension overrides the first. -/
theorem complete_overrides_unverified :
    ¬∀ extensions : List (AgentExtension Unit Unit), OrderFree (fun _ => "") extensions := by
  intro always
  have ran : evidence [reviewer "unverified", reviewer "complete"] =
      .ok ⟨[("review_completeness", .value (.str "complete"))], nodup_singleton _⟩ := by
    rfl
  have told : Json.str "unverified" ∈ levelsAt [reviewer "unverified", reviewer "complete"]
      "review_completeness" := mem_cons_self
  exact (always [reviewer "unverified", reviewer "complete"]).levels _ (.refl _) _ ran
    "review_completeness" (mem_cons_of_mem _ mem_cons_self) (.inr told) rfl

end SourceLens.PluginExtensions
