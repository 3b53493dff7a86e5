import SourceLens.Delegation

/-! The order of the attempts of a delegated task and the child of a delegation key, through
one delegation, a change of a status and the end of the parent. -/

namespace SourceLens.Delegation

open Transition List
open RunStatus (Status)

variable {world next : World} {children : Children} {child older other : Child}
  {request : Request} {key : Text} {assistant id : Nat} {group : Text}

theorem mem_attempts : child ∈ attempts children assistant group ↔
    child ∈ children.rows ∧ child.assistant = assistant ∧ child.group = group := by
  rw [attempts, Table.mem_select, Bool.and_eq_true, decide_eq_true_eq, decide_eq_true_eq]

theorem latest_cases (child : Child) (last : Option Child) :
    child.latest last = child ∨ last = some (child.latest last) := by
  cases last with
  | none => exact .inl rfl
  | some other =>
    rw [Child.latest]
    split
    · exact .inl rfl
    · exact .inr rfl

theorem lastOf_foldl (rest : List Child) (last : Option Child) (found : Child)
    (is : rest.foldl (fun last child => some (child.latest last)) last = some found) :
    found ∈ rest ∨ last = some found := by
  induction rest generalizing last with
  | nil => exact .inr is
  | cons head rest ih =>
    cases ih (some (head.latest last)) is with
    | inl later => exact .inl (mem_cons_of_mem _ later)
    | inr same =>
      cases latest_cases head last with
      | inl here =>
        rw [← Option.some.inj same, here]
        exact .inl mem_cons_self
      | inr before => exact .inr (before.trans same)

theorem lastOf_some (rest : List Child) (last : Child) : ∃ found,
    rest.foldl (fun last child => some (child.latest last)) (some last) = some found := by
  induction rest generalizing last with
  | nil => exact ⟨last, rfl⟩
  | cons head rest ih => exact ih (head.latest (some last))

theorem previousAttempt_mem (found : previousAttempt children assistant group = some child) :
    child ∈ attempts children assistant group := by
  rw [previousAttempt] at found
  split at found
  · cases found
  · exact (lastOf_foldl _ none child found).resolve_right fun no => nomatch no

theorem previousAttempt_none (grouped : group ≠ [])
    (none' : previousAttempt children assistant group = none) :
    attempts children assistant group = [] := by
  rw [previousAttempt, if_neg grouped] at none'
  cases listed : attempts children assistant group with
  | nil => rfl
  | cons head rest =>
    rw [listed] at none'
    obtain ⟨found, is⟩ := lastOf_some rest head
    cases is.symm.trans none'

/-- The attempt of the task with the latest `created_at` is the one created last. -/
def LastIsNewest (children : Children) (assistant : Nat) (group : Text) : Prop :=
  ∀ last ∈ previousAttempt children assistant group,
    ∀ attempt ∈ attempts children assistant group, attempt.id ≤ last.id

/-- A key that has been answered before was answered with the child created under it, or
with an attempt of the same task that has not ended. -/
def KeyKept (world : World) (request : Request) : Prop :=
  ∀ answer ∈ world.answers, answer.1 = request.delegationKey →
    ∀ child ∈ world.children.get? answer.2,
      child.idempotencyKey = idempotencyKey request.delegationKey ∨
        reusable child.status = true ∧ child.assistant = request.assistant ∧
          child.group = groupKey request

def Current (world : World) : Action → Prop
  | .post body _ => ∀ request ∈ body.check.toOption,
      LastIsNewest world.children request.assistant (groupKey request) ∧ KeyKept world request
  | _ => True

/-- The attempt links to the one before it, and the first one to none. -/
def Linked (children : Children) (child : Child) : Prop :=
  match child.retryOf with
  | none => ∀ other ∈ attempts children child.assistant child.group, child.id ≤ other.id
  | some id => ∃ older ∈ attempts children child.assistant child.group,
      older.id = id ∧ older.id < child.id ∧
        ∀ other ∈ attempts children child.assistant child.group, other.id < child.id →
          other.id ≤ older.id

def SameTask (child other : Child) : Prop :=
  child.assistant = other.assistant ∧ child.group = other.group

structure Ordered (children : Children) : Prop where
  closed : ∀ older ∈ children.rows, ∀ child ∈ children.rows, SameTask older child →
    older.id < child.id → reusable older.status = false
  linked : ∀ child ∈ children.rows, Linked children child
  shared : ∀ child ∈ children.rows, ∀ other ∈ children.rows, SameTask child other →
    child.session = other.session

structure Answered (world : World) : Prop where
  keyed : ∀ (key : Text) (first second : Nat), (key, first) ∈ world.answers →
    (key, second) ∈ world.answers → first = second
  recorded : ∀ child ∈ world.children.rows, ∀ key : Text, key ≠ [] → key.length ≤ 96 →
    child.idempotencyKey = idempotencyKey key → (key, child.id) ∈ world.answers
  stored : world.parent.status.terminal = false → ∀ answer ∈ world.answers,
    ∃ child, world.children.get? answer.2 = some child

theorem idempotencyKey_inj {first second : Text} (one : first ≠ []) (two : second ≠ [])
    (short : first.length ≤ 96) (within : second.length ≤ 96)
    (same : idempotencyKey first = idempotencyKey second) : first = second := by
  have whole : ∀ key : Text, key ≠ [] → key.length ≤ 96 →
      idempotencyKey key = "delegation:".toList ++ key := by
    intro key nonempty bound
    rw [idempotencyKey, if_neg nonempty, take_of_length_le]
    rw [length_append]
    have lead : "delegation:".toList.length = 11 := by decide
    omega
  rw [whole first one short, whole second two within] at same
  exact append_cancel_left same

theorem check_ok {body : Body} (checked : body.check = .ok request) :
    request.delegationKey = strip body.delegationKey ∧ request.delegationKey ≠ [] ∧
      request.delegationKey.length ≤ 96 := by
  rw [Body.check] at checked
  split at checked
  · cases checked
  · dsimp only at checked
    split_ifs at checked with missing long longGroup
    cases checked
    exact ⟨rfl, fun empty => missing (.inr empty), Nat.le_of_not_lt long⟩

theorem groupKey_ne_nil (keyed : request.delegationKey ≠ []) : groupKey request ≠ [] := by
  rw [groupKey]
  have nonempty : (if request.delegationGroupKey = [] then request.delegationKey
      else request.delegationGroupKey) ≠ [] := by
    split
    · exact keyed
    · rename_i given
      exact given
  intro empty
  rw [take_eq_nil_iff] at empty
  exact empty.elim (fun no => nomatch no) nonempty

inductive Outcome (world : World) (request : Request) : World → Nat → Prop
  | repeated (child : Child) (present : child ∈ world.children.rows)
      (same : child.idempotencyKey = idempotencyKey request.delegationKey) :
      Outcome world request world child.id
  | reused (attempt : Child) (new : existing world.children request.delegationKey = none)
      (last : previousAttempt world.children request.assistant (groupKey request) = some attempt)
      (open' : reusable attempt.status = true) : Outcome world request world attempt.id
  | created (previous : Option Child) (now : Int)
      (new : existing world.children request.delegationKey = none)
      (last : previousAttempt world.children request.assistant (groupKey request) = previous)
      (ended : ∀ attempt ∈ previous, reusable attempt.status = false) :
      Outcome world request (create world request previous now) world.children.sequence

theorem existing_some (found : existing world.children key = some child) :
    child ∈ world.children.rows ∧ child.idempotencyKey = idempotencyKey key := by
  rw [existing] at found
  split at found
  · cases found
  · have same := List.find?_some found
    exact ⟨mem_of_find?_eq_some found, of_decide_eq_true same⟩

theorem existing_none (nonempty : key ≠ []) (missing : existing world.children key = none)
    (present : child ∈ world.children.rows) : child.idempotencyKey ≠ idempotencyKey key := by
  rw [existing, if_neg nonempty] at missing
  intro same
  exact List.find?_eq_none.mp missing child present (decide_eq_true same)

theorem refusal_none {parent : Parent} (admitted : refusal parent assistant = none) :
    parent.status.active = true := by
  rw [refusal] at admitted
  split at admitted
  · cases admitted
  · split at admitted
    · cases admitted
    · split at admitted
      · cases admitted
      · rename_i inactive
        simpa using inactive

theorem createDelegatedRun_outcome {outside : Outside}
    (returned : createDelegatedRun world request outside = .ok (next, id)) :
    world.parent.status.active = true ∧ Outcome world request next id := by
  rw [createDelegatedRun] at returned
  split at returned
  · cases returned
  · rename_i admitted
    refine ⟨refusal_none admitted, ?_⟩
    split at returned
    · rename_i child found
      cases returned
      obtain ⟨present, same⟩ := existing_some found
      exact .repeated child present same
    · rename_i new
      dsimp only at returned
      split at returned
      · rename_i attempt found
        cases returned
        obtain ⟨last, open'⟩ := Option.filter_eq_some_iff.mp found
        exact .reused attempt new last open'
      · rename_i closed
        split_ifs at returned
        split at returned
        · cases returned
        · cases returned
          refine .created _ outside.now new rfl ?_
          intro attempt last
          have shut := Option.filter_eq_none_iff.mp closed attempt last
          rwa [Bool.not_eq_true] at shut

section Create

variable {previous : Option Child} {now : Int}

/-- The row that `create` adds. -/
def createdChild (world : World) (request : Request) (previous : Option Child) (now : Int) : Child :=
  newChild request ((previous.map Child.session).getD world.nextSession)
    (previous.map Child.id) now world.children.sequence

theorem create_rows : (create world request previous now).children.rows =
    world.children.rows ++ [createdChild world request previous now] := rfl

theorem mem_create (member : child ∈ (create world request previous now).children.rows) :
    child ∈ world.children.rows ∨ child = createdChild world request previous now := by
  rw [create_rows, mem_append, mem_singleton] at member
  exact member

theorem mem_attempts_create
    (member : child ∈ attempts (create world request previous now).children assistant group) :
    child ∈ attempts world.children assistant group ∨
      child = createdChild world request previous now := by
  obtain ⟨present, same⟩ := mem_attempts.mp member
  cases mem_create present with
  | inl old => exact .inl (mem_attempts.mpr ⟨old, same⟩)
  | inr new => exact .inr new

theorem attempts_create_of_mem (member : child ∈ attempts world.children assistant group) :
    child ∈ attempts (create world request previous now).children assistant group := by
  obtain ⟨present, same⟩ := mem_attempts.mp member
  exact mem_attempts.mpr ⟨mem_append_left _ present, same⟩

/-- Every attempt of the task is at most as new as the one before the created one. -/
def Precedes (children : Children) (request : Request) (previous : Option Child) : Prop :=
  ∀ attempt ∈ attempts children request.assistant (groupKey request),
    ∃ last ∈ previous, attempt.id ≤ last.id

theorem previous_precedes (grouped : groupKey request ≠ [])
    (newest : LastIsNewest world.children request.assistant (groupKey request))
    (last : previousAttempt world.children request.assistant (groupKey request) = previous) :
    Precedes world.children request previous := by
  intro attempt member
  cases previous with
  | none =>
    rw [previousAttempt_none grouped last] at member
    cases member
  | some found => exact ⟨found, rfl, newest found last attempt member⟩

theorem create_ordered (ordered : Ordered world.children)
    (last : ∀ found ∈ previous, found ∈ attempts world.children request.assistant (groupKey request))
    (precedes : Precedes world.children request previous)
    (ended : ∀ attempt ∈ previous, reusable attempt.status = false) :
    Ordered (create world request previous now).children where
  closed := by
    intro older oldMember child member same lower
    cases mem_create oldMember with
    | inr new =>
      have below : child.id < world.children.sequence + 1 :=
        (create world request previous now).children.drawn child member
      subst new
      exact absurd lower (Nat.not_lt.mpr (Nat.le_of_lt_succ below))
    | inl old =>
      cases mem_create member with
      | inl present => exact ordered.closed older old child present same lower
      | inr new =>
        subst new
        obtain ⟨found, is, most⟩ := precedes older (mem_attempts.mpr ⟨old, same⟩)
        obtain ⟨foundPresent, owner, grouped⟩ := mem_attempts.mp (last found is)
        cases Nat.lt_or_eq_of_le most with
        | inl earlier =>
          exact ordered.closed older old found foundPresent
            ⟨same.1.trans owner.symm, same.2.trans grouped.symm⟩ earlier
        | inr equal =>
          have identical := Table.get?_of_mem old
          rw [equal, Table.get?_of_mem foundPresent] at identical
          cases identical
          exact ended _ is
  linked := by
    intro child member
    cases mem_create member with
    | inl present =>
      have below := world.children.drawn child present
      have linked := ordered.linked child present
      rw [Linked] at linked ⊢
      split at linked
      · intro other attempt
        cases mem_attempts_create attempt with
        | inl old => exact linked other old
        | inr new => exact new ▸ Nat.le_of_lt below
      · obtain ⟨older, attempt, is, lower, newest⟩ := linked
        refine ⟨older, attempts_create_of_mem attempt, is, lower, ?_⟩
        intro other listed lowerToo
        cases mem_attempts_create listed with
        | inl old => exact newest other old lowerToo
        | inr new =>
          rw [new] at lowerToo
          exact absurd lowerToo (Nat.not_lt.mpr (Nat.le_of_lt below))
    | inr new =>
      subst new
      cases previous with
      | none =>
        intro other listed
        cases mem_attempts_create listed with
        | inl old =>
          obtain ⟨_, no, _⟩ := precedes other old
          cases no
        | inr same => exact Nat.le_of_eq (congrArg Child.id same).symm
      | some found =>
        have attempt := last found rfl
        have below := world.children.drawn found (mem_attempts.mp attempt).1
        refine ⟨found, attempts_create_of_mem attempt, rfl, below, ?_⟩
        intro other listed lower
        cases mem_attempts_create listed with
        | inl old =>
          obtain ⟨_, is, most⟩ := precedes other old
          cases is
          exact most
        | inr same =>
          rw [same] at lower
          exact absurd lower (Nat.lt_irrefl _)
  shared := by
    have joins : ∀ other ∈ world.children.rows,
        SameTask other (createdChild world request previous now) →
          other.session = (createdChild world request previous now).session := by
      intro other present same
      obtain ⟨found, is, -⟩ := precedes other (mem_attempts.mpr ⟨present, same⟩)
      obtain ⟨foundPresent, owner, grouped⟩ := mem_attempts.mp (last found is)
      cases is
      exact ordered.shared other present found foundPresent
        ⟨same.1.trans owner.symm, same.2.trans grouped.symm⟩
    intro child member other otherMember same
    cases mem_create member with
    | inl present =>
      cases mem_create otherMember with
      | inl otherPresent => exact ordered.shared child present other otherPresent same
      | inr new =>
        subst new
        exact joins child present same
    | inr new =>
      subst new
      cases mem_create otherMember with
      | inl otherPresent => exact (joins other otherPresent ⟨same.1.symm, same.2.symm⟩).symm
      | inr otherNew => rw [otherNew]

end Create

theorem outcome_same (ordered : Ordered world.children) (answers : Answered world)
    (active : world.parent.status.terminal = false) (keyed : request.delegationKey ≠ [])
    (short : request.delegationKey.length ≤ 96)
    (newest : LastIsNewest world.children request.assistant (groupKey request))
    (kept : KeyKept world request) (outcome : Outcome world request next id) {first : Nat}
    (earlier : (request.delegationKey, first) ∈ world.answers) : first = id := by
  obtain ⟨child, found⟩ := answers.stored active _ earlier
  obtain ⟨present, is⟩ := Table.get?_eq_some.mp found
  -- where the child was not created under the key, it is the task's last attempt
  have open' : existing world.children request.delegationKey = none →
      reusable child.status = true ∧ child ∈ attempts world.children request.assistant
        (groupKey request) := by
    intro new
    cases kept _ earlier rfl child found with
    | inl same => exact absurd same (existing_none keyed new present)
    | inr task => exact ⟨task.1, mem_attempts.mpr ⟨present, task.2⟩⟩
  have last : existing world.children request.delegationKey = none → ∀ attempt,
      previousAttempt world.children request.assistant (groupKey request) = some attempt →
        child = attempt := by
    intro new attempt isLast
    obtain ⟨reuses, member⟩ := open' new
    obtain ⟨attemptPresent, owner, grouped⟩ := mem_attempts.mp (previousAttempt_mem isLast)
    obtain ⟨-, childOwner, childGrouped⟩ := mem_attempts.mp member
    cases Nat.lt_or_eq_of_le (newest attempt isLast child member) with
    | inl lower =>
      have closed := ordered.closed child present attempt attemptPresent
        ⟨childOwner.trans owner.symm, childGrouped.trans grouped.symm⟩ lower
      rw [reuses] at closed
      cases closed
    | inr equal =>
      have identical := Table.get?_of_mem present
      rw [equal, Table.get?_of_mem attemptPresent] at identical
      exact (Option.some.inj identical).symm
  cases outcome with
  | repeated other otherPresent same =>
    exact answers.keyed request.delegationKey first other.id earlier
      (answers.recorded other otherPresent _ keyed short same)
  | reused attempt new isLast reuses => exact is.symm.trans (congrArg Child.id (last new attempt isLast))
  | created previous now new isLast ended =>
    obtain ⟨reuses, member⟩ := open' new
    cases held : previous with
    | none =>
      rw [held] at isLast
      rw [previousAttempt_none (groupKey_ne_nil keyed) isLast] at member
      cases member
    | some attempt =>
      rw [held] at isLast ended
      have same := last new attempt isLast
      rw [← same] at ended
      rw [ended child rfl] at reuses
      cases reuses

theorem keyed_append (answers : Answered world)
    (same : ∀ first, (key, first) ∈ world.answers → first = id) (other : Text) (one two : Nat)
    (atOne : (other, one) ∈ world.answers ++ [(key, id)])
    (atTwo : (other, two) ∈ world.answers ++ [(key, id)]) : one = two := by
  rw [mem_append, mem_singleton] at atOne atTwo
  cases atOne with
  | inl oldOne =>
    cases atTwo with
    | inl oldTwo => exact answers.keyed other one two oldOne oldTwo
    | inr newTwo =>
      cases newTwo
      exact same one oldOne
  | inr newOne =>
    cases newOne
    cases atTwo with
    | inl oldTwo => exact (same two oldTwo).symm
    | inr newTwo =>
      cases newTwo
      rfl

theorem outcome_answered (ordered : Ordered world.children) (answers : Answered world)
    (active : world.parent.status.terminal = false) (keyed : request.delegationKey ≠ [])
    (short : request.delegationKey.length ≤ 96)
    (newest : LastIsNewest world.children request.assistant (groupKey request))
    (kept : KeyKept world request) (outcome : Outcome world request next id) :
    Answered { next with answers := world.answers ++ [(request.delegationKey, id)] } := by
  have same : ∀ first, (request.delegationKey, first) ∈ world.answers → first = id :=
    fun first => outcome_same ordered answers active keyed short newest kept outcome
  have stays : ∀ answer ∈ world.answers, ∃ child,
      world.children.get? answer.2 = some child := answers.stored active
  cases outcome with
  | repeated child present matching =>
    refine ⟨keyed_append answers same, ?_, ?_⟩
    · intro other member key nonempty bound is
      exact mem_append_left _ (answers.recorded other member key nonempty bound is)
    · intro _ answer member
      cases mem_append.mp member with
      | inl old => exact stays answer old
      | inr new =>
        cases mem_singleton.mp new
        exact ⟨child, Table.get?_of_mem present⟩
  | reused attempt new isLast reuses =>
    refine ⟨keyed_append answers same, ?_, ?_⟩
    · intro other member key nonempty bound is
      exact mem_append_left _ (answers.recorded other member key nonempty bound is)
    · intro _ answer member
      cases mem_append.mp member with
      | inl old => exact stays answer old
      | inr new =>
        cases mem_singleton.mp new
        exact ⟨attempt, Table.get?_of_mem (mem_attempts.mp (previousAttempt_mem isLast)).1⟩
  | created previous now new isLast ended =>
    refine ⟨keyed_append answers same, ?_, ?_⟩
    · intro other member key nonempty bound is
      cases mem_create member with
      | inl old =>
        exact mem_append_left _ (answers.recorded other old key nonempty bound is)
      | inr fresh =>
        subst fresh
        have own := idempotencyKey_inj keyed nonempty short bound is
        exact mem_append_right _ (mem_singleton.mpr (own ▸ rfl))
    · intro _ answer member
      cases mem_append.mp member with
      | inl old =>
        obtain ⟨child, found⟩ := stays answer old
        obtain ⟨present, is⟩ := Table.get?_eq_some.mp found
        exact ⟨child, Table.get?_eq_some.mpr ⟨mem_append_left _ present, is⟩⟩
      | inr fresh =>
        cases mem_singleton.mp fresh
        exact ⟨createdChild world request previous now,
          Table.get?_eq_some.mpr ⟨mem_append_right _ mem_cons_self, rfl⟩⟩

theorem outcome_ordered (ordered : Ordered world.children) (keyed : request.delegationKey ≠ [])
    (newest : LastIsNewest world.children request.assistant (groupKey request))
    (outcome : Outcome world request next id) : Ordered next.children := by
  cases outcome with
  | repeated | reused => exact ordered
  | created previous now new isLast ended =>
    refine create_ordered ordered ?_ (previous_precedes (groupKey_ne_nil keyed) newest isLast) ended
    intro found is
    rw [Option.mem_def.mp is] at isLast
    exact previousAttempt_mem isLast

theorem restated_ordered {before after : Children} (ordered : Ordered before)
    (restate : Child → Status)
    (rows : after.rows = before.rows.map fun child => { child with status := restate child })
    (closes : ∀ child ∈ before.rows, reusable child.status = false →
      reusable (restate child) = false) : Ordered after := by
  have listed : ∀ {child assistant group}, child ∈ attempts after assistant group ↔
      ∃ old ∈ attempts before assistant group, { old with status := restate old } = child := by
    intro child assistant group
    rw [mem_attempts, rows, mem_map]
    constructor
    · rintro ⟨⟨old, present, rfl⟩, same⟩
      exact ⟨old, mem_attempts.mpr ⟨present, same⟩, rfl⟩
    · rintro ⟨old, member, rfl⟩
      obtain ⟨present, same⟩ := mem_attempts.mp member
      exact ⟨⟨old, present, rfl⟩, same⟩
  constructor
  · intro older oldMember child member same lower
    rw [rows, mem_map] at oldMember member
    obtain ⟨one, onePresent, rfl⟩ := oldMember
    obtain ⟨two, twoPresent, rfl⟩ := member
    exact closes one onePresent (ordered.closed one onePresent two twoPresent same lower)
  · intro child member
    rw [rows, mem_map] at member
    obtain ⟨old, present, rfl⟩ := member
    have linked := ordered.linked old present
    rw [Linked] at linked ⊢
    dsimp only
    split at linked
    · intro other attempt
      obtain ⟨oldOther, oldAttempt, rfl⟩ := listed.mp attempt
      exact linked oldOther oldAttempt
    · obtain ⟨older, attempt, is, lower, newest⟩ := linked
      refine ⟨_, listed.mpr ⟨older, attempt, rfl⟩, is, lower, ?_⟩
      intro other otherAttempt lowerToo
      obtain ⟨oldOther, oldAttempt, rfl⟩ := listed.mp otherAttempt
      exact newest oldOther oldAttempt lowerToo
  · intro child member other otherMember same
    rw [rows, mem_map] at member otherMember
    obtain ⟨one, onePresent, rfl⟩ := member
    obtain ⟨two, twoPresent, rfl⟩ := otherMember
    exact ordered.shared one onePresent two twoPresent same

theorem reaped_ordered (ordered : Ordered children) (sessions : List Nat) :
    Ordered (children.deleteWhere fun child => decide (child.session ∉ sessions)) := by
  have stays : ∀ {child : Child},
      child ∈ (children.deleteWhere fun child => decide (child.session ∉ sessions)).rows ↔
        child ∈ children.rows ∧ child.session ∈ sessions := by
    intro child
    rw [Table.deleteWhere, mem_filter, Bool.not_eq_true', decide_eq_false_iff_not,
      Decidable.not_not]
  have listed : ∀ {child assistant group}, child ∈ attempts
      (children.deleteWhere fun child => decide (child.session ∉ sessions)) assistant group ↔
        child ∈ attempts children assistant group ∧ child.session ∈ sessions := by
    intro child assistant group
    rw [mem_attempts, mem_attempts, stays]
    tauto
  constructor
  · intro older oldMember child member same lower
    exact ordered.closed older (stays.mp oldMember).1 child (stays.mp member).1 same lower
  · intro child member
    obtain ⟨present, kept⟩ := stays.mp member
    have linked := ordered.linked child present
    rw [Linked] at linked ⊢
    split at linked
    · exact fun other attempt => linked other (listed.mp attempt).1
    · obtain ⟨older, attempt, is, lower, newest⟩ := linked
      obtain ⟨olderPresent, same⟩ := mem_attempts.mp attempt
      have together := ordered.shared older olderPresent child present same
      refine ⟨older, listed.mpr ⟨attempt, together ▸ kept⟩, is, lower, ?_⟩
      exact fun other otherAttempt => newest other (listed.mp otherAttempt).1
  · intro child member other otherMember same
    exact ordered.shared child (stays.mp member).1 other (stays.mp otherMember).1 same

end SourceLens.Delegation
