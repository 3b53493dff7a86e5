import SourceLens.DelegationAttempts

/-! Which runs keep the order of the attempts of a delegated task and the child of a
delegation key. -/

namespace SourceLens.Delegation

open Transition
open RunStatus (Status)

variable {world next finish : World} {action : Action} {actions more : List Action}

variable {status : Status}

structure Kept (world : World) : Prop where
  ordered : Ordered world.children
  answered : Answered world

theorem reusable_of_open (unfinished : status.terminal = false) : reusable status = true := by
  cases status <;> first | rfl | cases unfinished

theorem reusable_of_unfinished (unfinished : status.unfinished = true) :
    reusable status = true := by
  cases status <;> first | rfl | cases unfinished

theorem active_open (active : status.active = true) : status.terminal = false := by
  cases status <;> first | rfl | cases active

theorem setStatus_rows (children : Children) (id : Nat) (status : Status) :
    (children.update id (setStatus status)).rows = children.rows.map fun child =>
      { child with status := if child.id = id then status else child.status } := by
  apply List.map_congr_left
  intro child _
  by_cases same : child.id = id
  · simp only [same, decide_true, if_true, setStatus]
  · simp only [same, decide_false, if_false, Bool.false_eq_true]

theorem cancelled_rows (children : Children) :
    (children.updateWhere (fun child => child.status.unfinished) (setStatus .cancelled)).rows =
      children.rows.map fun child =>
        { child with status := if child.status.unfinished then .cancelled else child.status } := by
  apply List.map_congr_left
  intro child _
  by_cases unfinished : child.status.unfinished = true
  · simp only [unfinished, if_true, setStatus]
  · rw [if_neg unfinished, if_neg unfinished]

theorem post_kept (kept : Kept world) {body : Body} {outside : Outside}
    (current : Current world (.post body outside)) : Kept (answered world body outside) := by
  rw [answered]
  split
  · exact kept
  · rename_i next id returned
    rw [post] at returned
    split at returned
    · cases returned
    · rename_i request checked
      obtain ⟨active, outcome⟩ := createDelegatedRun_outcome returned
      obtain ⟨given, keyed, short⟩ := check_ok checked
      obtain ⟨newest, same⟩ := current request (by rw [checked]; rfl)
      have open' := active_open active
      have ordered := outcome_ordered kept.ordered keyed newest outcome
      refine ⟨ordered, ?_⟩
      rw [← given]
      exact outcome_answered kept.ordered kept.answered open' keyed short newest same outcome

theorem child_kept (kept : Kept world) {id : Nat} {child : Child}
    (stored : world.children.get? id = some child) (unfinished : child.status.terminal = false) :
    Kept { world with children := world.children.update id (setStatus status) } where
  ordered := by
    refine restated_ordered kept.ordered _ (setStatus_rows world.children id status) ?_
    intro other present closed
    split
    · rename_i same
      have found := Table.get?_of_mem present
      rw [same, stored] at found
      cases found
      rw [reusable_of_open unfinished] at closed
      cases closed
    · exact closed
  answered := by
    refine ⟨kept.answered.keyed, ?_, ?_⟩
    · intro other member
      have rows := setStatus_rows world.children id status
      rw [rows, List.mem_map] at member
      obtain ⟨old, present, rfl⟩ := member
      exact kept.answered.recorded old present
    · intro open' answer member
      obtain ⟨old, found⟩ := kept.answered.stored open' answer member
      rw [Table.update, Table.get?_updateWhere, found]
      exact ⟨_, rfl⟩

theorem finish_kept (kept : Kept world) (sessions : List Nat) (terminal : status.terminal = true) :
    Kept { world with
      parent := { world.parent with status := status }
      children := finishChildren world.children sessions } where
  ordered := by
    refine reaped_ordered (restated_ordered kept.ordered _ (cancelled_rows world.children) ?_) sessions
    intro child _ closed
    split
    · rfl
    · exact closed
  answered := by
    refine ⟨kept.answered.keyed, ?_, fun open' => nomatch terminal.symm.trans open'⟩
    intro child member
    have cancelled := List.mem_of_mem_filter member
    rw [cancelled_rows, List.mem_map] at cancelled
    obtain ⟨old, present, rfl⟩ := cancelled
    exact kept.answered.recorded old present

theorem step_kept (kept : Kept world) (current : Current world action)
    (taken : step world action = some next) : Kept next := by
  cases action with
  | post body outside =>
    cases taken
    exact post_kept kept current
  | child id status =>
    rw [step] at taken
    split at taken
    · cases taken
    · rename_i child stored
      split at taken
      · cases taken
      · rename_i unfinished
        cases taken
        exact child_kept kept stored (Bool.eq_false_iff.mpr unfinished)
  | parent status =>
    rw [step] at taken
    split at taken
    · cases taken
    · rename_i unfinished
      cases taken
      refine ⟨kept.ordered, kept.answered.keyed, kept.answered.recorded, ?_⟩
      exact fun _ => kept.answered.stored (Bool.eq_false_iff.mpr unfinished)
  | finish status sessions =>
    rw [step] at taken
    split at taken
    · cases taken
      exact kept
    · split at taken
      · rename_i terminal
        cases taken
        exact finish_kept kept sessions terminal
      · cases taken

theorem opened_kept (parent : Parent) : Kept (opened parent) where
  ordered := ⟨fun _ no => (nomatch no), fun _ no => (nomatch no), fun _ no => (nomatch no)⟩
  answered := ⟨fun _ _ _ no => (nomatch no), fun _ no => (nomatch no), fun _ _ no => (nomatch no)⟩

def Ended (ids : List Nat) (world : World) : Prop :=
  world.parent.status.terminal = true ∧ ∀ child ∈ world.children.rows, child.id ∈ ids

theorem step_ended {ids : List Nat} (ended : Ended ids world)
    (taken : step world action = some next) : Ended ids next := by
  obtain ⟨terminal, listed⟩ := ended
  cases action with
  | post body outside =>
    cases taken
    have refused : answered world body outside = world := by
      rw [answered]
      split
      · rfl
      · rename_i next id returned
        rw [post] at returned
        split at returned
        · cases returned
        · obtain ⟨active, -⟩ := createDelegatedRun_outcome returned
          cases terminal.symm.trans (active_open active)
    rw [refused]
    exact ⟨terminal, listed⟩
  | child id status =>
    rw [step] at taken
    split at taken
    · cases taken
    · split at taken
      · cases taken
      · cases taken
        refine ⟨terminal, ?_⟩
        intro child member
        have rows := setStatus_rows world.children id status
        rw [rows, List.mem_map] at member
        obtain ⟨old, present, rfl⟩ := member
        exact listed old present
  | parent status =>
    rw [step, if_pos terminal] at taken
    cases taken
  | finish status sessions =>
    rw [step, if_pos terminal] at taken
    cases taken
    exact ⟨terminal, listed⟩

structure Sound (world : World) : Prop where
  single : ∀ first ∈ world.children.rows, ∀ second ∈ world.children.rows,
    SameTask first second → first.status.unfinished = true → second.status.unfinished = true →
      first = second
  keyed : ∀ (key : Text) (first second : Nat), (key, first) ∈ world.answers →
    (key, second) ∈ world.answers → first = second
  linked : ∀ child ∈ world.children.rows, Linked world.children child

theorem Kept.sound (kept : Kept world) : Sound world where
  single := by
    have older : ∀ first ∈ world.children.rows, ∀ second ∈ world.children.rows,
        SameTask first second → first.status.unfinished = true → ¬ first.id < second.id := by
      intro first one second two same unfinished lower
      have closed := kept.ordered.closed first one second two same lower
      rw [reusable_of_unfinished unfinished] at closed
      cases closed
    intro first one second two same unfinished unfinishedToo
    have notOlder := older first one second two same unfinished
    have notNewer := older second two first one ⟨same.1.symm, same.2.symm⟩ unfinishedToo
    have equal : first.id = second.id := by omega
    have found := Table.get?_of_mem one
    rw [equal, Table.get?_of_mem two] at found
    exact (Option.some.inj found).symm
  keyed := kept.answered.keyed
  linked := kept.ordered.linked

/-- In every run whose posts meet the condition, and no child is created after the
parent has ended. -/
theorem delegations_sound (parent : Parent) (run : Steps step Current (opened parent) actions world)
    (later : Steps step Current world more finish) :
    Sound world ∧ (world.parent.status.terminal = true →
      ∀ child ∈ finish.children.rows, child.id ∈ world.children.rows.map Child.id) := by
  constructor
  · have kept : Kept world := by
      refine run.invariant Kept ?_ (opened_kept parent)
      intro state action next kept current taken
      exact step_kept kept current taken
    exact kept.sound
  · intro terminal
    have ended : Ended (world.children.rows.map Child.id) finish := by
      refine later.invariant (Ended _) ?_ ⟨terminal, fun child => List.mem_map_of_mem⟩
      intro state action next ended _ taken
      exact step_ended ended taken
    exact ended.2

instance (children : Children) (assistant : Nat) (group : Text) :
    Decidable (LastIsNewest children assistant group) :=
  inferInstanceAs (Decidable (∀ last ∈ previousAttempt children assistant group,
    ∀ attempt ∈ attempts children assistant group, attempt.id ≤ last.id))

instance (world : World) (request : Request) : Decidable (KeyKept world request) :=
  inferInstanceAs (Decidable (∀ answer ∈ world.answers, answer.1 = request.delegationKey →
    ∀ child ∈ world.children.get? answer.2,
      child.idempotencyKey = idempotencyKey request.delegationKey ∨
        reusable child.status = true ∧ child.assistant = request.assistant ∧
          child.group = groupKey request))

instance (world : World) (action : Action) : Decidable (Current world action) :=
  match action with
  | .post body _ => inferInstanceAs (Decidable (∀ request ∈ body.check.toOption,
      LastIsNewest world.children request.assistant (groupKey request) ∧ KeyKept world request))
  | .child .. => .isTrue trivial
  | .parent _ => .isTrue trivial
  | .finish .. => .isTrue trivial

def coordinator : Parent := ⟨true, false, .running, some .running, 0, [1]⟩

def delegation (key : String) : Body := ⟨some 1, "Check".toList, key.toList, "task".toList⟩

def quietly (now : Int) : Outside := ⟨true, none, now⟩

def retried : List Action :=
  [.post (delegation "first") (quietly 1), .child 0 .failed, .post (delegation "second") (quietly 2),
    .post (delegation "second") (quietly 3)]

theorem delegations_sound_retried :
    ∃ world finish, Steps step Current (opened coordinator) retried world ∧
      Steps step Current world [.finish .done [0], .post (delegation "third") (quietly 4)] finish ∧
      (world.children.get? 1).any (decide <| ·.retryOf = some 0) = true ∧
      finish.children.rows.length = 2 ∧ Sound world ∧
      (world.parent.status.terminal = true →
        ∀ child ∈ finish.children.rows, child.id ∈ world.children.rows.map Child.id) := by
  have outcome : (execGuarded step Current (opened coordinator) retried).any (fun world =>
      (world.children.get? 1).any (decide <| ·.retryOf = some 0) &&
        (execGuarded step Current world [.finish .done [0],
          .post (delegation "third") (quietly 4)]).any fun finish =>
            decide (finish.children.rows.length = 2)) = true := by
    decide +kernel
  obtain ⟨world, reached, facts⟩ := (Option.any_eq_true _ _).mp outcome
  obtain ⟨linked, ends⟩ := Bool.and_eq_true_iff.mp facts
  obtain ⟨finish, ended, two⟩ := (Option.any_eq_true _ _).mp ends
  have run := execGuarded_steps reached
  have later := execGuarded_steps ended
  exact ⟨world, finish, run, later, linked, of_decide_eq_true two,
    delegations_sound coordinator run later⟩

/-- The second key is answered with the first attempt and asked for again after that has
failed. -/
def repeatedAfterwards : List Action :=
  [.post (delegation "first") (quietly 1), .post (delegation "second") (quietly 2),
    .child 0 .failed, .post (delegation "second") (quietly 3)]

theorem repeated_key_new_child :
    ∃ world, Steps step Any (opened coordinator) repeatedAfterwards world ∧
      ("second".toList, 0) ∈ world.answers ∧ ("second".toList, 1) ∈ world.answers := by
  have outcome : (exec step (opened coordinator) repeatedAfterwards).any (fun world =>
      decide (("second".toList, 0) ∈ world.answers ∧ ("second".toList, 1) ∈ world.answers)) =
        true := by
    decide +kernel
  obtain ⟨world, reached, facts⟩ := (Option.any_eq_true _ _).mp outcome
  exact ⟨world, exec_steps reached, of_decide_eq_true facts⟩

end SourceLens.Delegation
