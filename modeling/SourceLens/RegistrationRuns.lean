import SourceLens.Registration

/-! In an orderly run every completion leaves a usable account, and a token makes one account. -/

namespace SourceLens.Registration

open Transition Option List

variable {settings : Settings} {before middle after : Accounts} {token : Nat} {own : Option Nat}

variable {profile : Profile}

def Accounts.Holds (accounts : Accounts) (token : Nat) : Prop :=
  ∃ profile ∈ accounts.profiles.rows, profile.token = some token

def Accounts.Unique (accounts : Accounts) : Prop :=
  ∀ first ∈ accounts.profiles.rows, ∀ second ∈ accounts.profiles.rows,
    first.token ≠ none → first.token = second.token → first.id = second.id

/-- What a statement may do to the tokens: at most one more is stored. -/
structure Accounts.Change (own : Option Nat) (before after : Accounts) : Prop where
  unique : after.Unique
  grows : before.users.sequence ≤ after.users.sequence
  stored : ∀ token, after.Holds token → before.Holds token ∨ own = some token

theorem Change.refl (unique : before.Unique) (own : Option Nat) :
    Accounts.Change own before before where
  unique := unique
  grows := Nat.le_refl _
  stored := fun _ held => .inl held

theorem change_of_bare (unique : before.Unique)
    (rows : ∀ profile ∈ after.profiles.rows, profile.token = none ∨ profile ∈ before.profiles.rows)
    (grows : before.users.sequence ≤ after.users.sequence) (own : Option Nat) :
    Accounts.Change own before after where
  unique := by
    intro first one second other has same
    exact unique first ((rows first one).resolve_left has) second
      ((rows second other).resolve_left (same ▸ has)) has same
  grows := grows
  stored := by
    rintro token ⟨profile, member, is⟩
    exact .inl ⟨profile, (rows profile member).resolve_left (by rw [is]; rintro ⟨⟩), is⟩

theorem admits_apart {other : Profile} (admitted : before.admits profile = true)
    (member : other ∈ before.profiles.rows) (has : profile.token ≠ none)
    (same : other.token = profile.token) : other.id = profile.id := by
  unfold Accounts.admits at admitted
  have each := all_eq_true.mp (Bool.and_eq_true_iff.mp admitted).2 other member
  simpa [has, same] using each

theorem change_of_write (unique : before.Unique) (admitted : before.admits profile = true)
    (rows : ∀ other ∈ after.profiles.rows, other = profile ∨ other ∈ before.profiles.rows)
    (grows : before.users.sequence ≤ after.users.sequence) :
    Accounts.Change profile.token before after where
  unique := by
    intro first one second other has same
    rcases rows first one with rfl | old
    · rcases rows second other with rfl | stored
      · rfl
      · exact (admits_apart admitted stored has same.symm).symm
    · rcases rows second other with rfl | stored
      · exact admits_apart admitted old (same ▸ has) same
      · exact unique first old second stored has same
  grows := grows
  stored := by
    rintro token ⟨other, member, is⟩
    rcases rows other member with rfl | old
    · exact .inr is
    · exact .inl ⟨other, old, is⟩

theorem saveProfile_change (unique : before.Unique)
    (saved : before.saveProfile profile = some after) :
    Accounts.Change profile.token before after := by
  unfold Accounts.saveProfile at saved
  split at saved
  · rename_i admitted
    cases saved
    refine change_of_write unique admitted ?_ (Nat.le_refl _)
    intro other member
    exact (Table.mem_save.mp member).imp_right And.left
  · cases saved

theorem insertProfile_change {make : Nat → Profile} {keyed : ∀ id, (make id).id = id}
    (unique : before.Unique) (same : ∀ id, (make id).token = own) :
    Accounts.Change own before ((before.insertProfile make keyed).getD before) := by
  unfold Accounts.insertProfile
  split
  · rename_i admitted
    have rows : ∀ other ∈ (before.profiles.create make keyed).rows,
        other = make before.profiles.sequence ∨ other ∈ before.profiles.rows := by
      intro other member
      rcases mem_append.mp member with old | new
      · exact .inr old
      · exact .inl (mem_singleton.mp new)
    have written : Accounts.Change (make before.profiles.sequence).token before
        { before with profiles := before.profiles.create make keyed } :=
      change_of_write unique admitted rows (Nat.le_refl _)
    rw [same] at written
    exact written
  · exact Change.refl unique own

theorem createProfile_change (unique : before.Unique) (user : Nat) :
    Accounts.Change none before (before.createProfile user) := by
  unfold Accounts.createProfile
  split
  · exact Change.refl unique none
  · exact insertProfile_change unique fun _ => rfl

theorem saveUser_change {user : User} (unique : before.Unique)
    (saved : before.saveUser user = some after) : Accounts.Change none before after := by
  unfold Accounts.saveUser at saved
  split at saved
  · cases saved
  · cases saved
    refine change_of_bare unique ?_ (Nat.le_max_left _ _) none
    exact fun _ member => .inr member

theorem createUser_change {username email : Text} (unique : before.Unique)
    (created : before.createUser username email = some after) :
    Accounts.Change none before after := by
  unfold Accounts.createUser at created
  split at created
  · cases created
  · cases created
    refine change_of_bare unique ?_ (Nat.le_succ _) none
    exact fun _ member => .inr member

theorem deleteProfile_change (unique : before.Unique) (id : Nat) :
    Accounts.Change none before (before.deleteProfile id) := by
  refine change_of_bare unique ?_ ?_ none
  · exact fun _ member => .inr (mem_of_mem_filter member)
  · exact Nat.le_refl _

theorem deleteUser_change (unique : before.Unique) (id : Nat) :
    Accounts.Change none before (before.deleteUser id) := by
  refine change_of_bare unique ?_ ?_ none
  · exact fun _ member => .inr (mem_of_mem_filter member)
  · exact Nat.le_refl _

theorem updateWhere_change (unique : before.Unique) (condition : Profile → Bool)
    (change : Table.Change Profile.id) (same : ∀ profile, (change.apply profile).token = profile.token) :
    Accounts.Change none before
      { before with profiles := before.profiles.updateWhere condition change } := by
  have origin : ∀ profile ∈ (before.profiles.updateWhere condition change).rows,
      ∃ old ∈ before.profiles.rows, old.id = profile.id ∧ old.token = profile.token := by
    intro profile member
    obtain ⟨old, inside, rfl⟩ := mem_map.mp member
    refine ⟨old, inside, ?_⟩
    split
    · exact ⟨(change.keeps old).symm, (same old).symm⟩
    · exact ⟨rfl, rfl⟩
  constructor
  · intro first one second other has equal
    obtain ⟨old, inside, id, is⟩ := origin first one
    obtain ⟨older, insider, key, was⟩ := origin second other
    rw [← id, ← key]
    exact unique old inside older insider (is ▸ has) (is.trans (equal.trans was.symm))
  · exact Nat.le_refl _
  · rintro token ⟨profile, member, is⟩
    obtain ⟨old, inside, _, was⟩ := origin profile member
    exact .inl ⟨old, inside, was.trans is⟩

def Task.claim : Task → Option Nat
  | .register call => some call.token
  | .complete completion =>
    if completion.phase = .save then none else some completion.request.token
  | _ => none

def Answer.claim (answer : Answer) : Option Nat :=
  answer.created.map fun _ => answer.completion.request.token

def Effect.claims (effect : Effect) : List Nat :=
  (effect.next.bind Task.claim).toList ++ (effect.answer.bind Answer.claim).toList

def World.claims (world : World) : List Nat :=
  world.tasks.filterMap Task.claim ++ world.log.filterMap Answer.claim

def Task.Formed (accounts : Accounts) : Task → Prop
  | .complete completion => completion.profile.token = some completion.request.token ∧
      completion.drawn ≤ accounts.users.sequence
  | .register call => ∀ profile, call.stage = .saveProfile profile → profile.token = some call.token
  | _ => True

theorem Task.Formed.mono {task : Task} (formed : task.Formed before)
    (grows : before.users.sequence ≤ after.users.sequence) : task.Formed after := by
  cases task with
  | complete completion => exact ⟨formed.1, Nat.le_trans formed.2 grows⟩
  | register call => exact formed
  | validate request => exact trivial
  | find request => exact trivial
  | manage call => exact trivial

/-- What a statement of a task may do: the token of the task goes from hand to hand. -/
structure Effect.Fits (before : Accounts) (own : Option Nat) (effect : Effect) : Prop where
  change : Accounts.Change own before effect.accounts
  few : effect.claims.length ≤ 1
  claimed : ∀ token ∈ effect.claims, before.Holds token ∨ own = some token
  cleared : ∀ token ∈ effect.claims, ¬ effect.accounts.Holds token
  next : ∀ task ∈ effect.next, task.Formed effect.accounts
  answer : ∀ answer ∈ effect.answer, answer.Usable

theorem fits_of_change {next : Option Task} (change : Accounts.Change none before after)
    (absent : ∀ token, own = some token → ¬ before.Holds token)
    (kept : ∀ task ∈ next, task.claim = none ∨ task.claim = own)
    (formed : ∀ task ∈ next, task.Formed after) :
    (Effect.silent after next).Fits before own where
  change := { change with stored := fun token held => .inl ((change.stored token held).resolve_right
    (by rintro ⟨⟩)) }
  few := by
    simp only [Effect.claims, Effect.silent, bind_none, toList_none, append_nil]
    exact length_toList_le
  claimed := by
    intro token member
    simp only [Effect.claims, Effect.silent, bind_none, toList_none, append_nil,
      mem_toList] at member
    obtain ⟨task, inNext, is⟩ := bind_eq_some_iff.mp member
    rcases kept task inNext with none | same
    · rw [none] at is
      cases is
    · exact .inr (same ▸ is)
  cleared := by
    intro token member held
    simp only [Effect.claims, Effect.silent, bind_none, toList_none, append_nil,
      mem_toList] at member
    obtain ⟨task, inNext, is⟩ := bind_eq_some_iff.mp member
    have old := (change.stored token held).resolve_right (by rintro ⟨⟩)
    rcases kept task inNext with none | same
    · rw [none] at is
      cases is
    · exact absent token (same ▸ is) old
  next := formed
  answer := by rintro _ ⟨⟩

theorem fits_of_store (change : Accounts.Change own before after) :
    (Effect.silent after none).Fits before own where
  change := change
  few := Nat.zero_le _
  claimed := by rintro _ ⟨⟩
  cleared := by rintro _ ⟨⟩
  next := by rintro _ ⟨⟩
  answer := by rintro _ ⟨⟩

theorem fits_of_end (unique : before.Unique) (own : Option Nat) :
    (Effect.silent before none).Fits before own :=
  fits_of_store (Change.refl unique own)

theorem manage_fits (unique : before.Unique) (call : Manage) :
    (call.advance settings before).Fits before none := by
  have onward {after : Accounts} (change : Accounts.Change none before after)
      (stage : ManageStage) : (Effect.silent after (call.at stage)).Fits before none := by
    refine fits_of_change change (by rintro _ ⟨⟩) ?_ ?_
    · rintro _ ⟨⟩
      exact .inl rfl
    · rintro _ ⟨⟩
      exact trivial
  unfold Manage.advance
  split
  · split
    · exact fits_of_end unique none
    · exact onward (Change.refl unique none) .email
  · split
    · exact fits_of_end unique none
    · exact onward (Change.refl unique none) .insert
  · split
    · exact fits_of_end unique none
    · rename_i created
      exact onward (createUser_change unique created) _
  · exact onward (createProfile_change unique _) _
  · exact fits_of_store (updateWhere_change unique _ _ fun _ => rfl)

theorem register_fits (unique : before.Unique) (call : Register)
    (absent : ¬ before.Holds call.token) (formed : (Task.register call).Formed before) :
    (call.advance settings before).Fits before (some call.token) := by
  have onward {after : Accounts} (change : Accounts.Change none before after)
      (stage : RegisterStage)
      (stored : ∀ profile, stage = .saveProfile profile → profile.token = some call.token) :
      (Effect.silent after (call.at stage)).Fits before (some call.token) := by
    refine fits_of_change change ?_ ?_ ?_
    · rintro _ ⟨⟩
      exact absent
    · rintro _ ⟨⟩
      exact .inr rfl
    · rintro _ ⟨⟩
      exact stored
  have same := Change.refl unique none
  unfold Register.advance
  split
  · split
    · exact onward same _ (by rintro _ ⟨⟩)
    · exact onward same _ (by rintro _ ⟨⟩)
  · dsimp only
    split
    · exact onward same _ (by rintro _ ⟨⟩)
    · exact onward same _ (by rintro _ ⟨⟩)
  · dsimp only
    split
    · exact fits_of_end unique _
    · rename_i created
      exact onward (createUser_change unique created) _ (by rintro _ ⟨⟩)
  · exact onward (createProfile_change unique _) _ (by rintro _ ⟨⟩)
  · split
    · exact fits_of_end unique _
    · rename_i saved
      exact onward (saveUser_change unique saved) _ (by rintro _ ⟨⟩)
  · split
    · refine onward same _ ?_
      rintro _ ⟨⟩
      rfl
    · exact fits_of_store (insertProfile_change unique fun _ => rfl)
  · rename_i profile stage
    have token := formed profile stage
    cases saved : before.saveProfile profile with
    | none => exact fits_of_end unique _
    | some after => exact fits_of_store (token ▸ saveProfile_change unique saved)

variable {completion : Completion}

theorem proceed_fits (change : Accounts.Change none before after) {phase : Phase}
    (past : phase ≠ .save) (formed : (Task.complete completion).Formed before)
    (claimed : before.Holds completion.request.token ∨ own = some completion.request.token)
    (cleared : ¬ after.Holds completion.request.token) :
    (completion.proceed after phase).Fits before own := by
  have claims : (completion.proceed after phase).claims = [completion.request.token] := by
    simp [Effect.claims, Completion.proceed, Effect.silent, Task.claim, past]
  constructor
  · exact { change with
      stored := fun token held => .inl ((change.stored token held).resolve_right (by rintro ⟨⟩)) }
  · rw [claims]
    exact Nat.le_refl _
  · rw [claims]
    intro token member
    rw [mem_singleton.mp member]
    exact claimed
  · rw [claims]
    intro token member
    rw [mem_singleton.mp member]
    exact cleared
  · rintro _ ⟨⟩
    exact ⟨formed.1, Nat.le_trans formed.2 change.grows⟩
  · rintro _ ⟨⟩

theorem fail_fits (unique : before.Unique) (user : completion.user ∈ before.users.rows)
    (profile : completion.profile ∈ before.profiles.rows) (own : Option Nat) :
    (completion.fail before).Fits before own where
  change := Change.refl unique own
  few := Nat.zero_le _
  claimed := by rintro _ ⟨⟩
  cleared := by rintro _ ⟨⟩
  next := by rintro _ ⟨⟩
  answer := by
    rintro _ ⟨⟩
    exact ⟨user, profile⟩

theorem save_fits (unique : before.Unique) (formed : (Task.complete completion).Formed before)
    (user : completion.user ∈ before.users.rows)
    (profile : completion.profile ∈ before.profiles.rows) (start : completion.phase = .save) :
    (completion.advance settings before).Fits before none := by
  simp only [Completion.advance, start]
  cases saved : before.saveProfile { completion.profile with token := none, expires := none } with
  | none => exact fail_fits unique user profile none
  | some after =>
    have change := saveProfile_change unique saved
    refine proceed_fits change (by decide) formed (.inl ⟨_, profile, formed.1⟩) ?_
    -- No other profile has the token, and this one has lost it.
    rintro ⟨other, member, is⟩
    unfold Accounts.saveProfile at saved
    split at saved
    · cases saved
      rcases Table.mem_save.mp member with rfl | ⟨old, different⟩
      · cases is
      · exact different (unique other old completion.profile profile (by rw [is]; rintro ⟨⟩)
          (is.trans formed.1.symm))
    · cases saved

theorem commit_fits (unique : before.Unique) (formed : (Task.complete completion).Formed before)
    (free : before.nameTaken completion.request.username = false)
    (normal : normalizeEmail settings.lower completion.user.email = completion.user.email)
    (cleared : ¬ before.Holds completion.request.token) :
    (completion.commit settings before).Fits before (some completion.request.token) := by
  have created : before.createUser completion.request.username completion.user.email =
      some { before with
        users := before.users.create
          (fun id => ⟨id, completion.request.username, completion.user.email⟩) fun _ => rfl } := by
    unfold Accounts.createUser
    rw [free]
    rfl
  unfold Completion.commit
  simp only [normal, created]
  have change : Accounts.Change none before { before with
      users := before.users.create
        (fun id => ⟨id, completion.request.username, completion.user.email⟩) fun _ => rfl
      profiles := before.profiles.create (fun key => ⟨key, before.users.sequence, true, none, none,
        normalizeAnswerLanguage settings.lower completion.request.language,
        completion.request.timezone⟩) fun _ => rfl } := by
    refine change_of_bare unique ?_ (Nat.le_succ _) none
    intro profile member
    rcases mem_append.mp member with old | new
    · exact .inr old
    · rw [mem_singleton.mp new]
      exact .inl rfl
  constructor
  · exact { change with
      stored := fun token held => .inl ((change.stored token held).resolve_right (by rintro ⟨⟩)) }
  · exact Nat.le_refl _
  · intro token member
    exact .inr (congrArg some (mem_singleton.mp member).symm)
  · intro token member held
    rw [mem_singleton.mp member] at held
    exact cleared ((change.stored _ held).resolve_right (by rintro ⟨⟩))
  · rintro _ ⟨⟩
  · rintro _ ⟨⟩
    exact ⟨mem_append_right _ (mem_singleton_self _),
      mem_append_right _ (mem_singleton_self _), rfl, rfl, rfl, rfl, formed.2⟩

theorem Task.claim_complete (completion : Completion) (past : completion.phase ≠ .save) :
    (Task.complete completion).claim = some completion.request.token := if_neg past

theorem complete_fits (unique : before.Unique) (formed : (Task.complete completion).Formed before)
    (cleared : ∀ token, (Task.complete completion).claim = some token → ¬ before.Holds token)
    {raises : Bool} (met : completion.Meets settings before raises) :
    (if raises then completion.fail before else completion.advance settings before).Fits before
      (Task.complete completion).claim := by
  have onward {after : Accounts} (past : completion.phase ≠ .save)
      (change : Accounts.Change none before after) (phase : Phase) (later : phase ≠ .save) :
      (completion.proceed after phase).Fits before (Task.complete completion).claim := by
    have own := Task.claim_complete completion past
    refine proceed_fits change later formed (.inr own) fun held => cleared _ own ?_
    exact (change.stored _ held).resolve_right (by rintro ⟨⟩)
  unfold Completion.Meets at met
  cases phase : completion.phase with
  | save =>
    rw [phase] at met
    have own : (Task.complete completion).claim = none := if_pos phase
    rw [own]
    cases raises with
    | true => exact fail_fits unique met.1 met.2 none
    | false => exact save_fits unique formed met.1 met.2 phase
  | deleteProfile =>
    simp only [phase] at met
    rw [met, if_neg Bool.false_ne_true]
    simp only [Completion.advance, phase]
    exact onward (by rw [phase]; decide) (deleteProfile_change unique _) _ (by decide)
  | deleteUser =>
    simp only [phase] at met
    rw [met, if_neg Bool.false_ne_true]
    simp only [Completion.advance, phase]
    exact onward (by rw [phase]; decide) (deleteUser_change unique _) _ (by decide)
  | checkUsername =>
    simp only [phase] at met
    obtain ⟨quiet, valid, free⟩ := met
    rw [quiet, if_neg Bool.false_ne_true]
    simp only [Completion.advance, phase, valid, free, Bool.not_false, Bool.and_true, if_true]
    exact onward (by rw [phase]; decide) (Change.refl unique none) _ (by decide)
  | checkEmail =>
    simp only [phase] at met
    rw [met.1, if_neg Bool.false_ne_true]
    simp only [Completion.advance, phase, met.2, Bool.false_eq_true, if_false]
    exact onward (by rw [phase]; decide) (Change.refl unique none) _ (by decide)
  | create =>
    simp only [phase] at met
    have own := Task.claim_complete completion (by rw [phase]; decide)
    rw [met.1, if_neg Bool.false_ne_true, own]
    simp only [Completion.advance, phase]
    exact commit_fits unique formed met.2.1 met.2.2 (cleared _ own)

structure World.Sound (world : World) : Prop where
  unique : world.accounts.Unique
  stored : ∀ token, world.accounts.Holds token → token < world.tokens
  once : world.claims.Nodup
  drawn : ∀ token ∈ world.claims, token < world.tokens
  cleared : ∀ token ∈ world.claims, ¬ world.accounts.Holds token
  formed : ∀ task ∈ world.tasks, task.Formed world.accounts
  answers : ∀ answer ∈ world.log, answer.Usable

variable {world next : World} {task : Task} {index : Nat}

theorem nodup_of_short {Item : Type} {items : List Item} (short : items.length ≤ 1) :
    items.Nodup := by
  match items, short with
  | [], _ => exact .nil
  | [item], _ => exact nodup_singleton item

theorem filterMap_toList {Item Value : Type} (read : Item → Option Value) (item : Option Item) :
    item.toList.filterMap read = (item.bind read).toList := by
  cases item with
  | none => rfl
  | some item => cases found : read item <;> simp [found]

theorem claims_settle (current : world.tasks[index]? = some task) (effect : Effect) :
    ∃ others, world.claims.Perm (task.claim.toList ++ others) ∧
      (World.claims { world with
        accounts := effect.accounts
        tasks := TaskPool.settle world.tasks index effect.next
        log := world.log ++ effect.answer.toList }).Perm (effect.claims ++ others) := by
  obtain ⟨rest, whole, settled⟩ := TaskPool.settle_perm current effect.next
  refine ⟨rest.filterMap Task.claim ++ world.log.filterMap Answer.claim, ?_, ?_⟩
  · have moved := (whole.filterMap Task.claim).append_right (world.log.filterMap Answer.claim)
    cases own : task.claim with
    | none => simpa [World.claims, own] using moved
    | some token => simpa [World.claims, own] using moved
  · have moved := (settled.filterMap Task.claim).append_right
      ((world.log ++ effect.answer.toList).filterMap Answer.claim)
    refine moved.trans ?_
    rw [filterMap_append, filterMap_append, filterMap_toList, filterMap_toList,
      Effect.claims, append_assoc, append_assoc, ← append_assoc (rest.filterMap _)]
    exact perm_append_comm.append_left _

theorem apply_sound (sound : world.Sound) (current : world.tasks[index]? = some task)
    {effect : Effect} (fits : effect.Fits world.accounts task.claim) :
    World.Sound { world with
      accounts := effect.accounts
      tasks := TaskPool.settle world.tasks index effect.next
      log := world.log ++ effect.answer.toList } := by
  obtain ⟨others, whole, settled⟩ := claims_settle current effect
  have ownClaim : ∀ token, task.claim = some token → token ∈ world.claims := by
    intro token own
    exact whole.symm.subset (mem_append_left _ (by rw [own]; exact mem_singleton_self _))
  have rest : ∀ token ∈ others, token ∈ world.claims :=
    fun token member => whole.symm.subset (mem_append_right _ member)
  have apart := whole.nodup_iff.mp sound.once
  -- A token of the task is held by no other.
  have mine : ∀ token ∈ others, task.claim ≠ some token := by
    intro token member own
    exact (nodup_append.mp apart).2.2 token (by rw [own]; exact mem_singleton_self _)
      token member rfl
  have below : ∀ token, world.accounts.Holds token ∨ task.claim = some token →
      token < world.tokens := by
    rintro token (held | own)
    · exact sound.stored token held
    · exact sound.drawn token (ownClaim token own)
  have split : ∀ token ∈ World.claims { world with
      accounts := effect.accounts
      tasks := TaskPool.settle world.tasks index effect.next
      log := world.log ++ effect.answer.toList }, token ∈ effect.claims ∨ token ∈ others :=
    fun token member => mem_append.mp (settled.subset member)
  constructor
  · exact fits.change.unique
  · exact fun token held => below token (fits.change.stored token held)
  · rw [settled.nodup_iff, nodup_append]
    refine ⟨?_, (nodup_append.mp apart).2.1, ?_⟩
    · exact nodup_of_short fits.few
    · rintro token member _ other rfl
      rcases fits.claimed token member with held | own
      · exact sound.cleared token (rest token other) held
      · exact mine token other own
  · intro token member
    rcases split token member with new | old
    · exact below token (fits.claimed token new)
    · exact sound.drawn token (rest token old)
  · intro token member held
    rcases split token member with new | old
    · exact fits.cleared token new held
    · rcases fits.change.stored token held with before | own
      · exact sound.cleared token (rest token old) before
      · exact mine token old own
  · intro other member
    rcases TaskPool.mem_settle member with old | new
    · exact (sound.formed other old).mono fits.change.grows
    · exact fits.next other new
  · intro answer member
    rcases mem_append.mp member with old | new
    · exact sound.answers answer old
    · exact fits.answer answer (mem_toList.mp new)

theorem join_sound (sound : world.Sound) {tokens : Nat} (grows : world.tokens ≤ tokens)
    (fresh : ∀ token, task.claim = some token → world.tokens ≤ token ∧ token < tokens)
    (formed : task.Formed world.accounts) :
    World.Sound { world with tokens := tokens, tasks := world.tasks ++ [task] } := by
  have claims : (World.claims { world with tokens := tokens, tasks := world.tasks ++ [task] }).Perm
      (task.claim.toList ++ world.claims) := by
    have one : [task].filterMap Task.claim = task.claim.toList := by
      cases own : task.claim <;> simp [own]
    simp only [World.claims, filterMap_append, one, append_assoc]
    exact perm_append_comm_assoc _ _ _
  have split : ∀ token ∈ World.claims { world with tokens := tokens, tasks := world.tasks ++ [task] },
      task.claim = some token ∨ token ∈ world.claims :=
    fun token member => (mem_append.mp (claims.subset member)).imp_left mem_toList.mp
  constructor
  · exact sound.unique
  · exact fun token held => Nat.lt_of_lt_of_le (sound.stored token held) grows
  · rw [claims.nodup_iff, nodup_append]
    refine ⟨nodup_of_short length_toList_le, sound.once, ?_⟩
    rintro token member _ other rfl
    have new := fresh token (mem_toList.mp member)
    exact absurd (sound.drawn token other) (Nat.not_lt.mpr new.1)
  · intro token member
    rcases split token member with new | old
    · exact (fresh token new).2
    · exact Nat.lt_of_lt_of_le (sound.drawn token old) grows
  · intro token member held
    rcases split token member with new | old
    · exact absurd (sound.stored token held) (Nat.not_lt.mpr (fresh token new).1)
    · exact sound.cleared token old held
  · intro other member
    rcases mem_append.mp member with old | new
    · exact sound.formed other old
    · exact mem_singleton.mp new ▸ formed
  · exact sound.answers

theorem findPending_formed {request : Request} {now : Nat} {completion : Completion}
    (found : findPending now before request = some completion) :
    (Task.complete completion).Formed before ∧ (Task.complete completion).claim = none := by
  obtain ⟨profile, pending, alive⟩ := bind_eq_some_iff.mp found
  have is := find?_some pending
  split at alive
  · obtain ⟨user, _, rfl⟩ := map_eq_some_iff.mp alive
    rw [Bool.and_eq_true, decide_eq_true_eq] at is
    exact ⟨⟨is.1, Nat.le_refl _⟩, rfl⟩
  · cases alive

theorem task_fits (sound : world.Sound) (current : world.tasks[index]? = some task) {raises : Bool}
    (orderly : Orderly settings world (.advance index raises)) :
    (if raises then task.raise world.accounts
      else task.advance settings world.now world.accounts).Fits world.accounts task.claim := by
  have formed := sound.formed task (mem_of_getElem? current)
  have cleared : ∀ token, task.claim = some token → ¬ world.accounts.Holds token := by
    intro token own
    apply sound.cleared token
    exact mem_append_left _ (mem_filterMap.mpr ⟨task, mem_of_getElem? current, own⟩)
  cases task with
  | validate request =>
    cases raises with
    | true => exact fits_of_end sound.unique none
    | false =>
      simp only [Bool.false_eq_true, if_false, Task.advance]
      split
      · exact fits_of_end sound.unique none
      · refine fits_of_change (Change.refl sound.unique none) (by rintro _ ⟨⟩) ?_ ?_
        · rintro _ ⟨⟩
          exact .inl rfl
        · rintro _ ⟨⟩
          exact trivial
  | find request =>
    cases raises with
    | true => exact fits_of_end sound.unique none
    | false =>
      refine fits_of_change (Change.refl sound.unique none) (by rintro _ ⟨⟩) ?_ ?_
      · intro next found
        obtain ⟨completion, pending, rfl⟩ := map_eq_some_iff.mp found
        exact .inl (findPending_formed pending).2
      · intro next found
        obtain ⟨completion, pending, rfl⟩ := map_eq_some_iff.mp found
        exact (findPending_formed pending).1
  | complete completion => exact complete_fits sound.unique formed cleared (orderly _ current)
  | register call =>
    cases raises with
    | true => exact fits_of_end sound.unique _
    | false => exact register_fits sound.unique call (cleared _ rfl) formed
  | manage call =>
    cases raises with
    | true => exact fits_of_end sound.unique _
    | false => exact manage_fits sound.unique call

theorem step_sound (sound : world.Sound) (action : Action)
    (orderly : Orderly settings world action) (taken : step settings world action = some next) :
    next.Sound := by
  cases action with
  | wait ticks =>
    cases taken
    exact { sound with }
  | complete token username language timezone =>
    obtain ⟨name, _, rfl⟩ := map_eq_some_iff.mp taken
    exact join_sound sound (Nat.le_refl _) (by rintro _ ⟨⟩) trivial
  | register email language =>
    cases taken
    refine join_sound sound (Nat.le_succ _) ?_ (by rintro _ ⟨⟩)
    rintro _ ⟨⟩
    exact ⟨Nat.le_refl _, Nat.lt_succ_self _⟩
  | manage username email language timezone =>
    simp only [step] at taken
    split at taken
    · cases taken
    · cases taken
      exact join_sound sound (Nat.le_refl _) (by rintro _ ⟨⟩) trivial
  | advance index raises =>
    obtain ⟨task, current, rfl⟩ := map_eq_some_iff.mp taken
    exact apply_sound sound current (task_fits sound current orderly)

theorem start_sound (start : Start) : start.world.Sound where
  unique := start.unique
  stored := fun token ⟨profile, member, is⟩ => start.drawn profile member token is
  once := .nil
  drawn := by rintro _ ⟨⟩
  cleared := by rintro _ ⟨⟩
  formed := by rintro _ ⟨⟩
  answers := by rintro _ ⟨⟩

theorem World.Sound.usable (sound : world.Sound) : Usable world.log where
  answers := sound.answers
  once := by
    have made : (world.log.filter fun answer => answer.created.isSome).map
        (fun answer => answer.completion.request.token) = world.log.filterMap Answer.claim := by
      induction world.log with
      | nil => rfl
      | cons answer log ih =>
        cases made : answer.created <;>
          simp [made, Answer.claim, ← ih]
    rw [made]
    exact sound.once.sublist (sublist_append_right _ _)

/-- In every run whose steps all meet the condition, every answered completion has made the new
account or left the pending one, and no token has made two. -/
theorem completions_usable {start : Start} {actions : List Action} {finish : World}
    (run : Steps (step settings) (Orderly settings) start.world actions finish) :
    Usable finish.log := by
  have sound := run.invariant World.Sound
    (fun _ action _ sound orderly taken => step_sound sound action orderly taken)
    (start_sound start)
  exact sound.usable

instance (completion : Completion) (accounts : Accounts) (raises : Bool) :
    Decidable (completion.Meets settings accounts raises) :=
  match stands : completion.phase with
  | .save => decidable_of_iff (completion.user ∈ accounts.users.rows ∧
      completion.profile ∈ accounts.profiles.rows) (by simp [Completion.Meets, stands])
  | .deleteProfile | .deleteUser => decidable_of_iff (raises = false)
      (by simp [Completion.Meets, stands])
  | .checkUsername => decidable_of_iff (raises = false ∧
      validateVirtualEmailAlias completion.request.username = true ∧
        accounts.nameTaken completion.request.username = false) (by simp [Completion.Meets, stands])
  | .checkEmail => decidable_of_iff (raises = false ∧
      accounts.emailTaken completion.user.email = false) (by simp [Completion.Meets, stands])
  | .create => decidable_of_iff (raises = false ∧
      accounts.nameTaken completion.request.username = false ∧
        normalizeEmail settings.lower completion.user.email = completion.user.email)
      (by simp [Completion.Meets, stands])

instance (world : World) : (action : Action) → Decidable (Orderly settings world action)
  | .advance index raises =>
    match current : world.tasks[index]? with
    | some (.complete completion) => decidable_of_iff
        (completion.Meets settings world.accounts raises) (by simp [Orderly, current])
    | some (.validate _) | some (.find _) | some (.register _) | some (.manage _) | none =>
      isTrue (by simp [Orderly, current])
  | .wait _ | .complete _ _ _ _ | .register _ _ | .manage _ _ _ _ => isTrue trivial

def defaults : Settings := ⟨id, 86400⟩

def noAccounts : Start where
  accounts := ⟨⟨[], 0, .nil, by rintro _ ⟨⟩⟩, ⟨[], 0, .nil, by rintro _ ⟨⟩⟩⟩
  tokens := 0
  unique := by rintro _ ⟨⟩
  drawn := by rintro _ ⟨⟩

def registers (username : Text) : List Action :=
  .register ['m', '@', 'x'] ['e', 'n'] :: List.replicate 7 (.advance 0 false) ++
    .complete 0 username ['e', 'n'] ['U'] :: List.replicate 8 (.advance 0 false)

theorem completions_usable_once : ∃ finish,
    Steps (step defaults) (Orderly defaults) noAccounts.world (registers ['b', 'o', 'b']) finish ∧
      finish.log.map (fun answer => answer.created.map fun made => made.1.username) =
        [some ['b', 'o', 'b']] ∧ Usable finish.log := by
  have reaches : (execGuarded (step defaults) (Orderly defaults) noAccounts.world
      (registers ['b', 'o', 'b'])).any (fun finish => decide (finish.log.map (fun answer =>
        answer.created.map fun made => made.1.username) = [some ['b', 'o', 'b']])) = true := by
    decide +kernel
  obtain ⟨finish, executed, made⟩ := (any_eq_true _ _).mp reaches
  have run := execGuarded_steps executed
  exact ⟨finish, run, of_decide_eq_true made, completions_usable run⟩

/-- The serializer accepts this name, the second check does not: the pending user is gone. -/
theorem refused_completion_unusable : ∃ finish,
    Reachable (step defaults) noAccounts.world finish ∧ ¬ Usable finish.log := by
  have reaches : (exec (step defaults) noAccounts.world
      ((registers ['a', '-', 'b']).take 15)).any (fun finish => decide (finish.log.map (fun answer =>
        (answer.created, answer.accounts.users.rows)) = [(none, [])])) = true := by
    decide +kernel
  obtain ⟨finish, executed, refused⟩ := (any_eq_true _ _).mp reaches
  refine ⟨finish, ⟨_, exec_steps executed⟩, fun usable => ?_⟩
  obtain ⟨answer, log, same⟩ := map_eq_singleton_iff.mp (of_decide_eq_true refused)
  obtain ⟨failed, gone⟩ := Prod.mk.inj same
  have is := usable.answers answer (by rw [log]; exact mem_singleton_self _)
  simp [Answer.Usable, failed, gone] at is

end SourceLens.Registration
