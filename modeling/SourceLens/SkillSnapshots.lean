import Mathlib.Algebra.GroupWithZero.Nat
import Mathlib.Logic.Function.Basic
import SourceLens.Library.Transition

/-! The snapshots of one Skill package: overlapping updates, each with a Skill loaded at some
earlier moment, and the row that names the snapshot in use. -/

namespace SourceLens.SkillSnapshots

open Transition Function List

abbrev CallId := Nat

abbrev Tree := List (String × List UInt8)

/-- `_package_manifest`. -/
structure Manifest where
  files : List (String × Nat)
  fileCount : Nat
  totalSize : Nat
  deriving DecidableEq

def packageManifest (root : Tree) : Manifest :=
  let files := root.map fun file => (file.1, file.2.length)
  { files := files, fileCount := files.length, totalSize := (files.map Prod.snd).sum }

/-- What is known of archives: the SHA-256 digest, taken to be injective, and the Skill root of
the archives that pass the validation of this Skill. -/
structure Env (Archive Digest : Type) where
  digest : Archive → Digest
  digest_injective : Function.Injective digest
  skillRoot : Archive → Option Tree

/-- The columns of the row that name its snapshot; the snapshot's directory is named by the
digest. -/
structure Row (Digest : Type) where
  packagePath : Digest
  packageHash : Digest
  packageManifest : Manifest
  deriving DecidableEq

/-- The next step of a call; `old` is the package path of the Skill it was given. -/
inductive Phase (Archive Digest : Type)
  | idle
  | fetched (old : Digest)
  | staging (archive : Archive) (root : Tree) (old : Digest)
  | clearing (archive : Archive) (root : Tree) (old : Digest)
  | copying (archive : Archive) (root : Tree) (old : Digest)
  | checking (archive : Archive) (root : Tree) (old : Digest)
  | discarding (archive : Archive) (root : Tree) (old : Digest)
  | moving (archive : Archive) (root : Tree) (old : Digest)
  | saving (archive : Archive) (root : Tree) (old : Digest) (created : Bool)
  /-- The transaction has committed: `_remove_old_package_path`. -/
  | removing (archive : Archive) (old : Digest)
  /-- The handler removes the staged tree, and the package if the call has made it. -/
  | unwinding (archive : Archive) (created : Bool)
  | retracting (archive : Archive)
  | ended
  deriving DecidableEq

structure State (Archive Digest : Type) where
  row : Row Digest
  packages : Digest → Option Tree
  staged : Digest → Option Tree
  calls : CallId → Phase Archive Digest

inductive Action (Archive : Type)
  | fetch (call : CallId)
  | begin (call : CallId) (archive : Archive)
  | perform (call : CallId)
  /-- The step of the call raises. -/
  | fail (call : CallId)
  /-- The process of the call ends. -/
  | crash (call : CallId)
  deriving DecidableEq

variable {Archive Digest : Type} [DecidableEq Digest]

def start (env : Env Archive Digest) (archive : Archive) (root : Tree) : State Archive Digest where
  row :=
    { packagePath := env.digest archive
      packageHash := env.digest archive
      packageManifest := packageManifest root }
  packages := Function.update (fun _ => none) (env.digest archive) (some root)
  staged := fun _ => none
  calls := fun _ => .idle

def setCall (state : State Archive Digest) (call : CallId) (phase : Phase Archive Digest) :
    State Archive Digest :=
  { state with calls := Function.update state.calls call phase }

def stage (state : State Archive Digest) (digest : Digest) (tree : Option Tree) :
    State Archive Digest :=
  { state with staged := Function.update state.staged digest tree }

def place (state : State Archive Digest) (digest : Digest) (tree : Option Tree) :
    State Archive Digest :=
  { state with packages := Function.update state.packages digest tree }

/-- The row as `skill.save` writes it. -/
def save (env : Env Archive Digest) (state : State Archive Digest) (archive : Archive)
    (root : Tree) : State Archive Digest :=
  { state with
    row :=
      { packagePath := env.digest archive
        packageHash := env.digest archive
        packageManifest := packageManifest root } }

/-- One step of `update_skill_zip`. -/
def perform (env : Env Archive Digest) (state : State Archive Digest) (call : CallId) :
    Option (State Archive Digest) :=
  match state.calls call with
  | .idle | .fetched _ | .ended => none
  | .staging archive root old =>
    some (setCall state call (if (state.staged (env.digest archive)).isSome
      then .clearing archive root old else .copying archive root old))
  | .clearing archive root old =>
    -- `rmtree` raises when the tree is gone, and so does `copytree` when there is one
    if (state.staged (env.digest archive)).isSome then
      some (setCall (stage state (env.digest archive) none) call (.copying archive root old))
    else some (setCall state call .ended)
  | .copying archive root old =>
    if (state.staged (env.digest archive)).isSome then some (setCall state call .ended)
    else some (setCall (stage state (env.digest archive) (some root)) call
      (.checking archive root old))
  | .checking archive root old =>
    some (setCall state call (if (state.packages (env.digest archive)).isSome
      then .discarding archive root old else .moving archive root old))
  | .discarding archive root old =>
    if (state.staged (env.digest archive)).isSome then
      some (setCall (stage state (env.digest archive) none) call
        (.saving archive root old false))
    else some (setCall state call (.unwinding archive false))
  | .moving archive root old =>
    match state.staged (env.digest archive), state.packages (env.digest archive) with
    | some tree, none => some (setCall (stage (place state (env.digest archive) (some tree))
        (env.digest archive) none) call (.saving archive root old true))
    | _, _ => some (setCall state call (.unwinding archive false))
  | .saving archive root old _ =>
    some (setCall (save env state archive root) call (.removing archive old))
  | .removing archive old =>
    some (setCall (if old = env.digest archive then state else place state old none) call .ended)
  | .unwinding archive created =>
    some (setCall (stage state (env.digest archive) none) call
      (if created then .retracting archive else .ended))
  | .retracting archive => some (setCall (place state (env.digest archive) none) call .ended)

/-- What a call does when a step of it raises; errors of the removals are ignored. -/
def unwind : Phase Archive Digest → Phase Archive Digest
  | .checking archive _ _ | .discarding archive _ _ | .moving archive _ _ =>
    .unwinding archive false
  | .saving archive _ _ created => .unwinding archive created
  | .unwinding archive true => .retracting archive
  | .idle | .fetched _ | .staging _ _ _ | .clearing _ _ _ | .copying _ _ _ | .removing _ _
  | .unwinding _ false | .retracting _ | .ended => .ended

def step (env : Env Archive Digest) (state : State Archive Digest) :
    Action Archive → Option (State Archive Digest)
  | .fetch call =>
    match state.calls call with
    | .idle => some (setCall state call (.fetched state.row.packagePath))
    | _ => none
  | .begin call archive =>
    match state.calls call with
    | .fetched old =>
      match env.skillRoot archive with
      | some root => some (setCall state call (.staging archive root old))
      | none => some (setCall state call .ended)
    | _ => none
  | .perform call => perform env state call
  | .fail call => some (setCall state call (unwind (state.calls call)))
  | .crash call => some (setCall state call .ended)

/-- The row names a snapshot that exists, holds the Skill root of an archive with the row's
hash, and is the one the row's manifest describes. -/
def Consistent (env : Env Archive Digest) (state : State Archive Digest) : Prop :=
  ∃ archive root, env.digest archive = state.row.packageHash ∧
    env.skillRoot archive = some root ∧ state.packages state.row.packagePath = some root ∧
      state.row.packageManifest = packageManifest root

/-- The call is going to commit with a package that it has found or made. -/
def relies (env : Env Archive Digest) (phase : Phase Archive Digest) (digest : Digest) : Bool :=
  match phase with
  | .discarding archive _ _ | .saving archive _ _ _ => decide (env.digest archive = digest)
  | _ => false

def removes (env : Env Archive Digest) : Phase Archive Digest → Option Digest
  | .removing archive old => if old = env.digest archive then none else some old
  | .retracting archive => some (env.digest archive)
  | _ => none

/-- No call removes the package that the row names, or that another call relies on. -/
def Unshared (env : Env Archive Digest) (state : State Archive Digest) : Action Archive → Prop
  | .perform call => ∀ digest ∈ removes env (state.calls call),
      state.row.packagePath ≠ digest ∧
        ∀ other, relies env (state.calls other) digest = false
  | _ => True

def Intact (env : Env Archive Digest) (trees : Digest → Option Tree) : Prop :=
  ∀ digest tree, trees digest = some tree →
    ∃ archive, env.digest archive = digest ∧ env.skillRoot archive = some tree

def Valid (env : Env Archive Digest) (packages : Digest → Option Tree) :
    Phase Archive Digest → Prop
  | .idle | .fetched _ | .removing _ _ | .unwinding _ _ | .retracting _ | .ended => True
  | .staging archive root _ | .clearing archive root _ | .copying archive root _
  | .checking archive root _ | .moving archive root _ => env.skillRoot archive = some root
  | .discarding archive root _ | .saving archive root _ _ =>
    env.skillRoot archive = some root ∧ (packages (env.digest archive)).isSome = true

structure Inv (env : Env Archive Digest) (state : State Archive Digest) : Prop where
  packages : Intact env state.packages
  staged : Intact env state.staged
  calls : ∀ call, Valid env state.packages (state.calls call)
  row : ∃ archive root, env.digest archive = state.row.packageHash ∧
    state.row.packagePath = state.row.packageHash ∧ env.skillRoot archive = some root ∧
      state.row.packageManifest = packageManifest root
  present : (state.packages state.row.packagePath).isSome = true

variable {env : Env Archive Digest} {state next : State Archive Digest}

theorem update_present (trees : Digest → Option Tree) (digest : Digest) (tree : Tree) :
    (Function.update trees digest (some tree) digest).isSome = true := by
  rw [update_self]
  rfl

theorem Intact.update {trees : Digest → Option Tree} (intact : Intact env trees)
    {digest : Digest} {tree : Option Tree}
    (known : ∀ root ∈ tree, ∃ archive, env.digest archive = digest ∧
      env.skillRoot archive = some root) :
    Intact env (Function.update trees digest tree) := by
  intro place root found
  by_cases same : place = digest
  · subst same
    rw [update_self] at found
    exact known root found
  · rw [update_of_ne same] at found
    exact intact place root found

omit [DecidableEq Digest] in
theorem Inv.consistent (inv : Inv env state) : Consistent env state := by
  obtain ⟨archive, root, hash, path, known, manifest⟩ := inv.row
  obtain ⟨tree, found⟩ := Option.isSome_iff_exists.mp inv.present
  obtain ⟨other, same, held⟩ := inv.packages _ tree found
  have equal : other = archive := by
    apply env.digest_injective
    calc env.digest other
      _ = state.row.packagePath := same
      _ = state.row.packageHash := path
      _ = env.digest archive := hash.symm
  rw [equal, known] at held
  cases held
  exact ⟨archive, root, hash, known, found, manifest⟩

omit [DecidableEq Digest] in
theorem Inv.setCall (inv : Inv env state) (call : CallId) {phase : Phase Archive Digest}
    (valid : Valid env state.packages phase) : Inv env (setCall state call phase) := by
  refine ⟨inv.packages, inv.staged, fun other => ?_, inv.row, inv.present⟩
  dsimp only [SkillSnapshots.setCall]
  by_cases same : other = call
  · rw [same, update_self]
    exact valid
  · rw [update_of_ne same]
    exact inv.calls other

theorem Inv.stage (inv : Inv env state) {digest : Digest} {tree : Option Tree}
    (known : ∀ root ∈ tree, ∃ archive, env.digest archive = digest ∧
      env.skillRoot archive = some root) : Inv env (stage state digest tree) :=
  { inv with staged := inv.staged.update known }

theorem Inv.unstage (inv : Inv env state) (digest : Digest) : Inv env (SkillSnapshots.stage state digest none) :=
  inv.stage fun _ no => by cases no

theorem Inv.place (inv : Inv env state) {digest : Digest} {tree : Option Tree}
    (known : ∀ root ∈ tree, ∃ archive, env.digest archive = digest ∧
      env.skillRoot archive = some root)
    (unneeded : tree = none → state.row.packagePath ≠ digest ∧
      ∀ other, relies env (state.calls other) digest = false) :
    Inv env (place state digest tree) := by
  have kept : ∀ needed : Digest, (tree = none → needed ≠ digest) →
      (state.packages needed).isSome = true →
        (Function.update state.packages digest tree needed).isSome = true := by
    intro needed other found
    by_cases same : needed = digest
    · rw [same, update_self]
      cases tree with
      | none => exact absurd same (other rfl)
      | some root => rfl
    · rwa [update_of_ne same]
  refine ⟨inv.packages.update known, inv.staged, fun other => ?_, inv.row,
    kept _ (fun none => (unneeded none).1) inv.present⟩
  have valid := inv.calls other
  dsimp only [SkillSnapshots.place]
  cases phase : state.calls other with
  | discarding archive root old | saving archive root old created =>
    rw [phase] at valid
    refine ⟨valid.1, kept _ (fun none => ?_) valid.2⟩
    have free := (unneeded none).2 other
    rw [phase] at free
    exact of_decide_eq_false free
  | idle | fetched | removing | unwinding | retracting | ended => trivial
  | staging | clearing | copying | checking | moving =>
    rw [phase] at valid
    exact valid

theorem Inv.perform (inv : Inv env state) {call : CallId}
    (unshared : Unshared env state (.perform call)) (taken : perform env state call = some next) :
    Inv env next := by
  have valid := inv.calls call
  dsimp only [SkillSnapshots.perform] at taken
  dsimp only [Unshared] at unshared
  cases phase : state.calls call with
  | idle | fetched | ended =>
    rw [phase] at taken
    cases taken
  | staging archive root old =>
    rw [phase] at taken valid
    cases taken
    apply inv.setCall call
    split
    · exact valid
    · exact valid
  | clearing archive root old =>
    rw [phase] at taken valid
    dsimp only at taken
    split at taken
    · cases taken
      exact (inv.unstage _).setCall call valid
    · cases taken
      exact inv.setCall call trivial
  | copying archive root old =>
    rw [phase] at taken valid
    dsimp only at taken
    split at taken
    · cases taken
      exact inv.setCall call trivial
    · cases taken
      refine Inv.setCall (inv.stage fun tree same => ?_) call valid
      cases same
      exact ⟨archive, rfl, valid⟩
  | checking archive root old =>
    rw [phase] at taken valid
    cases taken
    apply inv.setCall call
    split
    · rename_i found
      exact ⟨valid, found⟩
    · exact valid
  | discarding archive root old =>
    rw [phase] at taken valid
    dsimp only at taken
    split at taken
    · cases taken
      exact (inv.unstage _).setCall call valid
    · cases taken
      exact inv.setCall call trivial
  | moving archive root old =>
    rw [phase] at taken valid
    dsimp only at taken
    split at taken
    · rename_i tree staged _
      cases taken
      have placed : Inv env (SkillSnapshots.place state (env.digest archive) (some tree)) := by
        apply inv.place
        · intro root same
          cases same
          exact inv.staged _ tree staged
        · exact fun no => by cases no
      refine (placed.unstage _).setCall call ⟨valid, ?_⟩
      exact update_present _ _ _
    · cases taken
      exact inv.setCall call trivial
  | saving archive root old created =>
    rw [phase] at taken valid
    cases taken
    have saved : Inv env (save env state archive root) :=
      { inv with row := ⟨archive, root, rfl, rfl, valid.1, rfl⟩, present := valid.2 }
    exact saved.setCall call trivial
  | removing archive old =>
    rw [phase] at taken unshared
    cases taken
    refine Inv.setCall ?_ call trivial
    split
    · exact inv
    · rename_i different
      exact inv.place (fun _ no => by cases no) fun _ => unshared old (if_neg different)
  | unwinding archive created =>
    rw [phase] at taken
    cases taken
    apply (inv.unstage _).setCall call
    split <;> trivial
  | retracting archive =>
    rw [phase] at taken unshared
    cases taken
    exact Inv.setCall (inv.place (fun _ no => by cases no) fun _ => unshared _ rfl) call trivial

theorem Inv.step (inv : Inv env state) {action : Action Archive}
    (unshared : Unshared env state action) (taken : step env state action = some next) :
    Inv env next := by
  cases action with
  | fetch call =>
    simp only [SkillSnapshots.step] at taken
    split at taken
    · cases taken
      exact inv.setCall call trivial
    · cases taken
  | begin call archive =>
    simp only [SkillSnapshots.step] at taken
    split at taken
    · split at taken
      · rename_i root known
        cases taken
        exact inv.setCall call known
      · cases taken
        exact inv.setCall call trivial
    · cases taken
  | perform call => exact inv.perform unshared taken
  | fail call =>
    cases taken
    apply inv.setCall call
    cases state.calls call with
    | unwinding archive created => cases created <;> trivial
    | _ => trivial
  | crash call =>
    cases taken
    exact inv.setCall call trivial

theorem Inv.start {archive : Archive} {root : Tree} (accepted : env.skillRoot archive = some root) :
    Inv env (start env archive root) where
  packages := by
    refine Intact.update (fun _ _ no => by cases no) fun tree same => ?_
    cases same
    exact ⟨archive, rfl, accepted⟩
  staged := fun _ _ no => by cases no
  calls := fun _ => trivial
  row := ⟨archive, root, rfl, rfl, accepted, rfl⟩
  present := by
    dsimp only [SkillSnapshots.start]
    exact update_present _ _ _

/-- Along every run in which no call removes a package in use, the row names a complete
snapshot. -/
theorem snapshot_consistent (env : Env Archive Digest) (archive : Archive) (root : Tree)
    (accepted : env.skillRoot archive = some root) (actions : List (Action Archive))
    (state : State Archive Digest)
    (run : Steps (step env) (Unshared env) (start env archive root) actions state) :
    Consistent env state :=
  (run.invariant (Inv env) (fun _ _ _ inv unshared taken => inv.step unshared taken)
    (.start accepted)).consistent

/-- Archives are told apart by a number, and each holds one file. -/
def numbered : Env Nat Nat where
  digest := id
  digest_injective := injective_id
  skillRoot := fun number => some [("SKILL.md", [number.toUInt8])]

def imported : State Nat Nat := start numbered 0 [("SKILL.md", [0])]

def performs (call : CallId) (steps : Nat) : List (Action Nat) :=
  List.replicate steps (.perform call)

def caller : Action Nat → CallId
  | .fetch call | .begin call _ | .perform call | .fail call | .crash call => call

/-- `Unshared` where there are two calls. -/
def Checked (state : State Nat Nat) (action : Action Nat) : Prop :=
  caller action < 2 ∧ match action with
    | .perform call => ∀ digest ∈ removes numbered (state.calls call),
        state.row.packagePath ≠ digest ∧
          ∀ other < 2, relies numbered (state.calls other) digest = false
    | _ => True

instance (state : State Nat Nat) (action : Action Nat) : Decidable (Checked state action) :=
  match action with
  | .perform call => inferInstanceAs (Decidable (call < 2 ∧
      ∀ digest ∈ removes numbered (state.calls call), state.row.packagePath ≠ digest ∧
        ∀ other < 2, relies numbered (state.calls other) digest = false))
  | .fetch call | .begin call _ | .fail call | .crash call =>
    inferInstanceAs (Decidable (call < 2 ∧ True))

def TwoCalls (state : State Nat Nat) : Prop := ∀ call, 2 ≤ call → state.calls call = .idle

theorem step_frame {state next : State Nat Nat} {action : Action Nat}
    (taken : step numbered state action = some next) {call : CallId} (other : call ≠ caller action) :
    next.calls call = state.calls call := by
  cases action with
  | perform actor =>
    simp only [SkillSnapshots.step, SkillSnapshots.perform] at taken
    repeat' split at taken
    all_goals cases taken
    all_goals exact update_of_ne other ..
  | _ =>
    simp only [SkillSnapshots.step] at taken
    repeat' split at taken
    all_goals cases taken
    all_goals exact update_of_ne other ..

theorem twoCalls_step (state : State Nat Nat) (action : Action Nat) (next : State Nat Nat)
    (two : TwoCalls state) (checked : Checked state action)
    (taken : step numbered state action = some next) : TwoCalls next := by
  intro call large
  have other : call ≠ caller action := by
    rintro rfl
    exact Nat.not_lt_of_le large checked.1
  rw [step_frame taken other, two call large]

theorem unshared_of_checked (state : State Nat Nat) (action : Action Nat) (two : TwoCalls state)
    (checked : Checked state action) : Unshared numbered state action := by
  cases action with
  | perform call =>
    intro digest member
    obtain ⟨row, calls⟩ := checked.2 digest member
    refine ⟨row, fun other => ?_⟩
    by_cases small : other < 2
    · exact calls other small
    · rw [two other (Nat.le_of_not_lt small)]
      rfl
  | _ => trivial

/-- The Skill is updated to another archive and back, one call after the other. -/
def updatedInTurn : List (Action Nat) :=
  [.fetch 0, .begin 0 1] ++ performs 0 6 ++ [.fetch 1, .begin 1 0] ++ performs 1 6

theorem snapshot_consistent_in_turn : ∃ state,
    Steps (step numbered) (Unshared numbered) imported updatedInTurn state ∧
      state.calls 0 = .ended ∧ state.calls 1 = .ended ∧ Consistent numbered state := by
  have executed : (execGuarded (step numbered) Checked imported updatedInTurn).map
      (fun state => (state.calls 0, state.calls 1)) = some (.ended, .ended) := by
    decide +kernel
  obtain ⟨state, ran, ended⟩ := Option.map_eq_some_iff.mp executed
  have run : Steps (step numbered) (Unshared numbered) imported updatedInTurn state :=
    (execGuarded_steps ran).implied TwoCalls twoCalls_step unshared_of_checked fun _ _ => rfl
  exact ⟨state, run, congrArg Prod.fst ended, congrArg Prod.snd ended,
    snapshot_consistent numbered 0 _ rfl updatedInTurn state run⟩

/-- The second call finds the first snapshot before the first call removes it. -/
def updatedBack : List (Action Nat) :=
  [.fetch 0, .begin 0 1] ++ performs 0 5 ++ [.fetch 1, .begin 1 0] ++ performs 1 6 ++ [.perform 0]

theorem snapshot_removed : ∃ state, Steps (step numbered) Any imported updatedBack state ∧
    (∀ call, state.calls call = .idle ∨ state.calls call = .ended) ∧
      ¬Consistent numbered state := by
  have executed : (exec (step numbered) imported updatedBack).map
      (fun state => (state.calls 0, state.calls 1, (state.packages state.row.packagePath).isSome)) =
        some (.ended, .ended, false) := by
    decide +kernel
  obtain ⟨state, ran, facts⟩ := Option.map_eq_some_iff.mp executed
  simp only [Prod.mk.injEq] at facts
  obtain ⟨first, second, gone⟩ := facts
  have run := exec_steps ran
  have two : Steps (step numbered) (fun _ action => caller action < 2) imported updatedBack state :=
    run.everywhere fun action member _ =>
      (by decide : ∀ action ∈ updatedBack, caller action < 2) action member
  refine ⟨state, run, fun call => ?_, ?_⟩
  · match call with
    | 0 => exact .inr first
    | 1 => exact .inr second
    | large + 2 =>
      have idle : TwoCalls state := by
        refine two.invariant TwoCalls ?_ fun _ _ => rfl
        intro state action next holds small taken call many
        have other : call ≠ caller action := by
          rintro rfl
          exact Nat.not_lt_of_le many small
        rw [step_frame taken other, holds call many]
      exact .inl (idle _ (Nat.le_add_left 2 large))
  · rintro ⟨archive, root, -, -, found, -⟩
    rw [found] at gone
    cases gone

end SourceLens.SkillSnapshots
