import Mathlib.Logic.Basic

/-! A counter that overlapping workers check and then increment, reading and writing it in
separate steps. -/

namespace SourceLens.SharedCounter

inductive Worker
  | idle
  /-- The check has found the counter below its limit. -/
  | checked
  | read (value : Nat)
  /-- The value that the worker has written. -/
  | counted (value : Nat)
  | refused
  deriving DecidableEq

def Worker.isCounted : Worker → Bool
  | .counted _ => true
  | _ => false

def Worker.inFlight : Worker → Bool
  | .checked => true
  | .read _ => true
  | _ => false

structure Counter where
  used : Nat
  workers : List Worker
  deriving DecidableEq

def fresh : Counter := ⟨0, []⟩

def Counter.enter (counter : Counter) (worker : Worker) : Counter :=
  { counter with workers := counter.workers ++ [worker] }

def Counter.verdict (counter : Counter) (limit : Nat) : Worker :=
  if counter.used < limit then .checked else .refused

def Counter.check (counter : Counter) (limit index : Nat) : Option Counter :=
  if counter.workers[index]? = some .idle then
    some { counter with workers := counter.workers.set index (counter.verdict limit) }
  else none

def Counter.read (counter : Counter) (index : Nat) : Option Counter :=
  if counter.workers[index]? = some .checked then
    some { counter with workers := counter.workers.set index (.read counter.used) }
  else none

def Counter.write (counter : Counter) (index : Nat) : Option Counter :=
  match counter.workers[index]? with
  | some (.read value) =>
    some { used := value + 1, workers := counter.workers.set index (.counted (value + 1)) }
  | _ => none

def Counter.Room (counter : Counter) (limit : Nat) : Prop :=
  counter.used < limit → counter.used + counter.workers.countP Worker.inFlight < limit

/-- The value that a worker has read is still that of the counter. -/
def Counter.Current (counter : Counter) (index : Nat) : Prop :=
  ∀ value, counter.workers[index]? = some (.read value) → value = counter.used

instance (counter : Counter) (limit : Nat) : Decidable (counter.Room limit) :=
  inferInstanceAs (Decidable (_ → _))

instance (counter : Counter) (index : Nat) : Decidable (counter.Current index) :=
  match read : counter.workers[index]? with
  | some (.read value) =>
    decidable_of_iff (value = counter.used) (by simp [Counter.Current, read])
  | some .idle => .isTrue (by simp [Counter.Current, read])
  | some .checked => .isTrue (by simp [Counter.Current, read])
  | some (Worker.counted _) => .isTrue (by simp [Counter.Current, read])
  | some .refused => .isTrue (by simp [Counter.Current, read])
  | none => .isTrue (by simp [Counter.Current, read])

structure Counter.Sound (counter : Counter) : Prop where
  total : counter.workers.countP Worker.isCounted = counter.used
  below : ∀ (index value : Nat), counter.workers[index]? = some (Worker.counted value) →
    value ≤ counter.used
  unique : ∀ (first second value : Nat), counter.workers[first]? = some (Worker.counted value) →
    counter.workers[second]? = some (Worker.counted value) → first = second

def Counter.Within (counter : Counter) (limit : Nat) : Prop :=
  counter.used + counter.workers.countP Worker.inFlight ≤ limit

variable {counter next : Counter} {limit index : Nat} {worker before : Worker}

theorem fresh_sound : fresh.Sound :=
  ⟨rfl, fun _ _ no => by (cases no), fun _ _ _ no => by (cases no)⟩

theorem fresh_within : fresh.Within limit := Nat.zero_le _

theorem countP_set_add (test : Worker → Bool) (worker : Worker) {workers : List Worker}
    (known : workers[index]? = some before) :
    (workers.set index worker).countP test + (test before).toNat =
      workers.countP test + (test worker).toNat := by
  induction workers generalizing index with
  | nil => cases known
  | cons head rest ih =>
    cases index with
    | zero =>
      cases known
      rw [List.set_cons_zero, List.countP_cons, List.countP_cons]
      cases test before <;> cases test worker <;> simp
    | succ index =>
      have later := ih (List.getElem?_cons_succ.symm.trans known)
      rw [List.set_cons_succ, List.countP_cons, List.countP_cons]
      omega

theorem Counter.Sound.moved (sound : counter.Sound) (known : counter.workers[index]? = some before)
    (uncounted : before.isCounted = false) (still : worker.isCounted = false) :
    Counter.Sound { counter with workers := counter.workers.set index worker } := by
  have counted : ∀ (other value : Nat), (counter.workers.set index worker)[other]? =
      some (Worker.counted value) → counter.workers[other]? = some (Worker.counted value) := by
    intro other value is
    rw [List.getElem?_set] at is
    split at is
    · split at is
      · cases is
        cases still
      · cases is
    · exact is
  constructor
  · have moved := countP_set_add Worker.isCounted worker known
    rw [uncounted, still] at moved
    exact moved.trans sound.total
  · exact fun other value is => sound.below other value (counted other value is)
  · exact fun first second value one two =>
      sound.unique first second value (counted first value one) (counted second value two)

theorem Counter.Sound.enter (sound : counter.Sound) (uncounted : worker.isCounted = false) :
    (counter.enter worker).Sound := by
  have counted : ∀ (other value : Nat), (counter.workers ++ [worker])[other]? =
      some (Worker.counted value) → counter.workers[other]? = some (Worker.counted value) := by
    intro other value is
    rw [List.getElem?_append] at is
    split at is
    · exact is
    · rw [List.getElem?_singleton] at is
      split at is
      · cases is
        cases uncounted
      · cases is
  constructor
  · rw [Counter.enter, List.countP_append, List.countP_singleton, uncounted, sound.total]
    rfl
  · exact fun other value is => sound.below other value (counted other value is)
  · exact fun first second value one two =>
      sound.unique first second value (counted first value one) (counted second value two)

theorem verdict_uncounted : (counter.verdict limit).isCounted = false := by
  rw [Counter.verdict]
  split <;> rfl

theorem Counter.Sound.check (sound : counter.Sound) (taken : counter.check limit index = some next) :
    next.Sound := by
  rw [Counter.check] at taken
  split at taken
  · rename_i known
    cases taken
    exact sound.moved known rfl verdict_uncounted
  · cases taken

theorem Counter.Sound.read (sound : counter.Sound) (taken : counter.read index = some next) :
    next.Sound := by
  rw [Counter.read] at taken
  split at taken
  · rename_i known
    cases taken
    exact sound.moved known rfl rfl
  · cases taken

theorem write_cases (taken : counter.write index = some next) :
    ∃ value, counter.workers[index]? = some (.read value) ∧
      next = ⟨value + 1, counter.workers.set index (.counted (value + 1))⟩ := by
  rw [Counter.write] at taken
  split at taken
  · rename_i value known
    cases taken
    exact ⟨value, known, rfl⟩
  · cases taken

theorem Counter.Sound.write (sound : counter.Sound) (current : counter.Current index)
    (taken : counter.write index = some next) : next.Sound := by
  obtain ⟨value, known, rfl⟩ := write_cases taken
  have is := current value known
  subst is
  have counted : ∀ (other value : Nat), (counter.workers.set index
      (.counted (counter.used + 1)))[other]? = some (Worker.counted value) →
        other = index ∧ value = counter.used + 1 ∨
          counter.workers[other]? = some (Worker.counted value) := by
    intro other value is
    rw [List.getElem?_set] at is
    split at is
    · rename_i same
      split at is
      · cases is
        exact .inl ⟨same.symm, rfl⟩
      · cases is
    · exact .inr is
  constructor
  · have moved := countP_set_add Worker.isCounted (.counted (counter.used + 1)) known
    exact moved.trans (congrArg (· + 1) sound.total)
  · intro other value is
    rcases counted other value is with ⟨-, rfl⟩ | old
    · exact Nat.le_refl _
    · exact Nat.le_succ_of_le (sound.below other value old)
  · intro first second value one two
    rcases counted first value one with ⟨rfl, rfl⟩ | earlier
    · rcases counted second _ two with ⟨rfl, -⟩ | later
      · rfl
      · exact absurd (sound.below second _ later) (Nat.not_succ_le_self _)
    · rcases counted second value two with ⟨rfl, rfl⟩ | later
      · exact absurd (sound.below first _ earlier) (Nat.not_succ_le_self _)
      · exact sound.unique first second value earlier later

theorem Counter.Within.verdict (within : counter.Within limit) (room : counter.Room limit) :
    counter.used + counter.workers.countP Worker.inFlight +
      (counter.verdict limit).inFlight.toNat ≤ limit := by
  rw [Counter.verdict]
  split
  · rename_i below
    exact room below
  · exact within

theorem Counter.Within.enter_checked (room : counter.Room limit) (below : counter.used < limit) :
    (counter.enter .checked).Within limit := by
  have fits := room below
  rw [Counter.Within, Counter.enter, List.countP_append]
  exact fits

theorem Counter.Within.enter_idle (within : counter.Within limit) :
    (counter.enter .idle).Within limit := by
  rw [Counter.Within, Counter.enter, List.countP_append]
  exact within

theorem Counter.Within.check (within : counter.Within limit) (room : counter.Room limit)
    (taken : counter.check limit index = some next) : next.Within limit := by
  rw [Counter.check] at taken
  split at taken
  · rename_i known
    cases taken
    have moved := countP_set_add Worker.inFlight (counter.verdict limit) known
    have fits := within.verdict room
    have idle : Worker.idle.inFlight.toNat = 0 := rfl
    rw [Counter.Within]
    dsimp only
    omega
  · cases taken

theorem Counter.Within.read (within : counter.Within limit)
    (taken : counter.read index = some next) : next.Within limit := by
  rw [Counter.read] at taken
  split at taken
  · rename_i known
    cases taken
    have moved := countP_set_add Worker.inFlight (.read counter.used) known
    have still : Worker.checked.inFlight.toNat = (Worker.read counter.used).inFlight.toNat := rfl
    rw [Counter.Within] at within ⊢
    dsimp only
    omega
  · cases taken

theorem Counter.Within.write (within : counter.Within limit) (current : counter.Current index)
    (taken : counter.write index = some next) : next.Within limit := by
  obtain ⟨value, known, rfl⟩ := write_cases taken
  have is := current value known
  subst is
  have moved := countP_set_add Worker.inFlight (.counted (counter.used + 1)) known
  rw [Counter.Within] at within ⊢
  have gone : (Worker.read counter.used).inFlight.toNat = 1 := rfl
  have landed : (Worker.counted (counter.used + 1)).inFlight.toNat = 0 := rfl
  dsimp only
  omega

def Counter.Keeps (counter next : Counter) : Prop :=
  ∀ (index value : Nat), counter.workers[index]? = some (Worker.counted value) →
    next.workers[index]? = some (Worker.counted value)

theorem moved_keeps (known : counter.workers[index]? = some before)
    (uncounted : before.isCounted = false) :
    counter.Keeps { used := limit, workers := counter.workers.set index worker } := by
  intro other value is
  rw [List.getElem?_set_ne]
  · exact is
  · rintro rfl
    rw [known] at is
    cases is
    cases uncounted

theorem enter_keeps : counter.Keeps (counter.enter worker) := by
  intro other value is
  obtain ⟨inside, -⟩ := List.getElem?_eq_some_iff.mp is
  rw [Counter.enter, List.getElem?_append_left inside]
  exact is

theorem read_keeps (taken : counter.read index = some next) : counter.Keeps next := by
  rw [Counter.read] at taken
  split at taken
  · rename_i known
    cases taken
    exact moved_keeps known rfl
  · cases taken

theorem write_keeps (taken : counter.write index = some next) : counter.Keeps next := by
  obtain ⟨value, known, rfl⟩ := write_cases taken
  exact moved_keeps known rfl

end SourceLens.SharedCounter
