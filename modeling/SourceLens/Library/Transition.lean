import Mathlib.Init

/-! Finite runs of a guarded partial step function, and the induction rules for
their invariants. -/

namespace SourceLens.Transition

variable {State Action : Type*}

variable {start finish : State} {actions : List Action} {other : State → Action → Prop}
  {Related : State → State → Prop}

/-- `Steps step guard start actions finish`: the actions run from `start` to
`finish`, and every one of them meets the guard in the state it is taken in. -/
inductive Steps (step : State → Action → Option State) (guard : State → Action → Prop) :
    State → List Action → State → Prop
  | nil (state : State) : Steps step guard state [] state
  | cons {state next finish : State} {action : Action} {rest : List Action}
      (allowed : guard state action) (taken : step state action = some next)
      (later : Steps step guard next rest finish) :
      Steps step guard state (action :: rest) finish

def Any : State → Action → Prop := fun _ _ => True

def Reachable (step : State → Action → Option State) (start finish : State) : Prop :=
  ∃ actions, Steps step Any start actions finish

/-- The executable run: `none` as soon as a step is not enabled. -/
def exec (step : State → Action → Option State) : State → List Action → Option State
  | state, [] => some state
  | state, action :: rest => (step state action).bind fun next => exec step next rest

variable {step : State → Action → Option State} {guard : State → Action → Prop}

theorem Steps.invariant (Inv : State → Prop)
    (preserved : ∀ state action next, Inv state → guard state action →
      step state action = some next → Inv next) (run : Steps step guard start actions finish)
    (initial : Inv start) : Inv finish := by
  induction run with
  | nil state => exact initial
  | cons allowed taken later ih => exact ih (preserved _ _ _ initial allowed taken)

theorem Steps.implied (Inv : State → Prop)
    (preserved : ∀ state action next, Inv state → guard state action →
      step state action = some next → Inv next)
    (implies : ∀ state action, Inv state → guard state action → other state action)
    (run : Steps step guard start actions finish) (initial : Inv start) :
    Steps step other start actions finish := by
  induction run with
  | nil state => exact .nil state
  | cons allowed taken later ih =>
    exact .cons (implies _ _ initial allowed) taken (ih (preserved _ _ _ initial allowed taken))

theorem Steps.append {middle : State} {front back : List Action}
    (first : Steps step guard start front middle) (second : Steps step guard middle back finish) :
    Steps step guard start (front ++ back) finish := by
  induction first with
  | nil state => exact second
  | cons allowed taken later ih => exact .cons allowed taken (ih second)

theorem Steps.weaken {weaker : State → Action → Prop}
    (implied : ∀ state action, guard state action → weaker state action)
    (run : Steps step guard start actions finish) : Steps step weaker start actions finish := by
  induction run with
  | nil state => exact .nil state
  | cons allowed taken later ih => exact .cons (implied _ _ allowed) taken ih

theorem Steps.everywhere (run : Steps step guard start actions finish)
    (allowed : ∀ action ∈ actions, ∀ state, other state action) :
    Steps step other start actions finish := by
  induction run with
  | nil state => exact .nil state
  | cons _ taken later ih =>
    exact .cons (allowed _ (List.mem_cons_self ..) _) taken
      (ih fun action member => allowed action (List.mem_cons_of_mem _ member))

theorem Steps.single {state next : State} {action : Action} (allowed : guard state action)
    (taken : step state action = some next) : Steps step guard state [action] next :=
  .cons allowed taken (.nil next)

theorem Reachable.invariant (Inv : State → Prop)
    (preserved : ∀ state action next, Inv state → step state action = some next → Inv next)
    (reached : Reachable step start finish) (initial : Inv start) : Inv finish := by
  rcases reached with ⟨actions, run⟩
  exact run.invariant Inv (fun state action next holds _ taken =>
    preserved state action next holds taken) initial

theorem exec_steps (executed : exec step start actions = some finish) :
    Steps step Any start actions finish := by
  induction actions generalizing start with
  | nil =>
    cases executed
    exact .nil _
  | cons action rest ih =>
    simp only [exec, Option.bind_eq_some_iff] at executed
    rcases executed with ⟨next, taken, later⟩
    exact .cons trivial taken (ih later)

theorem Steps.exec_eq (run : Steps step guard start actions finish) :
    exec step start actions = some finish := by
  induction run with
  | nil state => rfl
  | cons allowed taken later ih => rw [exec, taken, Option.bind_some, ih]

theorem exec_reachable (executed : exec step start actions = some finish) :
    Reachable step start finish :=
  ⟨actions, exec_steps executed⟩

theorem Steps.split {front back : List Action} (run : Steps step guard start (front ++ back) finish) :
    ∃ middle, Steps step guard start front middle ∧ Steps step guard middle back finish := by
  induction front generalizing start with
  | nil => exact ⟨start, .nil start, run⟩
  | cons action rest ih =>
    cases run with
    | cons allowed taken later =>
      rcases ih later with ⟨middle, first, second⟩
      exact ⟨middle, .cons allowed taken first, second⟩

theorem Steps.agree {first second : State} (run : Steps step guard start actions first)
    (again : Steps step other start actions second) : first = second := by
  have same := run.exec_eq
  rw [again.exec_eq] at same
  exact (Option.some.inj same).symm

/-- The relation holds between any two points of the run, the earlier one first. -/
def Along (step : State → Action → Option State) (Related : State → State → Prop)
    (start : State) (actions : List Action) : Prop :=
  ∀ front middle back earlier later, actions = front ++ middle ++ back →
    Steps step Any start front earlier → Steps step Any earlier middle later →
    Related earlier later

theorem Steps.along (between : ∀ earlier later actions, Steps step guard earlier actions later →
      Related earlier later) (run : Steps step guard start actions finish) :
    Along step Related start actions := by
  intro front middle back earlier later parts first second
  rw [parts] at run
  rcases run.split with ⟨atLater, whole, _⟩
  rcases whole.split with ⟨atEarlier, one, other⟩
  cases one.agree first
  cases other.agree second
  exact between _ _ _ other

theorem Along.tail {next : State} {action : Action} {rest : List Action}
    (along : Along step Related start (action :: rest)) (taken : step start action = some next) :
    Along step Related next rest := by
  intro front middle back earlier later parts first second
  apply along (action :: front) middle back earlier later
  · rw [parts]
    rfl
  · exact .cons trivial taken first
  · exact second

theorem Along.guarded
    (implied : ∀ state action next, step state action = some next → Related state next →
      guard state action) (run : Steps step Any start actions finish)
    (along : Along step Related start actions) : Steps step guard start actions finish := by
  induction run with
  | nil state => exact .nil state
  | @cons state next finish action rest allowed taken later ih =>
    have related : Related state next :=
      along [] [action] rest state next rfl (.nil state) (.single trivial taken)
    exact .cons (implied _ _ _ taken related) taken (ih (along.tail taken))

theorem finishes (measure : State → Nat) (ended : State → Prop)
    (lowers : ∀ state action next, step state action = some next → measure next < measure state)
    (progress : ∀ state, ¬ ended state → ∃ action next, step state action = some next)
    (state : State) : ∃ actions finish, Steps step Any state actions finish ∧ ended finish := by
  induction bound : measure state using Nat.strongRecOn generalizing state with
  | ind size ih =>
    by_cases stopped : ended state
    · exact ⟨[], state, .nil state, stopped⟩
    · rcases progress state stopped with ⟨action, next, taken⟩
      have lower := lowers state action next taken
      rcases ih (measure next) (bound ▸ lower) next rfl with ⟨actions, finish, later, done⟩
      exact ⟨action :: actions, finish, .cons trivial taken later, done⟩

theorem Steps.unique (Inv : State → Prop)
    (preserved : ∀ state action next, Inv state → step state action = some next → Inv next)
    (deterministic : ∀ state action other next after, Inv state →
      step state action = some next → step state other = some after → next = after)
    {first second : State} {others : List Action} (initial : Inv start)
    (run : Steps step Any start actions first) (again : Steps step Any start others second)
    (stopped : ∀ action, step first action = none) (halted : ∀ action, step second action = none) :
    first = second := by
  induction run generalizing others with
  | nil state =>
    cases again with
    | nil => rfl
    | cons allowed taken later =>
      rw [stopped] at taken
      cases taken
  | cons allowed taken later ih =>
    cases again with
    | nil =>
      rw [halted] at taken
      cases taken
    | cons allowedToo takenToo laterToo =>
      cases deterministic _ _ _ _ _ initial taken takenToo
      exact ih (preserved _ _ _ initial taken) laterToo stopped

def execGuarded (step : State → Action → Option State) (guard : State → Action → Prop)
    [∀ state action, Decidable (guard state action)] : State → List Action → Option State
  | state, [] => some state
  | state, action :: rest =>
    if guard state action then
      (step state action).bind fun next => execGuarded step guard next rest
    else none

theorem execGuarded_steps [∀ state action, Decidable (guard state action)]
    (executed : execGuarded step guard start actions = some finish) :
    Steps step guard start actions finish := by
  induction actions generalizing start with
  | nil =>
    cases executed
    exact .nil _
  | cons action rest ih =>
    rw [execGuarded] at executed
    split at executed
    · rename_i allowed
      rcases Option.bind_eq_some_iff.mp executed with ⟨next, taken, later⟩
      exact .cons allowed taken (ih later)
    · cases executed

def Appended {Entry : Type*} (allowed : Entry → Prop) (earlier later : List Entry) : Prop :=
  ∃ more, later = earlier ++ more ∧ ∀ entry ∈ more, allowed entry

namespace Appended

variable {Entry : Type*} {allowed weaker : Entry → Prop} {earlier middle later : List Entry}

theorem refl (earlier : List Entry) : Appended allowed earlier earlier :=
  ⟨[], (List.append_nil earlier).symm, by rintro _ ⟨⟩⟩

theorem single {entry : Entry} (good : allowed entry) :
    Appended allowed earlier (earlier ++ [entry]) := by
  refine ⟨[entry], rfl, ?_⟩
  intro other member
  rwa [List.mem_singleton.mp member]

theorem trans (one : Appended allowed earlier middle) (two : Appended allowed middle later) :
    Appended allowed earlier later := by
  rcases one with ⟨first, rfl, firstAllowed⟩
  rcases two with ⟨second, rfl, secondAllowed⟩
  refine ⟨first ++ second, List.append_assoc .., ?_⟩
  intro entry member
  rcases List.mem_append.mp member with before | after
  · exact firstAllowed entry before
  · exact secondAllowed entry after

theorem weaken (appended : Appended allowed earlier later)
    (implied : ∀ entry, allowed entry → weaker entry) : Appended weaker earlier later := by
  rcases appended with ⟨more, whole, good⟩
  exact ⟨more, whole, fun entry member => implied entry (good entry member)⟩

theorem of_drop (appended : Appended allowed earlier later) :
    ∀ entry ∈ later.drop earlier.length, allowed entry := by
  rcases appended with ⟨more, rfl, good⟩
  rwa [List.drop_left]

end Appended

end SourceLens.Transition
