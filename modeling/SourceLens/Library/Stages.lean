import Mathlib.Data.List.Basic

/-! Computations that may fail, told by the stages they go through: a stage passes, is refused, or
raises what nobody handles, and the first that does not pass decides. -/

namespace SourceLens.Stages

inductive Verdict
  | passes
  | refused
  | escapes
  deriving DecidableEq

def Verdict.andThen (first second : Verdict) : Verdict :=
  match first with
  | .passes => second
  | other => other

variable {Stage Error Value Result Item : Type} {judge : Stage → Verdict} {escaping : Error → Bool}

def verdict (judge : Stage → Verdict) : List Stage → Verdict
  | [] => .passes
  | stage :: rest => (judge stage).andThen (verdict judge rest)

def verdictOf (escaping : Error → Bool) : Except Error Value → Verdict
  | .ok _ => .passes
  | .error error => if escaping error then .escapes else .refused

def Follows (judge : Stage → Verdict) (escaping : Error → Bool) (run : Except Error Value)
    (stages : List Stage) : Prop :=
  verdictOf escaping run = verdict judge stages

theorem andThen_passes (first : Verdict) : first.andThen .passes = first := by
  cases first <;> rfl

theorem andThen_assoc (first second third : Verdict) :
    (first.andThen second).andThen third = first.andThen (second.andThen third) := by
  cases first <;> rfl

theorem verdict_append (front back : List Stage) :
    verdict judge (front ++ back) = (verdict judge front).andThen (verdict judge back) := by
  induction front with
  | nil => rfl
  | cons stage front ih =>
    calc
      verdict judge (stage :: front ++ back)
        = (judge stage).andThen (verdict judge (front ++ back)) := rfl
      _ = (judge stage).andThen ((verdict judge front).andThen (verdict judge back)) := by rw [ih]
      _ = (verdict judge (stage :: front)).andThen (verdict judge back) :=
        (andThen_assoc _ _ _).symm

theorem verdict_singleton (stage : Stage) : verdict judge [stage] = judge stage :=
  andThen_passes (judge stage)

theorem verdict_passes_iff (judge : Stage → Verdict) (stages : List Stage) :
    verdict judge stages = .passes ↔ ∀ stage ∈ stages, judge stage = .passes := by
  induction stages with
  | nil => simp [verdict]
  | cons stage rest ih =>
    rw [verdict, List.forall_mem_cons, ← ih]
    cases shape : judge stage with
    | passes => simp [Verdict.andThen]
    | refused => simp [Verdict.andThen]
    | escapes => simp [Verdict.andThen]

theorem verdict_escapes_iff (judge : Stage → Verdict) (stages : List Stage) :
    verdict judge stages ≠ .escapes ↔
      ∀ front stage back, stages = front ++ stage :: back →
        (∀ earlier ∈ front, judge earlier = .passes) → judge stage ≠ .escapes := by
  constructor
  · intro handled front stage back whole passed escape
    apply handled
    rw [whole, verdict_append, (verdict_passes_iff judge front).mpr passed, verdict, escape]
    rfl
  · induction stages with
    | nil => exact fun _ => nofun
    | cons stage rest ih =>
      intro reached
      have first := reached [] stage rest rfl nofun
      rw [verdict]
      cases shape : judge stage with
      | refused => nofun
      | escapes => exact absurd shape first
      | passes =>
        apply ih
        intro front later back whole passed
        apply reached (stage :: front) later back (by rw [whole]; rfl)
        exact List.forall_mem_cons.mpr ⟨shape, passed⟩

theorem follows_ok (value : Value) : Follows judge escaping (.ok value) [] := rfl

variable {step : Item → Except Error Value} {run : Except Error Value}

theorem Follows.bind {next : Value → Except Error Result}
    {front back : List Stage} (first : Follows judge escaping run front)
    (second : ∀ value, run = .ok value → Follows judge escaping (next value) back) :
    Follows judge escaping (run >>= next) (front ++ back) := by
  rw [Follows, verdict_append, ← first]
  cases run with
  | error error =>
    cases shape : escaping error with
    | false => simp only [verdictOf, shape, Verdict.andThen]; exact if_neg (by simp [shape])
    | true => simp only [verdictOf, shape, Verdict.andThen]; exact if_pos shape
  | ok value => exact second value rfl

theorem Follows.map {stages : List Stage} (change : Value → Result)
    (follows : Follows judge escaping run stages) :
    Follows judge escaping (run >>= fun value => .ok (change value)) stages := by
  have last := follows.bind fun value _ => follows_ok (change value)
  rwa [List.append_nil] at last

theorem follows_mapM {stagesOf : Item → List Stage}
    (each : ∀ item, Follows judge escaping (step item) (stagesOf item)) (items : List Item) :
    Follows judge escaping (items.mapM step) (items.flatMap stagesOf) := by
  induction items with
  | nil => exact follows_ok []
  | cons item rest ih =>
    rw [List.mapM_cons, List.flatMap_cons]
    exact (each item).bind fun value _ => ih.map (value :: ·)

theorem bind_ok {next : Value → Except Error Result} {result : Result}
    (made : (run >>= next) = .ok result) : ∃ value, run = .ok value ∧ next value = .ok result := by
  cases run with
  | error error => cases made
  | ok value => exact ⟨value, rfl, made⟩

theorem mapM_forall₂ (items : List Item) :
    ∀ values, items.mapM step = .ok values →
      List.Forall₂ (fun item value => step item = .ok value) items values := by
  induction items with
  | nil =>
    intro values made
    obtain rfl := Except.ok.inj made
    exact .nil
  | cons item rest ih =>
    intro values made
    rw [List.mapM_cons] at made
    obtain ⟨value, first, made⟩ := bind_ok made
    obtain ⟨others, later, made⟩ := bind_ok made
    obtain rfl := Except.ok.inj made
    exact .cons first (ih others later)

theorem mapM_map {change : Item → Value}
    (each : ∀ item value, step item = .ok value → value = change item) {items : List Item}
    {values : List Value} (made : items.mapM step = .ok values) : values = items.map change := by
  have pairs := mapM_forall₂ items values made
  clear made
  induction pairs with
  | nil => rfl
  | cons first later ih => rw [List.map_cons, ← each _ _ first, ← ih]

theorem mem_mapM {items : List Item} {values : List Value}
    (made : items.mapM step = .ok values) {value : Value} (member : value ∈ values) :
    ∃ item ∈ items, step item = .ok value := by
  have pairs := mapM_forall₂ items values made
  clear made
  induction pairs with
  | nil => cases member
  | cons first later ih =>
    rcases List.mem_cons.mp member with same | behind
    · subst same
      exact ⟨_, List.mem_cons_self, first⟩
    · obtain ⟨item, listed, read⟩ := ih behind
      exact ⟨item, List.mem_cons_of_mem _ listed, read⟩

end SourceLens.Stages
