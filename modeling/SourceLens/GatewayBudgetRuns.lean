import SourceLens.GatewayBudgetTree

/-! The budget of a run tree over whole runs of its requests. -/

namespace SourceLens.GatewayBudget

open Transition List

variable {request : RequestId}

def unreserved : Phase → Bool
  | .overage => true
  | .pending _ locked | .calling _ locked => !locked
  | _ => false

def overdrawn : Phase → Bool
  | .dropping => true
  | phase => unreserved phase

theorem overdrawn_of_over {phase : Phase} (beyond : unreserved phase = true) : overdrawn phase = true := by
  cases phase <;> simp_all [unreserved, overdrawn]

/-- A run that has usage, or a call beyond the budget that may still add some. -/
def Entered (env : Env) (state : State) (run : Run) : Prop :=
  (∃ tokens, (run, tokens) ∈ state.usage) ∨
    ∃ request, unreserved (state.phase request) = true ∧ (env.call request).run = run

structure Inv (env : Env) (state : State) : Prop where
  grown : Grown env.root state.runs
  known : ∀ request, state.phase request ≠ .absent →
    (env.call request).run ∈ state.runs.map Prod.fst
  metered : ∀ entry ∈ state.usage, entry.1 ∈ state.runs.map Prod.fst
  one : ∀ first second, holding (state.phase first) = true →
    holding (state.phase second) = true → first = second
  lock : ∀ request, holding (state.phase request) = true →
    ∃ expires, state.cache env.root = some ⟨request, expires⟩ ∧ state.clock < expires
  spent : ∀ request, overdrawn (state.phase request) = true → env.limit ≤ recorded state.usage
  counts : ∀ request frontier usageIds, state.phase request = .counting frontier usageIds →
    ∀ run, Entered env state run → Covered state.runs frontier usageIds run
  left : ∀ request remaining, state.phase request = .reserved remaining →
    0 < remaining ∧ recorded state.usage + remaining = env.limit
  priced : ∀ request maxTokens, state.phase request = .pending maxTokens true →
    maxTokens ≤ env.limit - recorded state.usage ∧ recorded state.usage < env.limit
  fits : ∀ sent ∈ state.sent, sent.maxTokens ≤ env.limit - sent.recorded
  own : ∀ deleted ∈ state.deleted, deleted.deleter = deleted.owner
  tracked : ∀ request ∈ state.acquired, holding (state.phase request) = true ∨
    ⟨request, request⟩ ∈ state.deleted

theorem inv_start (env : Env) : Inv env (start env) where
  grown := .start
  known := by simp [start]
  metered := by simp [start]
  one := by simp [start, holding]
  lock := by simp [start, holding]
  spent := by simp [start, overdrawn, unreserved]
  counts := by simp [start]
  left := by simp [start]
  priced := by simp [start]
  fits := by simp [start]
  own := by simp [start]
  tracked := by simp [start]

theorem Inv.kept {env : Env} {state : State} (inv : Inv env state) : Kept env state where
  exclusive := by
    have held : ∀ request, inFlight (state.phase request) = true →
        holding (state.phase request) = true := by
      intro request flying
      cases at' : state.phase request <;> simp_all [inFlight, holding]
    intro first second one two
    exact inv.one first second (held first one) (held second two)
  fits := inv.fits
  own := inv.own
  released := by
    intro request member stopped
    rcases inv.tracked request member with held | gone
    · cases at' : state.phase request <;> simp_all [ended, holding]
    · exact gone

@[simp] theorem moveTo_self (state : State) (request : RequestId) (phase : Phase) :
    (moveTo state request phase).phase request = phase := by
  simp [moveTo]

theorem moveTo_other (state : State) {other : RequestId} (phase : Phase)
    (different : other ≠ request) :
    (moveTo state request phase).phase other = state.phase other := by
  simp [moveTo, different]

section Steps

variable {env : Env} {state : State} (inv : Inv env state)
include inv

theorem Inv.root (active : state.phase request ≠ .absent) :
    rootOf state (env.call request).run = env.root :=
  climb_root inv.grown _ (inv.known request active)

theorem Inv.live (held : holding (state.phase request) = true) :
    ∃ expires, liveEntry state env.root = some ⟨request, expires⟩ := by
  rcases inv.lock request held with ⟨expires, entry, fresh⟩
  exact ⟨expires, by simp [liveEntry, entry, fresh]⟩

theorem Inv.unheld (free : liveEntry state env.root = none) (request : RequestId) :
    holding (state.phase request) = false := by
  cases held : holding (state.phase request) with
  | false => rfl
  | true =>
    rcases inv.live held with ⟨expires, entry⟩
    rw [free] at entry
    cases entry

theorem Inv.nothing_left (beyond : unreserved (state.phase request) = true) (other : RequestId) :
    (∀ remaining, state.phase other ≠ .reserved remaining) ∧
      ∀ maxTokens, state.phase other ≠ .pending maxTokens true := by
  have full := inv.spent request (overdrawn_of_over beyond)
  constructor
  · intro remaining at'
    have left := inv.left other remaining at'
    omega
  · intro maxTokens at'
    have room := (inv.priced other maxTokens at').2
    omega

theorem Inv.move (request : RequestId) (phase : Phase)
    (known : (env.call request).run ∈ state.runs.map Prod.fst)
    (held : holding phase = true → holding (state.phase request) = true)
    (full : overdrawn phase = true → env.limit ≤ recorded state.usage)
    (beyond : unreserved phase = true →
      unreserved (state.phase request) = true ∨ holding (state.phase request) = true)
    (counts : ∀ frontier usageIds, phase = .counting frontier usageIds →
      ∀ run, Entered env state run → Covered state.runs frontier usageIds run)
    (left : ∀ remaining, phase = .reserved remaining →
      0 < remaining ∧ recorded state.usage + remaining = env.limit)
    (priced : ∀ maxTokens, phase = .pending maxTokens true →
      maxTokens ≤ env.limit - recorded state.usage ∧ recorded state.usage < env.limit)
    (tracked : request ∈ state.acquired → holding phase = true ∨
      ⟨request, request⟩ ∈ state.deleted) :
    Inv env (moveTo state request phase) := by
  have holds : ∀ other, holding ((moveTo state request phase).phase other) = true →
      holding (state.phase other) = true := by
    intro other holding'
    by_cases same : other = request
    · subst same
      rw [moveTo_self] at holding'
      exact held holding'
    · rwa [moveTo_other state phase same] at holding'
  constructor
  · exact inv.grown
  · intro other present
    by_cases same : other = request
    · rw [same]
      exact known
    · rw [moveTo_other state phase same] at present
      exact inv.known other present
  · exact inv.metered
  · intro first second one two
    exact inv.one first second (holds first one) (holds second two)
  · intro other holding'
    exact inv.lock other (holds other holding')
  · intro other beyond'
    by_cases same : other = request
    · subst same
      rw [moveTo_self] at beyond'
      exact full beyond'
    · rw [moveTo_other state phase same] at beyond'
      exact inv.spent other beyond'
  · intro other frontier usageIds at' run entered
    by_cases same : other = request
    · subst same
      rw [moveTo_self] at at'
      apply counts frontier usageIds at' run
      rcases entered with inUsage | ⟨third, beyond', there⟩
      · exact .inl inUsage
      · by_cases self : third = other
        · subst self
          rw [moveTo_self, at'] at beyond'
          cases beyond'
        · rw [moveTo_other state phase self] at beyond'
          exact .inr ⟨third, beyond', there⟩
    · rw [moveTo_other state phase same] at at'
      apply inv.counts other frontier usageIds at' run
      rcases entered with inUsage | ⟨third, beyond', there⟩
      · exact .inl inUsage
      · by_cases self : third = request
        · subst self
          rw [moveTo_self] at beyond'
          rcases beyond beyond' with before | holder
          · exact .inr ⟨third, before, there⟩
          · have counting : holding (state.phase other) = true := by rw [at']; rfl
            exact absurd (inv.one other third counting holder) same
        · rw [moveTo_other state phase self] at beyond'
          exact .inr ⟨third, beyond', there⟩
  · intro other remaining at'
    by_cases same : other = request
    · subst same
      rw [moveTo_self] at at'
      exact left remaining at'
    · rw [moveTo_other state phase same] at at'
      exact inv.left other remaining at'
  · intro other maxTokens at'
    by_cases same : other = request
    · subst same
      rw [moveTo_self] at at'
      exact priced maxTokens at'
    · rw [moveTo_other state phase same] at at'
      exact inv.priced other maxTokens at'
  · exact inv.fits
  · exact inv.own
  · intro other member
    by_cases same : other = request
    · subst same
      rw [moveTo_self]
      exact tracked member
    · rw [moveTo_other state phase same]
      exact inv.tracked other member

theorem Inv.acquire (request : RequestId) (present : state.phase request ≠ .absent)
    (free : liveEntry state env.root = none) :
    Inv env
      { moveTo state request (.counting [env.root] [env.root]) with
        cache := Function.update state.cache env.root
          (some ⟨request, state.clock + runBudgetLockTimeout⟩)
        acquired := state.acquired ++ [request] } := by
  have nobody := inv.unheld free
  have holds : ∀ other,
      holding ((moveTo state request (.counting [env.root] [env.root])).phase other) = true →
        other = request := by
    intro other holding'
    by_cases same : other = request
    · exact same
    · rw [moveTo_other state _ same, nobody other] at holding'
      cases holding'
  constructor
  · exact inv.grown
  · intro other there
    by_cases same : other = request
    · rw [same]
      exact inv.known request present
    · exact inv.known other (by rwa [← moveTo_other state _ same])
  · exact inv.metered
  · intro first second one two
    rw [holds first one, holds second two]
  · intro other holding'
    rw [holds other holding']
    exact ⟨state.clock + runBudgetLockTimeout, Function.update_self ..,
      Nat.lt_add_of_pos_right (by decide)⟩
  · intro other beyond'
    by_cases same : other = request
    · subst same
      rw [moveTo_self] at beyond'
      cases beyond'
    · exact inv.spent other (by rwa [← moveTo_other state _ same])
  · intro other frontier usageIds at' run entered
    have mine := holds other (by rw [at']; rfl)
    subst mine
    have same : Phase.counting [env.root] [env.root] = .counting frontier usageIds := by
      rw [← moveTo_self state other (.counting [env.root] [env.root])]
      exact at'
    cases same
    have there : run ∈ state.runs.map Prod.fst := by
      rcases entered with ⟨tokens, member⟩ | ⟨third, beyond', whose⟩
      · exact inv.metered (run, tokens) member
      · rw [← whose]
        by_cases self : third = other
        · rw [self]
          exact inv.known other present
        · apply inv.known third
          intro absent
          have beyond' : unreserved (state.phase third) = true := by rwa [← moveTo_other state _ self]
          rw [absent] at beyond'
          cases beyond'
    rcases inv.grown.below_root run there with top | below
    · exact .inl (by simp [top])
    · exact .inr ⟨env.root, by simp, below⟩
  · intro other remaining at'
    by_cases same : other = request
    · subst same
      rw [moveTo_self] at at'
      cases at'
    · exact inv.left other remaining (by rwa [← moveTo_other state _ same])
  · intro other maxTokens at'
    by_cases same : other = request
    · subst same
      rw [moveTo_self] at at'
      cases at'
    · exact inv.priced other maxTokens (by rwa [← moveTo_other state _ same])
  · exact inv.fits
  · exact inv.own
  · intro other member
    by_cases same : other = request
    · subst same
      exact .inl (by rw [moveTo_self]; rfl)
    · have before : other ∈ state.acquired := by simpa [same] using member
      rcases inv.tracked other before with holder | gone
      · rw [nobody other] at holder
        cases holder
      · exact .inr gone

theorem Inv.release (request : RequestId) (phase : Phase)
    (owner : holding (state.phase request) = true) (free : holding phase = false)
    (full : overdrawn phase = true → env.limit ≤ recorded state.usage) :
    Inv env (moveTo (delete state env.root request) request phase) := by
  have present : state.phase request ≠ .absent := by
    intro absent
    rw [absent] at owner
    cases owner
  have others : ∀ other, other ≠ request → holding (state.phase other) = false := by
    intro other different
    cases held : holding (state.phase other) with
    | false => rfl
    | true => exact absurd (inv.one other request held owner) different
  have nobody : ∀ other,
      holding ((moveTo (delete state env.root request) request phase).phase other) = false := by
    intro other
    by_cases same : other = request
    · rw [same, moveTo_self]
      exact free
    · rw [moveTo_other _ _ same]
      exact others other same
  have log : (moveTo (delete state env.root request) request phase).deleted =
      state.deleted ++ [⟨request, request⟩] := by
    rcases inv.live owner with ⟨expires, entry⟩
    simp [moveTo, delete, entry]
  have idle : ∀ other now, holding now = true →
      (moveTo (delete state env.root request) request phase).phase other ≠ now := by
    intro other now held at'
    rw [← at', nobody other] at held
    cases held
  constructor
  · exact inv.grown
  · intro other there
    by_cases same : other = request
    · rw [same]
      exact inv.known request present
    · exact inv.known other (by rwa [moveTo_other _ _ same] at there)
  · exact inv.metered
  · intro first second one two
    rw [nobody first] at one
    cases one
  · intro other holder
    rw [nobody other] at holder
    cases holder
  · intro other beyond'
    by_cases same : other = request
    · subst same
      rw [moveTo_self] at beyond'
      exact full beyond'
    · rw [moveTo_other _ _ same] at beyond'
      exact inv.spent other beyond'
  · intro other frontier usageIds at'
    exact absurd at' (idle other _ rfl)
  · intro other remaining at'
    exact absurd at' (idle other _ rfl)
  · intro other maxTokens at'
    exact absurd at' (idle other _ rfl)
  · exact inv.fits
  · intro deleted member
    rw [log, mem_append, mem_singleton] at member
    rcases member with before | new
    · exact inv.own deleted before
    · rw [new]
  · intro other member
    rw [log]
    by_cases same : other = request
    · rw [same]
      exact .inr (by simp)
    · rcases inv.tracked other member with holder | gone
      · rw [others other same] at holder
        cases holder
      · exact .inr (mem_append_left _ gone)

theorem Inv.send (request : RequestId) (maxTokens : Int) (locked : Bool)
    (known : (env.call request).run ∈ state.runs.map Prod.fst)
    (held : locked = true → holding (state.phase request) = true)
    (beyond : locked = false → env.limit ≤ recorded state.usage ∧ unreserved (state.phase request) = true)
    (room : locked = true → maxTokens ≤ env.limit - recorded state.usage) :
    Inv env (send state request maxTokens locked) := by
  have moved : Inv env (moveTo state request (.calling maxTokens locked)) := by
    apply inv.move request (.calling maxTokens locked) known held
    · intro beyond'
      have unlocked : locked = false := by simpa [overdrawn, unreserved] using beyond'
      exact (beyond unlocked).1
    · intro beyond'
      have unlocked : locked = false := by simpa [unreserved] using beyond'
      exact .inl (beyond unlocked).2
    · intro frontier usageIds same
      cases same
    · intro remaining same
      cases same
    · intro other same
      cases same
    · intro member
      cases locked with
      | true => exact .inl rfl
      | false =>
        rcases inv.tracked request member with holder | gone
        · have beyond' := (beyond rfl).2
          cases at' : state.phase request <;> simp_all [unreserved, holding]
        · exact .inr gone
  have fits : ∀ sent ∈ (GatewayBudget.send state request maxTokens locked).sent,
      sent.maxTokens ≤ env.limit - sent.recorded := by
    intro sent member
    cases locked with
    | false => exact inv.fits sent member
    | true =>
      rcases mem_append.mp member with before | new
      · exact inv.fits sent before
      · rw [mem_singleton.mp new]
        exact room rfl
  exact ⟨moved.grown, moved.known, moved.metered, moved.one, moved.lock, moved.spent, moved.counts,
    moved.left, moved.priced, fits, moved.own, moved.tracked⟩

theorem Inv.finish (request : RequestId) (maxTokens : Int) (locked : Bool) (tokens : Nat)
    (at' : state.phase request = .calling maxTokens locked) :
    Inv env (finish env state request tokens locked) := by
  have present : state.phase request ≠ .absent := by simp [at']
  have moved : Inv env (moveTo state request (if locked then .releasing else .closed)) := by
    apply inv.move request _ (inv.known request present)
    · intro held
      cases locked with
      | true => rw [at']; rfl
      | false => cases held
    · intro beyond'
      cases locked <;> cases beyond'
    · intro beyond'
      cases locked <;> cases beyond'
    · intro frontier usageIds same
      cases locked <;> cases same
    · intro remaining same
      cases locked <;> cases same
    · intro other same
      cases locked <;> cases same
    · intro member
      cases locked with
      | true => exact .inl rfl
      | false =>
        rcases inv.tracked request member with holder | gone
        · rw [at'] at holder
          cases holder
        · exact .inr gone
  -- While another request counts or waits with tokens of its own, this one has no lock.
  have beyond : ∀ other, other ≠ request → holding (state.phase other) = true →
      unreserved (state.phase request) = true := by
    intro other different holder
    rw [at']
    cases locked with
    | false => rfl
    | true =>
      have mine : holding (state.phase request) = true := by rw [at']; rfl
      exact absurd (inv.one other request holder mine) different
  have mine : ∀ now, (moveTo state request (if locked then Phase.releasing else .closed)).phase
      request = now → now = .releasing ∨ now = .closed := by
    intro now same
    rw [moveTo_self] at same
    cases locked with
    | true => exact .inl same.symm
    | false => exact .inr same.symm
  constructor
  · exact moved.grown
  · exact moved.known
  · intro entry member
    rcases mem_append.mp member with before | new
    · exact inv.metered entry before
    · rw [mem_singleton.mp new]
      exact inv.known request present
  · exact moved.one
  · exact moved.lock
  · intro other beyond'
    have full := moved.spent other beyond'
    have grown : recorded (GatewayBudget.finish env state request tokens locked).usage =
        recorded state.usage + tokens := recorded_append ..
    have same : recorded (moveTo state request (if locked then Phase.releasing else .closed)).usage =
        recorded state.usage := rfl
    omega
  · intro other frontier usageIds counting run entered
    by_cases same : other = request
    · subst same
      rcases mine _ counting with no | no <;> cases no
    · have before : state.phase other = .counting frontier usageIds := by
        rwa [← moveTo_other state _ same]
      have holder : holding (state.phase other) = true := by rw [before]; rfl
      apply inv.counts other frontier usageIds before run
      rcases entered with ⟨amount, member⟩ | ⟨third, beyond', there⟩
      · rcases mem_append.mp member with old | new
        · exact .inl ⟨amount, old⟩
        · cases mem_singleton.mp new
          exact .inr ⟨request, beyond other same holder, rfl⟩
      · by_cases self : third = request
        · subst self
          exact .inr ⟨third, beyond other same holder, there⟩
        · exact .inr ⟨third, by rwa [← moveTo_other state _ self], there⟩
  · intro other remaining reserved
    by_cases same : other = request
    · subst same
      rcases mine _ reserved with no | no <;> cases no
    · have before : state.phase other = .reserved remaining := by
        rwa [← moveTo_other state _ same]
      have holder : holding (state.phase other) = true := by rw [before]; rfl
      exact absurd before ((inv.nothing_left (beyond other same holder) other).1 remaining)
  · intro other amount pending
    by_cases same : other = request
    · subst same
      rcases mine _ pending with no | no <;> cases no
    · have before : state.phase other = .pending amount true := by
        rwa [← moveTo_other state _ same]
      have holder : holding (state.phase other) = true := by rw [before]; rfl
      exact absurd before ((inv.nothing_left (beyond other same holder) other).2 amount)
  · exact moved.fits
  · exact moved.own
  · exact moved.tracked

end Steps

theorem effectiveMaxTokens_le (requested : Json) (remaining maxTokens : Int)
    (some' : effectiveMaxTokens requested remaining = some maxTokens) (left : 0 < remaining) :
    maxTokens ≤ remaining := by
  rcases Option.map_eq_some_iff.mp some' with ⟨asked, _, rfl⟩
  unfold bounded
  split <;> omega

theorem inv_dispatch {env : Env} {state : State} (inv : Inv env state) (request : RequestId)
    (maxTokens : Int) (locked : Bool) (present : state.phase request ≠ .absent)
    (held : locked = true → holding (state.phase request) = true)
    (beyond : locked = false → env.limit ≤ recorded state.usage ∧ unreserved (state.phase request) = true)
    (room : locked = true → maxTokens ≤ env.limit - recorded state.usage ∧
      recorded state.usage < env.limit) :
    Inv env (dispatch env state request maxTokens locked) := by
  have known := inv.known request present
  unfold dispatch
  split
  · apply inv.move request (.pending maxTokens locked) known held
    · intro beyond'
      have unlocked : locked = false := by simpa [overdrawn, unreserved] using beyond'
      exact (beyond unlocked).1
    · intro beyond'
      have unlocked : locked = false := by simpa [unreserved] using beyond'
      exact .inl (beyond unlocked).2
    · intro frontier usageIds same
      cases same
    · intro remaining same
      cases same
    · intro other same
      cases same
      exact room rfl
    · intro member
      cases locked with
      | true => exact .inl rfl
      | false =>
        rcases inv.tracked request member with holder | gone
        · have beyond' := (beyond rfl).2
          cases at' : state.phase request <;> simp_all [unreserved, holding]
        · exact .inr gone
  · exact inv.send request maxTokens locked known held beyond fun is => (room is).1

theorem inv_close {env : Env} {state : State} (inv : Inv env state) (request : RequestId)
    (present : state.phase request ≠ .absent) (free : holding (state.phase request) = false) :
    Inv env (moveTo state request .closed) := by
  apply inv.move request .closed (inv.known request present)
  · nofun
  · nofun
  · nofun
  · intro frontier usageIds no
    cases no
  · intro remaining no
    cases no
  · intro maxTokens no
    cases no
  · intro member
    rcases inv.tracked request member with holder | gone
    · rw [free] at holder
      cases holder
    · exact .inr gone

theorem inv_poll {env : Env} {state : State} (inv : Inv env state) (request : RequestId)
    (deadline : Nat) (at' : state.phase request = .waiting deadline) :
    Inv env (poll env state request deadline) := by
  have present : state.phase request ≠ .absent := by simp [at']
  unfold poll
  rw [inv.root present]
  dsimp only
  split
  · exact inv_close inv request present (by rw [at']; rfl)
  · split
    · exact inv
    · rename_i _ taken
      apply inv.acquire request present
      simpa using taken

theorem inv_level {env : Env} {state : State} (inv : Inv env state) (request : RequestId)
    (frontier usageIds : List Run) (at' : state.phase request = .counting frontier usageIds) :
    Inv env (level env state request frontier usageIds) := by
  have holder : holding (state.phase request) = true := by rw [at']; rfl
  have known := inv.known request (by simp [at'])
  have covered := inv.counts request frontier usageIds at'
  unfold level
  split
  · rename_i bottom
    have whole : used state.usage usageIds = recorded state.usage := by
      apply used_eq_recorded
      intro entry member
      rcases covered entry.1 (.inl ⟨entry.2, member⟩) with counted | ⟨above, there, _⟩
      · exact counted
      · rw [bottom] at there
        exact absurd there not_mem_nil
    rw [whole]
    dsimp only
    split
    · rename_i used'
      apply inv.move request .dropping known (fun _ => holder)
      · exact fun _ => used'
      · nofun
      · intro frontier usageIds no
        cases no
      · intro remaining no
        cases no
      · intro maxTokens no
        cases no
      · exact fun _ => .inl rfl
    · rename_i room
      apply inv.move request (.reserved (env.limit - recorded state.usage)) known (fun _ => holder)
      · nofun
      · nofun
      · intro frontier usageIds no
        cases no
      · intro remaining same
        cases same
        omega
      · intro maxTokens no
        cases no
      · exact fun _ => .inl rfl
  · apply inv.move request _ known (fun _ => holder)
    · nofun
    · nofun
    · intro next ids same run entered
      cases same
      exact (covered run entered).level
    · intro remaining no
      cases no
    · intro maxTokens no
      cases no
    · exact fun _ => .inl rfl

theorem inv_price {env : Env} {state next : State} (inv : Inv env state) (request : RequestId)
    (orderly : Orderly env state (.price request))
    (taken : price env state request (state.phase request) = some next) : Inv env next := by
  cases at' : state.phase request with
  | reserved remaining =>
    rw [at'] at taken
    have left := inv.left request remaining at'
    cases asked : effectiveMaxTokens (env.call request).maxTokens remaining with
    | none =>
      have number : (intOr (env.call request).maxTokens remaining).isSome = true := by
        simpa [Orderly, numbered, at'] using orderly
      rw [effectiveMaxTokens, Option.map_eq_none_iff] at asked
      rw [asked] at number
      cases number
    | some maxTokens =>
      simp only [price, asked, Option.some.injEq] at taken
      have fits := effectiveMaxTokens_le _ _ _ asked (by omega)
      rw [← taken]
      apply inv_dispatch inv request maxTokens true (by simp [at'])
      · exact fun _ => by rw [at']; rfl
      · nofun
      · intro _
        omega
  | overage =>
    rw [at'] at taken
    have beyond : unreserved (state.phase request) = true := by rw [at']; rfl
    cases asked : effectiveMaxTokens (env.call request).maxTokens 4096 with
    | none =>
      simp only [price, asked, Option.some.injEq] at taken
      rw [← taken]
      exact inv_close inv request (by simp [at']) (by rw [at']; rfl)
    | some maxTokens =>
      simp only [price, asked, Option.some.injEq] at taken
      rw [← taken]
      apply inv_dispatch inv request maxTokens false (by simp [at'])
      · nofun
      · exact fun _ => ⟨inv.spent request (overdrawn_of_over beyond), beyond⟩
      · nofun
  | _ => simp [price, at'] at taken

theorem inv_step (env : Env) (state : State) (action : Action) (next : State)
    (inv : Inv env state) (orderly : Orderly env state action)
    (taken : step env state action = some next) : Inv env next := by
  cases action with
  | tick duration =>
    cases taken
    have lock : ∀ request, holding (state.phase request) = true →
        ∃ expires, state.cache env.root = some ⟨request, expires⟩ ∧
          state.clock + duration < expires := by
      intro request holder
      rcases inv.lock request holder with ⟨expires, entry, _⟩
      exact ⟨expires, entry, orderly _ entry holder⟩
    exact ⟨inv.grown, inv.known, inv.metered, inv.one, lock, inv.spent, inv.counts, inv.left,
      inv.priced, inv.fits, inv.own, inv.tracked⟩
  | spawn run parent =>
    simp only [step] at taken
    split at taken
    · rename_i allowed
      cases taken
      have wider : ∀ r ∈ state.runs.map Prod.fst,
          r ∈ (state.runs ++ [(run, some parent)]).map Prod.fst := by
        intro r member
        rw [map_append]
        exact mem_append_left _ member
      exact ⟨.spawn run parent inv.grown allowed.1 allowed.2,
        fun request present => wider _ (inv.known request present),
        fun entry member => wider _ (inv.metered entry member), inv.one, inv.lock, inv.spent,
        fun request frontier usageIds at' r entered =>
          (inv.counts request frontier usageIds at' r entered).grow _,
        inv.left, inv.priced, inv.fits, inv.own, inv.tracked⟩
    · cases taken
  | arrive request =>
    simp only [step] at taken
    split at taken
    · rename_i allowed
      cases taken
      apply inv.move request _ allowed.2
      · nofun
      · nofun
      · nofun
      · intro frontier usageIds no
        cases no
      · intro remaining no
        cases no
      · intro maxTokens no
        cases no
      · intro member
        rcases inv.tracked request member with holder | gone
        · rw [allowed.1] at holder
          cases holder
        · exact .inr gone
    · cases taken
  | poll request =>
    simp only [step] at taken
    split at taken
    · rename_i deadline at'
      cases taken
      exact inv_poll inv request deadline at'
    · cases taken
  | level request =>
    simp only [step] at taken
    split at taken
    · rename_i frontier usageIds at'
      cases taken
      exact inv_level inv request frontier usageIds at'
    · cases taken
  | drop request =>
    simp only [step] at taken
    split at taken
    · rename_i at'
      cases taken
      have full := inv.spent request (by rw [at']; rfl)
      rw [drop, inv.root (by simp [at'])]
      apply inv.release request _ (by rw [at']; rfl)
      · split <;> rfl
      · exact fun _ => full
    · cases taken
  | price request => exact inv_price inv request orderly taken
  | begin request =>
    simp only [step] at taken
    split at taken
    · rename_i maxTokens locked at'
      cases taken
      apply inv.send request maxTokens locked (inv.known request (by simp [at']))
      · intro is
        rw [at', is]
        rfl
      · intro is
        have beyond : unreserved (state.phase request) = true := by
          rw [at', is]
          rfl
        exact ⟨inv.spent request (overdrawn_of_over beyond), beyond⟩
      · intro is
        rw [is] at at'
        exact (inv.priced request maxTokens at').1
    · cases taken
  | disconnect request =>
    simp only [step] at taken
    split at taken
    · rename_i maxTokens locked at'
      cases taken
      cases locked with
      | true =>
        have free := orderly
        simp [Orderly, at', holding] at free
      | false => exact inv_close inv request (by simp [at']) (by rw [at']; rfl)
    · cases taken
  | finish request tokens =>
    simp only [step] at taken
    split at taken
    · rename_i maxTokens locked at'
      cases taken
      exact inv.finish request maxTokens locked tokens at'
    · cases taken
  | check request =>
    simp only [step] at taken
    split at taken
    · rename_i at'
      cases taken
      have holder : holding (state.phase request) = true := by rw [at']; rfl
      rcases inv.live holder with ⟨expires, entry⟩
      rw [check, inv.root (by simp [at']), entry]
      simp only [if_true]
      apply inv.move request .deleting (inv.known request (by simp [at'])) (fun _ => holder)
      · nofun
      · nofun
      · intro frontier usageIds no
        cases no
      · intro remaining no
        cases no
      · intro maxTokens no
        cases no
      · exact fun _ => .inl rfl
    · cases taken
  | delete request =>
    simp only [step] at taken
    split at taken
    · rename_i at'
      cases taken
      rw [inv.root (by simp [at'])]
      apply inv.release request .closed (by rw [at']; rfl) rfl
      intro no
      cases no
    · cases taken
  | fail request => exact absurd orderly id

/-- A tree with a budget of 1000 tokens: the root's call and a streamed one of its
delegated run. -/
def smallTree : Env where
  root := 0
  limit := 1000
  budgeted := by decide
  call := fun request => ⟨request, false, request = 1, .null⟩

def inTurn : List Action :=
  [.arrive 0, .poll 0, .spawn 1 0, .arrive 1, .poll 1, .level 0, .level 0, .level 0, .price 0,
    .tick 20000, .poll 1, .finish 0 400, .check 0, .delete 0, .poll 1, .level 1, .level 1,
    .level 1, .price 1, .begin 1, .tick 100000]

/-- The lock expires under a long call, and the next request is let in. -/
def longCall : List Action :=
  [.arrive 0, .poll 0, .level 0, .level 0, .price 0, .tick 120000, .spawn 1 0, .arrive 1, .poll 1,
    .level 1, .level 1, .level 1, .price 1, .begin 1]

end SourceLens.GatewayBudget
