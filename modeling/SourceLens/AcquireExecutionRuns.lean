import SourceLens.AcquireExecution
import SourceLens.ExecutionQueueRuns
import SourceLens.Library.TaskPool

/-! Whatever cancels a call of `_acquire_execution` and whenever, it returns with one slot
or raises without any, and the counters of the queue are exact. -/

namespace SourceLens.AcquireExecution

open ExecutionQueue Transition List Option

variable {tasks next : Tasks} {call after : Call} {request other : ExecutionRequest}

variable {world : World}

@[simp] theorem finishWith_arrived (outcome : Except String LensNodeExecutionQueue) :
    (tasks.finishWith outcome).arrived = tasks.arrived := by cases outcome <;> rfl

@[simp] theorem finishWith_holding (outcome : Except String LensNodeExecutionQueue) :
    (tasks.finishWith outcome).holding = tasks.holding := by cases outcome <;> rfl

@[simp] theorem finishWith_released (outcome : Except String LensNodeExecutionQueue) :
    (tasks.finishWith outcome).released = tasks.released := by cases outcome <;> rfl

@[simp] theorem finishWith_dropped (outcome : Except String LensNodeExecutionQueue) :
    (tasks.finishWith outcome).dropped = tasks.dropped := by cases outcome <;> rfl

/-- The request keeps its place. -/
structure Kept (tasks next : Tasks) (request : ExecutionRequest) : Prop where
  arrived : request ∈ tasks.arrived → request ∈ next.arrived
  holding : request ∈ next.holding ↔ request ∈ tasks.holding
  released : request ∈ next.released ↔ request ∈ tasks.released
  dropped : request ∈ next.dropped ↔ request ∈ tasks.dropped

theorem Kept.refl (tasks : Tasks) (request : ExecutionRequest) : Kept tasks tasks request :=
  ⟨id, .rfl, .rfl, .rfl⟩

theorem Kept.trans {middle : Tasks} (one : Kept tasks middle request)
    (two : Kept middle next request) : Kept tasks next request :=
  ⟨fun known => two.arrived (one.arrived known), two.holding.trans one.holding,
    two.released.trans one.released, two.dropped.trans one.dropped⟩

/-- Waiting, or admitted while `acquire` has not gone on. -/
structure Pending (tasks : Tasks) (request : ExecutionRequest) : Prop where
  arrived : request ∈ tasks.arrived
  unheld : request ∉ tasks.holding
  unreleased : request ∉ tasks.released
  undropped : request ∉ tasks.dropped

theorem Pending.kept (pending : Pending tasks request) (kept : Kept tasks next request) :
    Pending next request :=
  ⟨kept.arrived pending.arrived, fun held => pending.unheld (kept.holding.mp held),
    fun gone => pending.unreleased (kept.released.mp gone),
    fun gone => pending.undropped (kept.dropped.mp gone)⟩

def Gone (tasks : Tasks) (request : ExecutionRequest) : Prop :=
  request ∈ tasks.released ∨ request ∈ tasks.dropped

theorem Gone.kept (gone : Gone tasks request) (kept : Kept tasks next request) :
    Gone next request := by
  rcases gone with released | dropped
  · exact .inl (kept.released.mpr released)
  · exact .inr (kept.dropped.mpr dropped)

theorem acquire_moves {executionClass : ExecutionClass}
    (accounted : Accounted tasks) (taken : tasks.step (.acquire executionClass) = some next) :
    next.arrived = tasks.arrived ++ [⟨tasks.arrived.length, executionClass⟩] ∧
      Pending next ⟨tasks.arrived.length, executionClass⟩ ∧ ∀ other, Kept tasks next other := by
  cases taken
  refine ⟨rfl, ⟨?_, ?_, ?_, ?_⟩, fun other => ⟨fun known => mem_append_left _ known,
    .rfl, .rfl, .rfl⟩⟩
  · exact mem_append_right _ (mem_singleton.mpr rfl)
  all_goals
    intro member
    have known := accounted.arrived_lt (accounted.onePlace.mem_iff.mpr (by
      simp only [Tasks.active, mem_append]
      tauto))
    exact absurd known (Nat.lt_irrefl _)

theorem resume_moves (taken : tasks.step (.resume request) = some next) :
    next.arrived = tasks.arrived ∧ request ∈ next.holding ∧
      ∀ other, other ≠ request → Kept tasks next other := by
  simp only [Tasks.step, ite_none_right_eq_some, Option.some.injEq] at taken
  obtain ⟨-, rfl⟩ := taken
  refine ⟨rfl, mem_append_right _ (mem_singleton.mpr rfl), ?_⟩
  intro other distinct
  exact ⟨id, by simp [distinct], .rfl, .rfl⟩

theorem cancel_moves (taken : tasks.step (.cancel request) = some next) :
    next.arrived = tasks.arrived ∧ Gone next request ∧
      ∀ other, other ≠ request → Kept tasks next other := by
  simp only [Tasks.step] at taken
  split at taken
  · cases taken
    refine ⟨by simp, .inl (by simp), ?_⟩
    intro other distinct
    exact ⟨by simp, by simp, by simp [distinct], by simp⟩
  · simp only [ite_none_right_eq_some, Option.some.injEq] at taken
    obtain ⟨-, rfl⟩ := taken
    refine ⟨by simp, .inr (by simp), ?_⟩
    intro other distinct
    exact ⟨by simp, by simp, by simp, by simp [distinct]⟩

theorem release_moves (taken : tasks.step (.release request) = some next) :
    next.arrived = tasks.arrived ∧ request ∈ next.released ∧
      ∀ other, other ≠ request → Kept tasks next other := by
  simp only [Tasks.step, ite_none_right_eq_some, Option.some.injEq] at taken
  obtain ⟨-, rfl⟩ := taken
  refine ⟨by simp, by simp, ?_⟩
  intro other distinct
  exact ⟨by simp, by simp [mem_erase_of_ne distinct], by simp [distinct], by simp⟩

def Caller.inside : Caller → Bool
  | .direct | .polling | .stopping | .unwinding => true
  | _ => false

/-- Where the request of a call is, by the state of its `acquire` and of its caller. -/
inductive Fits (tasks : Tasks) (call : Call) : Prop
  | created (acquire : call.acquire = .created) (none : call.request = none)
      (inside : call.caller.inside = true)
      (asked : call.cancelling = true ∨ call.caller = .direct ∨ call.caller = .polling)
  | waiting (request : ExecutionRequest) (acquire : call.acquire = .waiting)
      (own : call.request = some request) (pending : Pending tasks request)
      (inside : call.caller.inside = true)
      (asked : call.cancelling = true ∨ call.caller = .direct ∨ call.caller = .polling)
  | cancelled (acquire : call.acquire = .cancelled)
      (gone : ∀ request, call.request = some request → Gone tasks request)
      (outcome : call.caller.inside = true ∨ call.caller = .raised)
  | held (request : ExecutionRequest) (acquire : call.acquire = .returned)
      (own : call.request = some request) (holding : request ∈ tasks.holding)
      (outcome : call.caller = .polling ∨ call.caller = .returned)
  | back (request : ExecutionRequest) (acquire : call.acquire = .returned)
      (own : call.request = some request) (released : request ∈ tasks.released)
      (outcome : call.caller = .raised ∨ call.caller = .released)

theorem Fits.kept (fits : Fits tasks call)
    (kept : ∀ request, call.request = some request → Kept tasks next request) :
    Fits next call := by
  cases fits with
  | created acquire none inside asked => exact .created acquire none inside asked
  | waiting request acquire own pending inside asked =>
    exact .waiting request acquire own (pending.kept (kept request own)) inside asked
  | cancelled acquire gone outcome =>
    exact .cancelled acquire (fun request own => (gone request own).kept (kept request own)) outcome
  | held request acquire own holding outcome =>
    exact .held request acquire own ((kept request own).holding.mpr holding) outcome
  | back request acquire own released outcome =>
    exact .back request acquire own ((kept request own).released.mpr released) outcome

/-- What a step of one call does. The request it makes is new; the requests of other calls
keep their places. -/
structure Turn (tasks next : Tasks) (call after : Call) : Prop where
  accounted : Accounted next
  fits : Fits next after
  executionClass : after.executionClass = call.executionClass
  requests : (next.arrived = tasks.arrived ∧ after.request = call.request) ∨
    call.request = none ∧ ∃ fresh, after.request = some fresh ∧ fresh ∉ tasks.arrived ∧
      fresh.executionClass = call.executionClass ∧ next.arrived = tasks.arrived ++ [fresh]
  others : ∀ request ∈ tasks.arrived, call.request ≠ some request → Kept tasks next request

theorem Turn.quiet (accounted : Accounted tasks) (fits : Fits tasks after)
    (executionClass : after.executionClass = call.executionClass)
    (request : after.request = call.request) : Turn tasks tasks call after :=
  ⟨accounted, fits, executionClass, .inl ⟨rfl, request⟩, fun _ _ _ => .refl _ _⟩

theorem Turn.own {action : ExecutionQueue.Action} (accounted : Accounted tasks)
    (taken : tasks.step action = some next) (arrived : next.arrived = tasks.arrived)
    (fits : Fits next after) (executionClass : after.executionClass = call.executionClass)
    (own : call.request = some request) (same : after.request = some request)
    (others : ∀ other, other ≠ request → Kept tasks next other) : Turn tasks next call after where
  accounted := step_accounted accounted taken
  fits := fits
  executionClass := executionClass
  requests := .inl ⟨arrived, same.trans own.symm⟩
  others other _ distinct := others other fun equal => distinct (equal ▸ own)

/-! ### The steps of `acquire` -/

@[simp] theorem passOn_request (call : Call) : call.passOn.request = call.request := by
  unfold Call.passOn
  split <;> rfl

@[simp] theorem passOn_executionClass (call : Call) :
    call.passOn.executionClass = call.executionClass := by
  unfold Call.passOn
  split <;> rfl

theorem passOn_acquire (call : Call) : call.passOn.acquire = call.acquire := by
  unfold Call.passOn
  split <;> rfl

/-- A call whose `acquire` has returned to a caller that asked for no cancellation. -/
theorem held_passOn (acquire : call.acquire = .returned) (own : call.request = some request)
    (holding : request ∈ next.holding) (caller : call.caller = .direct ∨ call.caller = .polling) :
    Fits next call.passOn := by
  refine .held request ((passOn_acquire call).trans acquire) ((passOn_request call).trans own)
    holding ?_
  rcases caller with direct | polling
  · exact .inr (by simp [Call.passOn, direct, acquire])
  · exact .inl (by simp [Call.passOn, polling])

theorem cancelled_passOn (acquire : call.acquire = .cancelled)
    (gone : ∀ request, call.request = some request → Gone next request)
    (inside : call.caller.inside = true) : Fits next call.passOn := by
  refine .cancelled ((passOn_acquire call).trans acquire) (by simpa using gone) ?_
  unfold Call.passOn
  split
  · rename_i returned
    cases acquire.symm.trans returned
  · exact .inr rfl
  · exact .inl inside

theorem waiting_passOn (acquire : call.acquire = .waiting) : call.passOn = call := by
  unfold Call.passOn
  split
  · simp_all
  · simp_all
  · rfl

theorem startAcquire_turn (accounted : Accounted tasks) (none : call.request = none)
    (inside : call.caller.inside = true)
    (caller : call.caller = .direct ∨ call.caller = .polling)
    (taken : startAcquire tasks call = some (next, after)) :
    Turn tasks next call after.passOn := by
  simp only [startAcquire] at taken
  obtain ⟨entered, first, rest⟩ := bind_eq_some_iff.mp taken
  obtain ⟨arrived, pending, kept⟩ := acquire_moves accounted first
  have counted := step_accounted accounted first
  have fresh : (⟨tasks.arrived.length, call.executionClass⟩ : ExecutionRequest) ∉ tasks.arrived :=
    fun known => Nat.lt_irrefl _ (accounted.arrived_lt known)
  split at rest
  · obtain ⟨settled, second, same⟩ := map_eq_some_iff.mp rest
    cases same
    obtain ⟨arrivedToo, holding, keptToo⟩ := resume_moves second
    refine ⟨step_accounted counted second, held_passOn rfl rfl holding caller, by simp,
      .inr ⟨none, _, by simp, fresh, rfl, arrivedToo.trans arrived⟩, ?_⟩
    intro request known _
    exact (kept request).trans (keptToo request fun equal => fresh (equal ▸ known))
  · cases rest
    rw [waiting_passOn rfl]
    exact ⟨counted, .waiting _ rfl rfl pending inside (.inr caller), rfl,
      .inr ⟨none, _, rfl, fresh, rfl, arrived⟩, fun request _ _ => kept request⟩

theorem endAcquire_turn (accounted : Accounted tasks) (own : call.request = some request)
    (inside : call.caller.inside = true)
    (asked : call.cancelling = true ∨ call.caller = .direct ∨ call.caller = .polling)
    (taken : endAcquire tasks call request = some (next, after)) :
    Turn tasks next call after.passOn := by
  unfold endAcquire at taken
  split at taken
  · obtain ⟨cancelled, step, same⟩ := map_eq_some_iff.mp taken
    cases same
    obtain ⟨arrived, gone, others⟩ := cancel_moves step
    refine .own accounted step arrived (cancelled_passOn rfl ?_ inside) (by simp) own (by simpa)
      others
    intro other mine
    cases own.symm.trans mine
    exact gone
  · rename_i calm
    obtain ⟨resumed, step, same⟩ := map_eq_some_iff.mp taken
    cases same
    obtain ⟨arrived, holding, others⟩ := resume_moves step
    have caller := asked.resolve_left calm
    exact .own accounted step arrived (held_passOn rfl own holding caller) (by simp) own
      (by simpa) others

theorem runAcquire_turn (accounted : Accounted tasks) (fits : Fits tasks call)
    (taken : runAcquire tasks call = some (next, after)) : Turn tasks next call after.passOn := by
  cases fits with
  | created acquire none inside asked =>
    simp only [runAcquire, acquire] at taken
    split at taken
    · cases taken
      refine .quiet accounted (cancelled_passOn rfl ?_ inside) (by simp) (by simp)
      intro request own
      cases none.symm.trans own
    · rename_i calm
      exact startAcquire_turn accounted none inside (asked.resolve_left calm) taken
  | waiting request acquire own pending inside asked =>
    simp only [runAcquire, acquire, own] at taken
    exact endAcquire_turn accounted own inside asked taken
  | cancelled acquire gone outcome => simp [runAcquire, acquire] at taken
  | held request acquire own holding outcome => simp [runAcquire, acquire] at taken
  | back request acquire own released outcome => simp [runAcquire, acquire] at taken

theorem unwind_turn (accounted : Accounted tasks) (fits : Fits tasks call)
    (inside : call.caller.inside = true)
    (taken : unwind tasks call = some (next, after)) : Turn tasks next call after := by
  cases fits with
  | created acquire none _ asked =>
    simp only [unwind, acquire] at taken
    cases taken
    exact .quiet accounted (.created rfl none rfl (.inl rfl)) rfl rfl
  | waiting request acquire own pending _ asked =>
    simp only [unwind, acquire] at taken
    cases taken
    exact .quiet accounted (.waiting request rfl own pending rfl (.inl rfl)) rfl rfl
  | cancelled acquire gone outcome =>
    simp only [unwind, acquire] at taken
    cases taken
    exact .quiet accounted (.cancelled rfl gone (.inr rfl)) rfl rfl
  | held request acquire own holding outcome =>
    simp only [unwind, acquire, own] at taken
    obtain ⟨released, step, same⟩ := map_eq_some_iff.mp taken
    cases same
    obtain ⟨arrived, back, others⟩ := release_moves step
    exact .own accounted step arrived (.back request rfl rfl back (.inl rfl)) rfl own rfl others
  | back request acquire own released outcome =>
    rcases outcome with raised | given
    · rw [raised] at inside
      cases inside
    · rw [given] at inside
      cases inside

theorem Fits.stop (fits : Fits tasks call) (going : call.acquire.done = false) (caller : Caller)
    (inside : caller.inside = true) :
    Fits tasks { call with cancelling := true, caller := caller } := by
  cases fits with
  | created acquire none _ _ => exact .created acquire none inside (.inl rfl)
  | waiting request acquire own pending _ _ =>
    exact .waiting request acquire own pending inside (.inl rfl)
  | cancelled acquire _ _ => simp [acquire, Acquire.done] at going
  | held _ acquire _ _ _ => simp [acquire, Acquire.done] at going
  | back _ acquire _ _ _ => simp [acquire, Acquire.done] at going

theorem poll_turn (accounted : Accounted tasks) (fits : Fits tasks call)
    (polling : call.caller = .polling)
    (taken : poll tasks call = some (next, after)) : Turn tasks next call after := by
  have inside : call.caller.inside = true := by rw [polling]; rfl
  unfold poll at taken
  split at taken
  · split at taken
    · exact unwind_turn accounted fits inside taken
    · split at taken
      · rename_i returned
        cases taken
        cases fits with
        | created acquire _ _ _ => cases acquire.symm.trans returned
        | waiting _ acquire _ _ _ _ => cases acquire.symm.trans returned
        | cancelled acquire _ _ => cases acquire.symm.trans returned
        | held request acquire own holding _ =>
          exact .quiet accounted (.held request acquire own holding (.inr rfl)) rfl rfl
        | back request _ _ _ outcome =>
          rw [polling] at outcome
          simp at outcome
      · exact unwind_turn accounted fits inside taken
  · rename_i going
    have going := Bool.eq_false_iff.mpr going
    split at taken
    · cases taken
      exact .quiet accounted (fits.stop going .stopping rfl) rfl rfl
    · cases taken
      have same : { call with caller := .polling } = call := by rw [← polling]
      rw [same]
      exact .quiet accounted fits rfl rfl

theorem resume_turn (accounted : Accounted tasks) (fits : Fits tasks call) {thrown : Bool}
    (taken : resume tasks call thrown = some (next, after)) : Turn tasks next call after := by
  unfold resume at taken
  split at taken
  · rename_i direct
    split at taken
    · rename_i asked
      cases taken
      have stopped := fits.stop asked.2 call.caller (by rw [direct]; rfl)
      exact .quiet accounted stopped rfl rfl
    · cases taken
  · rename_i polling
    split at taken
    · exact unwind_turn accounted fits (by rw [polling]; rfl) taken
    · exact poll_turn accounted fits polling taken
  · rename_i stopping
    split at taken
    · exact unwind_turn accounted fits (by rw [stopping]; rfl) taken
    · rename_i going
      split at taken
      · cases taken
        have stopped := fits.stop (Bool.eq_false_iff.mpr going) call.caller (by rw [stopping]; rfl)
        exact .quiet accounted stopped rfl rfl
      · cases taken
  · rename_i unwinding
    split at taken
    · rename_i done
      cases taken
      cases fits with
      | created acquire _ _ _ => simp [acquire, Acquire.done] at done
      | waiting _ acquire _ _ _ _ => simp [acquire, Acquire.done] at done
      | cancelled acquire gone _ =>
        exact .quiet accounted (.cancelled acquire gone (.inr rfl)) rfl rfl
      | held _ _ _ _ outcome =>
        rw [unwinding] at outcome
        simp at outcome
      | back _ _ _ _ outcome =>
        rw [unwinding] at outcome
        simp at outcome
    · rename_i going
      split at taken
      · cases taken
        have stopped := fits.stop (Bool.eq_false_iff.mpr going) call.caller
          (by rw [unwinding]; rfl)
        exact .quiet accounted stopped rfl rfl
      · cases taken
  · cases taken

theorem giveBack_turn (accounted : Accounted tasks) (fits : Fits tasks call)
    (taken : giveBack tasks call = some (next, after)) : Turn tasks next call after := by
  unfold giveBack at taken
  split at taken
  · rename_i request returned own
    obtain ⟨released, step, same⟩ := map_eq_some_iff.mp taken
    cases same
    obtain ⟨arrived, back, others⟩ := release_moves step
    have acquire : call.acquire = .returned := by
      cases fits with
      | created _ none _ _ => cases none.symm.trans own
      | waiting _ _ _ _ inside _ => simp [returned, Caller.inside] at inside
      | cancelled _ _ outcome => simp [returned, Caller.inside] at outcome
      | held _ acquire _ _ _ => exact acquire
      | back _ acquire _ _ _ => exact acquire
    exact .own accounted step arrived (.back request acquire own back (.inr rfl)) rfl own own
      others
  · cases taken

theorem act_turn {action : Action} (accounted : Accounted tasks) (fits : Fits tasks call)
    (taken : act tasks call action = some (next, after)) : Turn tasks next call after := by
  cases action with
  | call => cases taken
  | runAcquire =>
    obtain ⟨outcome, ran, same⟩ := map_eq_some_iff.mp taken
    cases same
    exact runAcquire_turn accounted fits ran
  | setEvent =>
    cases taken
    refine .quiet accounted ?_ rfl rfl
    cases fits with
    | created acquire none inside asked => exact .created acquire none inside asked
    | waiting request acquire own pending inside asked =>
      exact .waiting request acquire own pending inside asked
    | cancelled acquire gone outcome => exact .cancelled acquire gone outcome
    | held request acquire own holding outcome => exact .held request acquire own holding outcome
    | back request acquire own released outcome => exact .back request acquire own released outcome
  | resume => exact resume_turn accounted fits taken
  | release => exact giveBack_turn accounted fits taken

/-- Every request of the queue is that of one call, and every call fits it. -/
structure World.Sound (world : World) : Prop where
  accounted : Accounted world.tasks
  requests : (world.calls.filterMap (·.request)).Perm world.tasks.arrived
  classes : ∀ call ∈ world.calls, ∀ request, call.request = some request →
    request.executionClass = call.executionClass
  fits : ∀ call ∈ world.calls, Fits world.tasks call

theorem Turn.sound {rest calls : List Call} (sound : world.Sound)
    (before : world.calls.Perm (call :: rest)) (now : calls.Perm (after :: rest))
    (turn : Turn world.tasks next call after) : World.Sound ⟨next, calls⟩ := by
  have requests := (before.filterMap (·.request)).symm.trans sound.requests
  have distinct := requests.nodup_iff.mpr sound.accounted.arrived_nodup
  have same : calls.filterMap (·.request) |>.Perm ((after :: rest).filterMap (·.request)) :=
    now.filterMap _
  have inRest : ∀ other ∈ rest, other ∈ world.calls := fun other member =>
    before.mem_iff.mpr (mem_cons_of_mem _ member)
  have mine : call ∈ world.calls := before.mem_iff.mpr (mem_cons_self ..)
  -- The requests of the other calls are known, and are not that of this one.
  have foreign : ∀ other ∈ rest, ∀ request, other.request = some request →
      request ∈ world.tasks.arrived ∧ call.request ≠ some request := by
    intro other member request own
    have listed : request ∈ rest.filterMap (·.request) := mem_filterMap.mpr ⟨other, member, own⟩
    refine ⟨requests.mem_iff.mp ?_, ?_⟩
    · rw [filterMap_cons]
      split
      · exact listed
      · exact mem_cons_of_mem _ listed
    · intro equal
      rw [filterMap_cons_some equal] at distinct
      exact (nodup_cons.mp distinct).1 listed
  refine ⟨turn.accounted, same.trans ?_, ?_, ?_⟩
  · rcases turn.requests with ⟨arrived, equal⟩ | ⟨none, fresh, some, -, -, arrived⟩
    · simp only [arrived, filterMap_cons, equal] at requests ⊢
      exact requests
    · rw [filterMap_cons_none none] at requests
      rw [filterMap_cons_some some, arrived]
      exact (requests.cons fresh).trans (perm_append_singleton _ _).symm
  · intro other member request own
    rcases mem_cons.mp (now.mem_iff.mp member) with rfl | member
    · rw [turn.executionClass]
      rcases turn.requests with ⟨-, equal⟩ | ⟨-, fresh, some, -, fits, -⟩
      · exact sound.classes call mine request (equal ▸ own)
      · cases some.symm.trans own
        exact fits
    · exact sound.classes other (inRest other member) request own
  · intro other member
    rcases mem_cons.mp (now.mem_iff.mp member) with rfl | member
    · exact turn.fits
    · refine (sound.fits other (inRest other member)).kept ?_
      intro request own
      obtain ⟨known, apart⟩ := foreign other member request own
      exact turn.others request known apart

theorem newCall_sound (sound : world.Sound) (executionClass : ExecutionClass) (watched : Bool) :
    World.Sound { world with calls := world.calls ++ [newCall executionClass watched] } where
  accounted := sound.accounted
  requests := by
    rw [filterMap_append]
    simpa [newCall] using sound.requests
  classes := by
    intro call member request own
    rcases mem_append.mp member with old | new
    · exact sound.classes call old request own
    · cases mem_singleton.mp new
      cases own
  fits := by
    intro call member
    rcases mem_append.mp member with old | new
    · exact sound.fits call old
    · cases mem_singleton.mp new
      cases watched with
      | false => exact .created rfl rfl rfl (.inr (.inl rfl))
      | true => exact .created rfl rfl rfl (.inr (.inr rfl))

theorem step_sound {after : World} {action : Action} (sound : world.Sound)
    (taken : world.step action = some after) : after.Sound := by
  unfold World.step at taken
  split at taken
  · cases taken
    exact newCall_sound sound _ _
  · obtain ⟨index, -, taken⟩ := bind_eq_some_iff.mp taken
    obtain ⟨call, current, taken⟩ := bind_eq_some_iff.mp taken
    obtain ⟨outcome, acted, rfl⟩ := map_eq_some_iff.mp taken
    obtain ⟨rest, before, now⟩ := TaskPool.settle_perm current (some outcome.2)
    have mine : call ∈ world.calls := before.mem_iff.mpr (mem_cons_self ..)
    exact (act_turn sound.accounted (sound.fits call mine) acted).sound sound before now

theorem Gone.inactive (accounted : Accounted tasks) (gone : Gone tasks request) :
    request ∉ tasks.active := by
  have distinct := accounted.onePlace.nodup_iff.mp accounted.arrived_nodup
  rw [append_assoc, nodup_append] at distinct
  have apart := (nodup_append.mp distinct.2.1).2.2
  intro active
  exact apart request active request (mem_append.mpr gone) rfl

theorem Accounted.active_nodup (accounted : Accounted tasks) : tasks.active.Nodup := by
  have distinct := accounted.onePlace.nodup_iff.mp accounted.arrived_nodup
  rw [append_assoc, nodup_append] at distinct
  exact (nodup_append.mp distinct.2.1).1

theorem slots_none (own : call.request = none) : world.slots call = 0 := by
  rw [World.slots, own]

theorem Sound.slots (sound : world.Sound) (member : call ∈ world.calls)
    (own : call.request = some request) :
    world.slots call = if request ∈ world.tasks.active then 1 else 0 := by
  rw [World.slots, own]
  simp only [sound.classes call member request own, if_true]
  split
  · exact count_eq_one_of_mem (Accounted.active_nodup sound.accounted) ‹_›
  · exact count_eq_zero.mpr ‹_›

theorem Sound.ended (sound : world.Sound) (member : call ∈ world.calls)
    (caller : call.caller = .raised ∨ call.caller = .released) : world.slots call = 0 := by
  have outside : call.caller.inside = false := by
    rcases caller with ended | ended <;> rw [ended] <;> rfl
  cases sound.fits call member with
  | created _ _ inside _ => cases inside.symm.trans outside
  | waiting _ _ _ _ inside _ => cases inside.symm.trans outside
  | cancelled _ gone _ =>
    cases own : call.request with
    | none => exact slots_none own
    | some request =>
      rw [Sound.slots sound member own, if_neg ((gone request own).inactive sound.accounted)]
  | held _ _ _ _ outcome =>
    rcases caller with ended | ended <;> simp [ended] at outcome
  | back request _ own released _ =>
    rw [Sound.slots sound member own, if_neg (Gone.inactive sound.accounted (.inl released))]

theorem Sound.returned (sound : world.Sound) (member : call ∈ world.calls)
    (caller : call.caller = .returned) : world.slots call = 1 := by
  cases sound.fits call member with
  | created _ _ inside _ => simp [caller, Caller.inside] at inside
  | waiting _ _ _ _ inside _ => simp [caller, Caller.inside] at inside
  | cancelled _ _ outcome => simp [caller, Caller.inside] at outcome
  | held request _ own holding _ =>
    have active : request ∈ world.tasks.active := mem_append_right _ holding
    rw [Sound.slots sound member own, if_pos active]
  | back _ _ _ _ outcome => simp [caller] at outcome

theorem Sound.counted (sound : world.Sound) (executionClass : ExecutionClass) :
    world.tasks.queue.active executionClass = (world.holders executionClass).length := by
  have active : (world.tasks.arrived.filter fun request => request ∈ world.tasks.active).Perm
      world.tasks.active := by
    refine (perm_ext_iff_of_nodup (sound.accounted.arrived_nodup.filter _)
      (Accounted.active_nodup sound.accounted)).mpr ?_
    intro request
    have known : request ∈ world.tasks.active → request ∈ world.tasks.arrived := by
      intro active
      refine sound.accounted.onePlace.mem_iff.mpr ?_
      simp only [mem_append]
      exact .inl (.inr active)
    simp only [mem_filter, decide_eq_true_eq]
    exact ⟨And.right, fun active => ⟨known active, active⟩⟩
  rw [sound.accounted.counted, ← active.countP_eq, countP_filter,
    ← sound.requests.countP_eq, countP_filterMap, World.holders, ← countP_eq_length_filter]
  refine countP_congr ?_
  intro call member
  cases own : call.request with
  | none => simp [slots_none own]
  | some request =>
    rw [Sound.slots sound member own]
    simp [ExecutionRequest.hasClass, sound.classes call member request own]

/-- However the steps of the calls, their cancel events and cancellations, and the
admissions are interleaved: a call of `_acquire_execution` that has returned holds one
slot of its class, one that has raised holds none, and with one release after each return
the counters of the queue count the holders. -/
theorem acquire_exact (maxStandardConcurrency maxExclusiveConcurrency : Int)
    (exclusiveBarrier : Bool) {world : World}
    (reached : Reachable World.step
      (.new maxStandardConcurrency maxExclusiveConcurrency exclusiveBarrier) world) :
    world.Exact := by
  have sound : world.Sound := by
    refine reached.invariant World.Sound (fun _ _ _ sound taken => step_sound sound taken) ?_
    refine ⟨new_accounted _ _ _, .refl _, ?_, ?_⟩
    · intro call member
      cases member
    · intro call member
      cases member
  exact {
    returned := fun call member caller => Sound.returned sound member caller
    raised := fun call member caller => Sound.ended sound member (.inl caller)
    released := fun call member caller => Sound.ended sound member (.inr caller)
    counted := Sound.counted sound
    unraised := sound.accounted.unraised }

/-- The second caller is cancelled in the tick in which its request is admitted. -/
theorem acquire_exact_run : ∃ world,
    exec World.step (.new 1 1 false)
      [.call .standard true, .call .standard true, .runAcquire 0, .runAcquire 1, .resume 0 false,
        .resume 1 false, .release 0, .resume 1 true, .runAcquire 1, .resume 1 false] =
        some world ∧
      world.calls.map (·.caller) = [.released, .raised] ∧
      world.tasks.queue.activeStandard = 0 ∧ world.Exact := by
  have executed : (exec World.step (.new 1 1 false)
      [.call .standard true, .call .standard true, .runAcquire 0, .runAcquire 1, .resume 0 false,
        .resume 1 false, .release 0, .resume 1 true, .runAcquire 1, .resume 1 false]).any
      (fun world => decide (world.calls.map (·.caller) = [.released, .raised] ∧
        world.tasks.queue.activeStandard = 0)) = true := by
    decide
  obtain ⟨world, reached, facts⟩ := (any_eq_true _ _).mp executed
  obtain ⟨callers, active⟩ := of_decide_eq_true facts
  exact ⟨world, reached, callers, active, acquire_exact 1 1 false (exec_reachable reached)⟩

end SourceLens.AcquireExecution
