import SourceLens.ExecutionQueue

/-! Capacity, accounting and progress of the execution queue over every run of
acquires, wake-ups, cancellations and releases. -/

namespace SourceLens.ExecutionQueue

open Transition List

namespace LensNodeExecutionQueue

variable (queue : LensNodeExecutionQueue)

/-- The capacity rules: no class exceeds its limit, and under the barrier an
exclusive request is alone. -/
structure Bounded (queue : LensNodeExecutionQueue) : Prop where
  standard : queue.activeStandard ≤ queue.maxStandardConcurrency
  delegated : queue.activeDelegated ≤ queue.maxDelegatedConcurrency
  exclusive : queue.activeExclusive ≤ queue.maxExclusiveConcurrency
  alone : queue.exclusiveBarrier = true → 0 < queue.activeExclusive →
    queue.activeStandard = 0 ∧ queue.activeDelegated = 0

theorem admitStandardWaiters_bounded (bounded : queue.Bounded) :
    queue.admitStandardWaiters.Bounded := by
  unfold admitStandardWaiters
  split
  · exact bounded
  · rename_i passes
    refine ⟨admitPass_limit _ _ _ _ _ bounded.standard, bounded.delegated, bounded.exclusive, ?_⟩
    intro barrier busy
    exact absurd ⟨barrier, .inl busy⟩ passes

theorem admitDelegatedWaiters_bounded (bounded : queue.Bounded) :
    queue.admitDelegatedWaiters.Bounded := by
  unfold admitDelegatedWaiters
  split
  · exact bounded
  · rename_i passes
    refine ⟨bounded.standard, admitPass_limit _ _ _ _ _ bounded.delegated, bounded.exclusive, ?_⟩
    intro barrier busy
    exact absurd ⟨barrier, busy⟩ passes

theorem admitExclusiveWaiters_bounded (bounded : queue.Bounded) :
    queue.admitExclusiveWaiters.Bounded := by
  refine ⟨bounded.standard, bounded.delegated, admitPass_limit _ _ _ _ _ bounded.exclusive, ?_⟩
  intro barrier busy
  by_cases gate : queue.exclusiveGate = true
  · have idle : queue.activeStandard = 0 ∧ queue.activeDelegated = 0 := by
      simpa [exclusiveGate, show queue.exclusiveBarrier = true from barrier] using gate
    exact idle
  · -- A shut gate admits nobody, so the exclusive holder was there before the pass.
    have unchanged := admitPass_closed .exclusive queue.maxExclusiveConcurrency
      queue.activeExclusive queue.exclusiveGate queue.waiting (.inr (by simpa using gate))
    have before : 0 < queue.activeExclusive := by
      simpa only [admitExclusiveWaiters, unchanged] using busy
    exact bounded.alone barrier before

theorem admitWaiters_bounded (bounded : queue.Bounded) :
    queue.admitWaiters.Bounded :=
  admitExclusiveWaiters_bounded _
    (admitDelegatedWaiters_bounded _ (admitStandardWaiters_bounded queue bounded))

theorem releaseActive_bounded {queue after : LensNodeExecutionQueue} {cls : ExecutionClass}
    (bounded : queue.Bounded) (released : queue.releaseActive cls = .ok after) :
    after.Bounded := by
  have standard := bounded.standard
  have delegated := bounded.delegated
  have exclusive := bounded.exclusive
  have alone := bounded.alone
  cases cls <;> simp only [releaseActive] at released <;> split at released <;> cases released
  · refine ⟨?_, delegated, exclusive, ?_⟩ <;> grind
  · refine ⟨standard, ?_, exclusive, ?_⟩ <;> grind [maxDelegatedConcurrency]
  · refine ⟨standard, delegated, ?_, ?_⟩ <;> grind

theorem releaseActive_ok {queue : LensNodeExecutionQueue} {cls : ExecutionClass}
    (busy : 0 < queue.active cls) :
    ∃ after, queue.releaseActive cls = .ok after ∧ after.toCapacity = queue.toCapacity ∧
      after.waiting = queue.waiting ∧ after.admitted = queue.admitted ∧
      after.active cls + 1 = queue.active cls ∧
      ∀ other, other ≠ cls → after.active other = queue.active other := by
  cases cls <;> simp only [active] at busy <;>
    refine ⟨_, if_neg (by omega), rfl, rfl, rfl, ?_, ?_⟩
  all_goals first
    | simp only [active]; omega
    | intro other distinct
      cases other <;> first | rfl | exact absurd rfl distinct

structure Idle (queue : LensNodeExecutionQueue) : Prop where
  standard : (queue.exclusiveBarrier = true ∧ (0 < queue.activeExclusive ∨
      queue.waiting.any (·.hasClass .exclusive) = true)) ∨
    queue.maxStandardConcurrency ≤ queue.activeStandard ∨
    ∀ request ∈ queue.waiting, request.executionClass ≠ .standard
  delegated : (queue.exclusiveBarrier = true ∧ 0 < queue.activeExclusive) ∨
    queue.maxDelegatedConcurrency ≤ queue.activeDelegated ∨
    ∀ request ∈ queue.waiting, request.executionClass ≠ .delegated
  exclusive : queue.exclusiveGate = false ∨
    queue.maxExclusiveConcurrency ≤ queue.activeExclusive ∨
    ∀ request ∈ queue.waiting, request.executionClass ≠ .exclusive

theorem admitPass_idle {wanted : ExecutionClass} {limit active : Nat} {gate : Bool}
    {requests : List ExecutionRequest}
    (idle : gate = false ∨ limit ≤ active ∨
      ∀ request ∈ requests, request.executionClass ≠ wanted) :
    admitPass wanted limit gate active requests = ⟨active, requests, []⟩ := by
  rcases idle with shut | full | absent
  · exact admitPass_closed wanted limit active gate requests (.inr shut)
  · exact admitPass_closed wanted limit active gate requests (.inl full)
  · exact admitPass_unwanted wanted limit active gate requests absent

/-- An idle queue is a fixed point of `_admit_waiters`. -/
theorem Idle.settled {queue : LensNodeExecutionQueue} (idle : queue.Idle) :
    queue.admitWaiters = queue := by
  have standard : queue.admitStandardWaiters = queue := by
    unfold admitStandardWaiters
    split
    · rfl
    · rename_i passes
      rw [admitPass_idle (.inr (idle.standard.resolve_left passes))]
      simp
  have delegated : queue.admitDelegatedWaiters = queue := by
    unfold admitDelegatedWaiters
    split
    · rfl
    · rename_i passes
      rw [admitPass_idle (.inr (idle.delegated.resolve_left passes))]
      simp
  have exclusive : queue.admitExclusiveWaiters = queue := by
    unfold admitExclusiveWaiters
    rw [admitPass_idle idle.exclusive]
    simp
  rw [admitWaiters, standard, delegated, exclusive]

theorem admitStandardWaiters_idle :
    (queue.exclusiveBarrier = true ∧ (0 < queue.activeExclusive ∨
        queue.waiting.any (·.hasClass .exclusive) = true)) ∨
      queue.maxStandardConcurrency ≤ queue.admitStandardWaiters.activeStandard ∨
      ∀ request ∈ queue.admitStandardWaiters.waiting, request.executionClass ≠ .standard := by
  unfold admitStandardWaiters
  split
  · rename_i blocked
    exact .inl blocked
  · exact .inr (admitPass_settled .standard _ _ true _ rfl)

theorem admitDelegatedWaiters_idle :
    (queue.exclusiveBarrier = true ∧ 0 < queue.activeExclusive) ∨
      queue.maxDelegatedConcurrency ≤ queue.admitDelegatedWaiters.activeDelegated ∨
      ∀ request ∈ queue.admitDelegatedWaiters.waiting, request.executionClass ≠ .delegated := by
  unfold admitDelegatedWaiters
  split
  · rename_i blocked
    exact .inl blocked
  · exact .inr (admitPass_settled .delegated _ _ true _ rfl)

theorem admitExclusiveWaiters_idle :
    queue.admitExclusiveWaiters.exclusiveGate = false ∨
      queue.maxExclusiveConcurrency ≤ queue.admitExclusiveWaiters.activeExclusive ∨
      ∀ request ∈ queue.admitExclusiveWaiters.waiting, request.executionClass ≠ .exclusive := by
  by_cases gate : queue.exclusiveGate = true
  · exact .inr (admitPass_settled .exclusive _ _ _ _ gate)
  · exact .inl (show queue.exclusiveGate = false by simpa using gate)

theorem admitWaiters_idle : queue.admitWaiters.Idle := by
  obtain ⟨fresh, whole⟩ := queue.admitWaiters_admits
  obtain ⟨early, standard⟩ := queue.admitStandardWaiters_admits
  obtain ⟨middle, delegated⟩ := queue.admitStandardWaiters.admitDelegatedWaiters_admits
  obtain ⟨late, exclusive⟩ :=
    queue.admitStandardWaiters.admitDelegatedWaiters.admitExclusiveWaiters_admits
  have tail := delegated.trans exclusive
  have barrier : queue.admitWaiters.exclusiveBarrier = queue.exclusiveBarrier :=
    congrArg Capacity.exclusiveBarrier whole.capacity
  have slots : queue.admitWaiters.maxStandardConcurrency = queue.maxStandardConcurrency :=
    congrArg Capacity.maxStandardConcurrency whole.capacity
  refine ⟨?_, ?_, ?_⟩
  · rcases queue.admitStandardWaiters_idle with ⟨on, busy | queued⟩ | full | clear
    · exact .inl ⟨barrier ▸ on, .inl (Nat.lt_of_lt_of_le busy (whole.grows .exclusive))⟩
    · obtain ⟨request, member, cls⟩ := any_eq_true.mp queued
      have named : request.executionClass = .exclusive := of_decide_eq_true cls
      rcases whole.stays_or_runs member with stays | runs
      · exact .inl ⟨barrier ▸ on, .inr (any_eq_true.mpr ⟨request, stays, cls⟩)⟩
      · rw [named] at runs
        exact .inl ⟨barrier ▸ on, .inl runs⟩
    · exact .inr (.inl (slots ▸ Nat.le_trans full (tail.grows .standard)))
    · exact .inr (.inr fun request member => clear request (tail.subset member))
  · rcases queue.admitStandardWaiters.admitDelegatedWaiters_idle with ⟨on, busy⟩ | full | clear
    · have onBefore : queue.exclusiveBarrier = true :=
        congrArg Capacity.exclusiveBarrier standard.capacity ▸ on
      exact .inl ⟨barrier ▸ onBefore, Nat.lt_of_lt_of_le busy (tail.grows .exclusive)⟩
    · have limit : queue.admitStandardWaiters.maxDelegatedConcurrency =
          queue.admitWaiters.maxDelegatedConcurrency :=
        (congrArg Capacity.maxStandardConcurrency tail.capacity).symm
      exact .inr (.inl (limit ▸ Nat.le_trans full (exclusive.grows .delegated)))
    · exact .inr (.inr fun request member => clear request (exclusive.subset member))
  · exact queue.admitStandardWaiters.admitDelegatedWaiters.admitExclusiveWaiters_idle

theorem Idle.busy {queue : LensNodeExecutionQueue} (idle : queue.Idle)
    (queued : queue.waiting ≠ []) :
    0 < queue.activeStandard + queue.activeDelegated + queue.activeExclusive := by
  by_contra none
  have standard : queue.activeStandard = 0 := by omega
  have delegated : queue.activeDelegated = 0 := by omega
  have exclusive : queue.activeExclusive = 0 := by omega
  have noExclusive : ∀ request ∈ queue.waiting, request.executionClass ≠ .exclusive := by
    rcases idle.exclusive with shut | full | clear
    · simp [exclusiveGate, standard, delegated] at shut
    · have positive := queue.exclusive_pos
      omega
    · exact clear
  have noDelegated : ∀ request ∈ queue.waiting, request.executionClass ≠ .delegated := by
    rcases idle.delegated with ⟨-, busy⟩ | full | clear
    · omega
    · have positive := queue.standard_pos
      simp only [maxDelegatedConcurrency] at full
      omega
    · exact clear
  have noStandard : ∀ request ∈ queue.waiting, request.executionClass ≠ .standard := by
    rcases idle.standard with ⟨-, busy | queued⟩ | full | clear
    · omega
    · obtain ⟨request, member, cls⟩ := any_eq_true.mp queued
      exact absurd (of_decide_eq_true cls) (noExclusive request member)
    · have positive := queue.standard_pos
      omega
    · exact clear
  obtain ⟨request, member⟩ := exists_mem_of_ne_nil _ queued
  cases named : request.executionClass with
  | standard => exact noStandard request member named
  | delegated => exact noDelegated request member named
  | exclusive => exact noExclusive request member named

end LensNodeExecutionQueue

/-- Every request has one place, every counter its requests, every class its
arrival order. -/
structure Accounted (tasks : Tasks) : Prop where
  numbered : tasks.arrived.map (·.id) = List.range tasks.arrived.length
  placed : tasks.arrived.Perm (tasks.queue.admitted ++ tasks.queue.waiting ++ tasks.dropped)
  handled : tasks.queue.admitted.Perm (tasks.granted ++ tasks.holding ++ tasks.released)
  counted : ∀ cls, tasks.queue.active cls = tasks.active.countP (·.hasClass cls)
  fifo : ∀ cls, ((tasks.queue.admitted ++ tasks.queue.waiting).filter (·.hasClass cls)).Pairwise
    (fun earlier later => earlier.id < later.id)
  bounded : tasks.queue.Bounded
  unraised : tasks.raised = false

variable {tasks : Tasks}

theorem Accounted.arrived_nodup (accounted : Accounted tasks) :
    tasks.arrived.Nodup := by
  have ids : (tasks.arrived.map (·.id)).Nodup := accounted.numbered ▸ nodup_range
  exact ids.of_map

theorem Accounted.placed_nodup (accounted : Accounted tasks) :
    (tasks.queue.admitted ++ tasks.queue.waiting ++ tasks.dropped).Nodup :=
  accounted.placed.nodup_iff.mp accounted.arrived_nodup

theorem Accounted.arrived_lt (accounted : Accounted tasks)
    {request : ExecutionRequest} (member : request ∈ tasks.arrived) :
    request.id < tasks.arrived.length := by
  have mapped : request.id ∈ tasks.arrived.map (·.id) := mem_map_of_mem member
  rw [accounted.numbered] at mapped
  exact mem_range.mp mapped

/-- Settling admits from the deque of `middle`; it moves requests and keeps all
accounts. -/
theorem settle_accounted {middle : LensNodeExecutionQueue}
    (log : middle.admitted = tasks.queue.admitted)
    (accounted : Accounted { tasks with queue := middle }) :
    Accounted (tasks.settle middle.admitWaiters) := by
  obtain ⟨fresh, admits⟩ := middle.admitWaiters_admits
  refine ⟨accounted.numbered, ?_, ?_, ?_, ?_, ?_, accounted.unraised⟩
  · have placed := accounted.placed
    have moved := admits.moved
    simp only [Tasks.settle, admits.log, append_assoc] at placed ⊢
    refine placed.trans (List.Perm.append_left _ ?_)
    rw [← append_assoc]
    exact moved.append_right _
  · have handled := accounted.handled
    simp only [Tasks.settle, admits.log, log, drop_left] at handled ⊢
    refine (handled.append_right fresh).trans ?_
    simp only [append_assoc]
    refine List.Perm.append_left _ ?_
    rw [← append_assoc]
    exact perm_append_comm
  · intro cls
    have before := accounted.counted cls
    simp only [Tasks.settle, Tasks.active, admits.log, log, drop_left, admits.counted cls,
      countP_append] at before ⊢
    omega
  · intro cls
    have order := accounted.fifo cls
    simp only [Tasks.settle, admits.log, filter_append, append_assoc] at order ⊢
    rw [admits.ordered cls] at order
    exact order
  · exact LensNodeExecutionQueue.admitWaiters_bounded middle accounted.bounded

theorem release_accounted (accounted : Accounted tasks)
    {request : ExecutionRequest} {granted holding : List ExecutionRequest}
    (gone : (tasks.granted ++ tasks.holding).Perm (request :: (granted ++ holding))) :
    ∃ middle, tasks.queue.releaseActive request.executionClass = .ok middle ∧
      middle.admitted = tasks.queue.admitted ∧
      Accounted { tasks with
        queue := middle
        granted := granted
        holding := holding
        released := tasks.released ++ [request] } := by
  have total : ∀ cls, tasks.queue.active cls =
      (granted ++ holding).countP (·.hasClass cls) +
        if request.hasClass cls = true then 1 else 0 := by
    intro cls
    rw [accounted.counted cls, Tasks.active, gone.countP_eq, countP_cons]
  have busy : 0 < tasks.queue.active request.executionClass := by
    rw [total request.executionClass]
    simp [ExecutionRequest.hasClass]
  obtain ⟨middle, released, capacity, waiting, log, counter, others⟩ :=
    LensNodeExecutionQueue.releaseActive_ok busy
  refine ⟨middle, released, log, accounted.numbered, ?_, ?_, ?_, ?_, ?_, accounted.unraised⟩
  · simpa only [log, waiting] using accounted.placed
  · have handled := accounted.handled
    simp only [log]
    refine handled.trans ((gone.append_right _).trans ?_)
    have tail : (request :: (granted ++ holding) ++ tasks.released).Perm
        (granted ++ holding ++ (tasks.released ++ [request])) := by
      rw [← append_assoc]
      exact (perm_append_singleton request _).symm
    exact tail
  · intro cls
    have now := total cls
    simp only [Tasks.active]
    by_cases same : cls = request.executionClass
    · subst cls
      simp only [ExecutionRequest.hasClass, decide_true, if_true] at now
      simp only [ExecutionRequest.hasClass] at now counter ⊢
      omega
    · have distinct : ¬ request.hasClass cls = true := by
        simpa [ExecutionRequest.hasClass] using fun equal => same (Eq.symm equal)
      rw [others cls same, now, if_neg distinct, Nat.add_zero]
  · intro cls
    simpa only [log, waiting] using accounted.fifo cls
  · exact LensNodeExecutionQueue.releaseActive_bounded accounted.bounded released

theorem acquire_accounted (accounted : Accounted tasks) (cls : ExecutionClass) :
    Accounted { tasks with
      arrived := tasks.arrived ++ [⟨tasks.arrived.length, cls⟩]
      queue := { tasks.queue with
        waiting := tasks.queue.waiting ++ [⟨tasks.arrived.length, cls⟩] } } := by
  refine ⟨?_, ?_, accounted.handled, accounted.counted, ?_,
    ⟨accounted.bounded.standard, accounted.bounded.delegated, accounted.bounded.exclusive,
      accounted.bounded.alone⟩, accounted.unraised⟩
  · simp only [map_append, map_cons, map_nil, length_append,
      length_cons, length_nil, Nat.zero_add, range_succ, accounted.numbered]
  · refine (accounted.placed.append_right _).trans ?_
    simp only [append_assoc]
    refine List.Perm.append_left _ (List.Perm.append_left _ ?_)
    exact perm_append_comm
  · intro other
    rw [← append_assoc, filter_append, pairwise_append]
    refine ⟨accounted.fifo other, ?_, ?_⟩
    · exact (pairwise_singleton _ _).filter _
    · intro earlier inside later last
      have known : earlier ∈ tasks.arrived :=
        accounted.placed.mem_iff.mpr (mem_append_left _ (mem_filter.mp inside).1)
      rcases mem_singleton.mp (mem_filter.mp last).1 with rfl
      exact accounted.arrived_lt known

theorem drop_accounted (accounted : Accounted tasks) {request : ExecutionRequest}
    (queued : request ∈ tasks.queue.waiting) :
    Accounted { tasks with
      dropped := tasks.dropped ++ [request]
      queue := { tasks.queue with waiting := tasks.queue.waiting.erase request } } := by
  refine ⟨accounted.numbered, ?_, accounted.handled, accounted.counted, ?_,
    ⟨accounted.bounded.standard, accounted.bounded.delegated, accounted.bounded.exclusive,
      accounted.bounded.alone⟩, accounted.unraised⟩
  · refine accounted.placed.trans ?_
    simp only [append_assoc]
    refine List.Perm.append_left _ ?_
    refine ((perm_cons_erase queued).append_right _).trans ?_
    rw [cons_append, ← append_assoc]
    exact (perm_append_singleton request _).symm
  · intro cls
    have order := accounted.fifo cls
    have smaller : (tasks.queue.admitted ++ tasks.queue.waiting.erase request).Sublist
        (tasks.queue.admitted ++ tasks.queue.waiting) :=
      List.Sublist.append_left erase_sublist _
    exact order.sublist (smaller.filter _)

theorem resume_accounted (accounted : Accounted tasks)
    {request : ExecutionRequest} (member : request ∈ tasks.granted) :
    Accounted { tasks with
      granted := tasks.granted.erase request
      holding := tasks.holding ++ [request] } := by
  have moved : (tasks.granted ++ tasks.holding).Perm
      (tasks.granted.erase request ++ (tasks.holding ++ [request])) := by
    refine ((perm_cons_erase member).append_right _).trans ?_
    rw [cons_append, ← append_assoc]
    exact (perm_append_singleton request _).symm
  refine ⟨accounted.numbered, accounted.placed, ?_, ?_, accounted.fifo, accounted.bounded,
    accounted.unraised⟩
  · exact accounted.handled.trans (moved.append_right _)
  · intro cls
    exact (accounted.counted cls).trans (moved.countP_eq _)

theorem step_accounted {tasks next : Tasks} {action : Action} (accounted : Accounted tasks)
    (taken : tasks.step action = some next) : Accounted next := by
  cases action with
  | acquire cls =>
    cases taken
    exact settle_accounted rfl
      (acquire_accounted accounted cls)
  | resume request =>
    simp only [Tasks.step, Option.ite_none_right_eq_some, Option.some.injEq] at taken
    obtain ⟨member, rfl⟩ := taken
    exact resume_accounted accounted member
  | cancel request =>
    simp only [Tasks.step] at taken
    split at taken
    · rename_i member
      cases taken
      have known : request ∈ tasks.queue.admitted :=
        accounted.handled.mem_iff.mpr (by simp [member])
      have gone : (tasks.granted ++ tasks.holding).Perm
          (request :: (tasks.granted.erase request ++ tasks.holding)) :=
        (perm_cons_erase member).append_right tasks.holding
      obtain ⟨middle, released, log, after⟩ := release_accounted accounted gone
      simp only [LensNodeExecutionQueue.cancelAcquire, if_pos known, released,
        Except.map, Tasks.finishWith]
      exact settle_accounted log after
    · rename_i absent
      simp only [Option.ite_none_right_eq_some, Option.some.injEq] at taken
      obtain ⟨queued, rfl⟩ := taken
      have fresh : request ∉ tasks.queue.admitted := by
        intro known
        have disjoint := (nodup_append.mp accounted.placed_nodup).1
        exact (nodup_append.mp disjoint).2.2 request known request queued rfl
      simp only [LensNodeExecutionQueue.cancelAcquire, if_neg fresh, if_pos queued,
        Tasks.finishWith]
      exact settle_accounted rfl
        (drop_accounted accounted queued)
  | release request =>
    simp only [Tasks.step, Option.ite_none_right_eq_some, Option.some.injEq] at taken
    obtain ⟨member, rfl⟩ := taken
    have gone : (tasks.granted ++ tasks.holding).Perm
        (request :: (tasks.granted ++ tasks.holding.erase request)) :=
      ((perm_cons_erase member).append_left tasks.granted).trans perm_middle
    obtain ⟨middle, released, log, after⟩ := release_accounted accounted gone
    simp only [LensNodeExecutionQueue.release, released, Except.map, Tasks.finishWith]
    exact settle_accounted log after

theorem new_accounted (standard exclusive : Int) (barrier : Bool) :
    Accounted (.new standard exclusive barrier) := by
  refine ⟨rfl, .refl _, .refl _, ?_, ?_, ⟨Nat.zero_le _, Nat.zero_le _, Nat.zero_le _, ?_⟩, rfl⟩
  · intro cls
    cases cls <;> rfl
  · intro cls
    exact List.Pairwise.nil
  · intro _ busy
    exact absurd busy (Nat.lt_irrefl 0)

theorem reachable_accounted {standard exclusive : Int} {barrier : Bool} {tasks : Tasks}
    (reached : Reachable Tasks.step (.new standard exclusive barrier) tasks) : Accounted tasks :=
  reached.invariant Accounted (fun _ _ _ accounted taken => step_accounted accounted taken)
    (new_accounted standard exclusive barrier)

theorem releaseActive_capacity {queue after : LensNodeExecutionQueue} {cls : ExecutionClass}
    (released : queue.releaseActive cls = .ok after) : after.toCapacity = queue.toCapacity := by
  cases cls <;> simp only [LensNodeExecutionQueue.releaseActive] at released <;>
    split at released <;> cases released <;> rfl

/-- An operation leaves the queue alone or ends with an admission. -/
def Finishes (before after : LensNodeExecutionQueue) : Prop :=
  after = before ∨ ∃ middle : LensNodeExecutionQueue,
    middle.toCapacity = before.toCapacity ∧ after = middle.admitWaiters

theorem finishWith_finishes {outcome : Except String LensNodeExecutionQueue}
    {before : LensNodeExecutionQueue} (same : tasks.queue = before)
    (ends : ∀ queue, outcome = .ok queue → Finishes before queue) :
    Finishes before (tasks.finishWith outcome).queue := by
  cases outcome with
  | error message => exact .inl same
  | ok queue => exact ends queue rfl

theorem release_finishes {queue after : LensNodeExecutionQueue} {cls : ExecutionClass}
    (released : queue.release cls = .ok after) : Finishes queue after := by
  simp only [LensNodeExecutionQueue.release, Except.map] at released
  split at released
  · cases released
  · rename_i middle given
    cases released
    exact .inr ⟨middle, releaseActive_capacity given, rfl⟩

theorem cancelAcquire_finishes {queue after : LensNodeExecutionQueue} {request : ExecutionRequest}
    (cancelled : queue.cancelAcquire request = .ok after) : Finishes queue after := by
  simp only [LensNodeExecutionQueue.cancelAcquire] at cancelled
  split at cancelled
  · exact release_finishes cancelled
  · split at cancelled
    · cases cancelled
      exact .inr ⟨{ queue with waiting := queue.waiting.erase request }, rfl, rfl⟩
    · cases cancelled

theorem step_finishes {tasks next : Tasks} {action : Action}
    (taken : tasks.step action = some next) : Finishes tasks.queue next.queue := by
  cases action with
  | acquire cls =>
    cases taken
    exact .inr ⟨{ tasks.queue with
      waiting := tasks.queue.waiting ++ [⟨tasks.arrived.length, cls⟩] }, rfl, rfl⟩
  | resume request =>
    simp only [Tasks.step, Option.ite_none_right_eq_some, Option.some.injEq] at taken
    obtain ⟨-, rfl⟩ := taken
    exact .inl rfl
  | cancel request =>
    simp only [Tasks.step] at taken
    split at taken
    · cases taken
      exact finishWith_finishes rfl fun queue equal => cancelAcquire_finishes equal
    · simp only [Option.ite_none_right_eq_some, Option.some.injEq] at taken
      obtain ⟨-, rfl⟩ := taken
      exact finishWith_finishes rfl fun queue equal => cancelAcquire_finishes equal
  | release request =>
    simp only [Tasks.step, Option.ite_none_right_eq_some, Option.some.injEq] at taken
    obtain ⟨-, rfl⟩ := taken
    exact finishWith_finishes rfl fun queue equal => release_finishes equal

theorem reachable_idle {standard exclusive : Int} {barrier : Bool} {tasks : Tasks}
    (reached : Reachable Tasks.step (.new standard exclusive barrier) tasks) :
    tasks.queue.Idle := by
  refine reached.invariant (fun tasks => tasks.queue.Idle) ?_ ?_
  · intro before action after idle taken
    rcases step_finishes taken with same | ⟨middle, -, settled⟩
    · rw [same]
      exact idle
    · rw [settled]
      exact middle.admitWaiters_idle
  · exact ⟨.inr (.inr (by simp [Tasks.new, LensNodeExecutionQueue.new])),
      .inr (.inr (by simp [Tasks.new, LensNodeExecutionQueue.new])),
      .inr (.inr (by simp [Tasks.new, LensNodeExecutionQueue.new]))⟩

theorem reachable_capacity {start tasks : Tasks} (reached : Reachable Tasks.step start tasks) :
    tasks.queue.toCapacity = start.queue.toCapacity := by
  refine reached.invariant (fun tasks => tasks.queue.toCapacity = start.queue.toCapacity) ?_ rfl
  intro before action after capacity taken
  rcases step_finishes taken with same | ⟨middle, kept, settled⟩
  · rw [same, capacity]
  · obtain ⟨fresh, admits⟩ := middle.admitWaiters_admits
    rw [settled, admits.capacity, kept, capacity]

/-- With the exclusive barrier on: counters, limits, exclusion and places, in
every state of every run. -/
structure Sound (maxStandardConcurrency maxExclusiveConcurrency : Int) (tasks : Tasks) :
    Prop where
  counted : ∀ cls, tasks.queue.active cls = tasks.active.countP (·.hasClass cls)
  standard : tasks.queue.activeStandard ≤ (max 1 maxStandardConcurrency).toNat
  delegated : tasks.queue.activeDelegated ≤ (max 1 maxStandardConcurrency).toNat
  exclusive : tasks.queue.activeExclusive ≤ (max 1 maxExclusiveConcurrency).toNat
  alone : 0 < tasks.queue.activeExclusive →
    tasks.queue.activeStandard = 0 ∧ tasks.queue.activeDelegated = 0
  distinct : tasks.arrived.Nodup
  onePlace : tasks.arrived.Perm
    (tasks.queue.waiting ++ tasks.active ++ (tasks.released ++ tasks.dropped))
  releasable : ∀ request ∈ tasks.active,
    ∃ after, tasks.queue.releaseActive request.executionClass = .ok after
  unraised : tasks.raised = false

theorem Accounted.onePlace (accounted : Accounted tasks) :
    tasks.arrived.Perm
      (tasks.queue.waiting ++ tasks.active ++ (tasks.released ++ tasks.dropped)) := by
  have spread : (tasks.queue.admitted ++ tasks.queue.waiting ++ tasks.dropped).Perm
      (tasks.queue.waiting ++ (tasks.granted ++ tasks.holding ++ tasks.released) ++
        tasks.dropped) := by
    refine List.Perm.append_right _ (perm_append_comm.trans ?_)
    exact accounted.handled.append_left _
  refine accounted.placed.trans (spread.trans ?_)
  simp only [Tasks.active, append_assoc]
  exact .refl _

theorem Accounted.releasable (accounted : Accounted tasks)
    {request : ExecutionRequest} (member : request ∈ tasks.active) :
    ∃ after, tasks.queue.releaseActive request.executionClass = .ok after := by
  have busy : 0 < tasks.queue.active request.executionClass := by
    rw [accounted.counted]
    exact countP_pos_iff.mpr ⟨request, member, by simp [ExecutionRequest.hasClass]⟩
  obtain ⟨after, released, -⟩ := LensNodeExecutionQueue.releaseActive_ok busy
  exact ⟨after, released⟩

theorem barrier_queue_sound (maxStandardConcurrency maxExclusiveConcurrency : Int) {tasks : Tasks}
    (reached : Reachable Tasks.step
      (.new maxStandardConcurrency maxExclusiveConcurrency true) tasks) :
    Sound maxStandardConcurrency maxExclusiveConcurrency tasks := by
  have accounted := reachable_accounted reached
  have capacity := reachable_capacity reached
  have slots : tasks.queue.maxStandardConcurrency = (max 1 maxStandardConcurrency).toNat :=
    congrArg Capacity.maxStandardConcurrency capacity
  have exclusives : tasks.queue.maxExclusiveConcurrency = (max 1 maxExclusiveConcurrency).toNat :=
    congrArg Capacity.maxExclusiveConcurrency capacity
  have barrier := congrArg Capacity.exclusiveBarrier capacity
  exact {
    counted := accounted.counted
    standard := slots ▸ accounted.bounded.standard
    delegated := slots ▸ accounted.bounded.delegated
    exclusive := exclusives ▸ accounted.bounded.exclusive
    alone := accounted.bounded.alone barrier
    distinct := accounted.arrived_nodup
    onePlace := accounted.onePlace
    releasable := fun _ member => accounted.releasable member
    unraised := accounted.unraised }

/-- A delegated request is admitted past a waiting exclusive one, then a late
cancellation gives its slot back. -/
theorem barrier_queue_sound_run : ∃ tasks,
    exec Tasks.step (.new 2 1 true)
      [.acquire .standard, .acquire .exclusive, .acquire .delegated, .acquire .standard,
        .resume ⟨0, .standard⟩, .cancel ⟨2, .delegated⟩, .release ⟨0, .standard⟩] = some tasks ∧
    tasks.granted = [⟨1, .exclusive⟩] ∧ tasks.queue.waiting = [⟨3, .standard⟩] ∧
    Sound 2 1 tasks := by
  obtain ⟨tasks, executed⟩ : ∃ tasks, exec Tasks.step (.new 2 1 true)
      [.acquire .standard, .acquire .exclusive, .acquire .delegated, .acquire .standard,
        .resume ⟨0, .standard⟩, .cancel ⟨2, .delegated⟩, .release ⟨0, .standard⟩] = some tasks :=
    ⟨_, rfl⟩
  have sound := barrier_queue_sound 2 1 (exec_reachable executed)
  refine ⟨tasks, executed, ?_, ?_, sound⟩ <;> cases executed <;> rfl

/-- Nothing admissible waits, somebody runs while anybody waits, and admissions
within one class follow arrival. -/
structure Progressing (tasks : Tasks) : Prop where
  fixed : tasks.queue.admitWaiters = tasks.queue
  busy : tasks.queue.waiting ≠ [] → tasks.active ≠ []
  inOrder : ∀ earlier later, earlier.executionClass = later.executionClass →
    earlier.id < later.id → earlier ∈ tasks.arrived → earlier ∉ tasks.dropped →
    later ∈ tasks.queue.admitted → [earlier, later].Sublist tasks.queue.admitted

theorem Accounted.busy (accounted : Accounted tasks) (idle : tasks.queue.Idle)
    (queued : tasks.queue.waiting ≠ []) : tasks.active ≠ [] := by
  intro none
  have empty : ∀ cls, tasks.queue.active cls = 0 := by
    intro cls
    rw [accounted.counted cls, none, countP_nil]
  have standard : tasks.queue.activeStandard = 0 := empty .standard
  have delegated : tasks.queue.activeDelegated = 0 := empty .delegated
  have exclusive : tasks.queue.activeExclusive = 0 := empty .exclusive
  have positive := idle.busy queued
  omega

theorem ascending_sublist {requests : List ExecutionRequest} {earlier later : ExecutionRequest}
    (ascending : requests.Pairwise (fun first second => first.id < second.id))
    (before : earlier.id < later.id) (first : earlier ∈ requests) (second : later ∈ requests) :
    [earlier, later].Sublist requests := by
  induction requests with
  | nil => cases first
  | cons head rest ih =>
    obtain ⟨above, tail⟩ := pairwise_cons.mp ascending
    rcases mem_cons.mp first with rfl | inRest
    · rcases mem_cons.mp second with rfl | follows
      · exact absurd before (Nat.lt_irrefl _)
      · exact (singleton_sublist.mpr follows).cons_cons _
    · rcases mem_cons.mp second with rfl | follows
      · have wrong := above earlier inRest
        omega
      · exact (ih tail inRest follows).cons _

theorem Accounted.inOrder (accounted : Accounted tasks)
    {earlier later : ExecutionRequest} (same : earlier.executionClass = later.executionClass)
    (before : earlier.id < later.id) (arrived : earlier ∈ tasks.arrived)
    (kept : earlier ∉ tasks.dropped) (admitted : later ∈ tasks.queue.admitted) :
    [earlier, later].Sublist tasks.queue.admitted := by
  have order := accounted.fifo later.executionClass
  rw [filter_append, pairwise_append] at order
  obtain ⟨ascending, -, across⟩ := order
  have ofClass : later.hasClass later.executionClass = true := by simp [ExecutionRequest.hasClass]
  have alsoClass : earlier.hasClass later.executionClass = true := by
    simp [ExecutionRequest.hasClass, same]
  have known : earlier ∈ tasks.queue.admitted := by
    have place := accounted.placed.mem_iff.mp arrived
    simp only [mem_append, kept, or_false] at place
    rcases place with known | queued
    · exact known
    · have wrong := across later (mem_filter.mpr ⟨admitted, ofClass⟩)
        earlier (mem_filter.mpr ⟨queued, alsoClass⟩)
      omega
  exact (ascending_sublist ascending before (mem_filter.mpr ⟨known, alsoClass⟩)
    (mem_filter.mpr ⟨admitted, ofClass⟩)).trans filter_sublist

theorem queue_progressing (maxStandardConcurrency maxExclusiveConcurrency : Int)
    (exclusiveBarrier : Bool) {tasks : Tasks}
    (reached : Reachable Tasks.step
      (.new maxStandardConcurrency maxExclusiveConcurrency exclusiveBarrier) tasks) :
    Progressing tasks := by
  have accounted := reachable_accounted reached
  have idle := reachable_idle reached
  exact {
    fixed := idle.settled
    busy := accounted.busy idle
    inOrder := fun _ _ same before arrived kept admitted =>
      accounted.inOrder same before arrived kept admitted }

/-- Cancelling the last exclusive waiter lets the standard requests behind it in. -/
theorem queue_progressing_run : ∃ tasks,
    exec Tasks.step (.new 2 1 true)
      [.acquire .standard, .acquire .exclusive, .acquire .standard, .acquire .standard,
        .cancel ⟨1, .exclusive⟩] = some tasks ∧
    tasks.granted = [⟨0, .standard⟩, ⟨2, .standard⟩] ∧
    tasks.queue.waiting = [⟨3, .standard⟩] ∧ Progressing tasks := by
  obtain ⟨tasks, executed⟩ : ∃ tasks, exec Tasks.step (.new 2 1 true)
      [.acquire .standard, .acquire .exclusive, .acquire .standard, .acquire .standard,
        .cancel ⟨1, .exclusive⟩] = some tasks := ⟨_, rfl⟩
  have progressing := queue_progressing 2 1 true (exec_reachable executed)
  refine ⟨tasks, executed, ?_, ?_, progressing⟩ <;> cases executed <;> rfl

/-- What is left to do for the requests: a waiting one is to be resumed and released. -/
def Tasks.demand (tasks : Tasks) : Nat :=
  2 * (tasks.queue.waiting.length + tasks.granted.length) + tasks.holding.length

/-- The callers go on and give back; nobody arrives and nobody is cancelled. -/
def Serving (_ : Tasks) : Action → Prop
  | .resume _ | .release _ => True
  | .acquire _ | .cancel _ => False

theorem settle_demand {middle : LensNodeExecutionQueue}
    (log : middle.admitted = tasks.queue.admitted) :
    (tasks.settle middle.admitWaiters).demand = { tasks with queue := middle }.demand := by
  rcases middle.admitWaiters_admits with ⟨fresh, admits⟩
  have moved := admits.moved.length_eq
  rw [length_append] at moved
  simp only [Tasks.demand, Tasks.settle, admits.log, log, drop_left, length_append]
  omega

theorem releaseActive_waiting {queue after : LensNodeExecutionQueue} {cls : ExecutionClass}
    (released : queue.releaseActive cls = .ok after) :
    after.waiting = queue.waiting ∧ after.admitted = queue.admitted := by
  cases cls <;> simp only [LensNodeExecutionQueue.releaseActive] at released <;>
    split at released <;> cases released <;> exact ⟨rfl, rfl⟩

theorem serving_step {next : Tasks} {action : Action} (accounted : Accounted tasks)
    (serving : Serving tasks action) (taken : tasks.step action = some next) :
    next.demand + 1 = tasks.demand ∧ next.arrived = tasks.arrived ∧ next.dropped = tasks.dropped := by
  cases action with
  | acquire cls => cases serving
  | cancel request => cases serving
  | resume request =>
    simp only [Tasks.step, Option.ite_none_right_eq_some, Option.some.injEq] at taken
    rcases taken with ⟨member, rfl⟩
    have one := length_erase_add_one member
    simp only [Tasks.demand, length_append, length_singleton, and_self, and_true]
    omega
  | release request =>
    simp only [Tasks.step, Option.ite_none_right_eq_some, Option.some.injEq] at taken
    rcases taken with ⟨member, rfl⟩
    have held : request ∈ tasks.active := mem_append_right _ member
    rcases accounted.releasable held with ⟨middle, released⟩
    rcases releaseActive_waiting released with ⟨waiting, log⟩
    have one := length_erase_add_one member
    simp only [LensNodeExecutionQueue.release, released, Except.map, Tasks.finishWith]
    refine ⟨?_, rfl, rfl⟩
    rw [settle_demand]
    · simp only [Tasks.demand, waiting]
      omega
    · exact log

theorem Accounted.served (accounted : Accounted tasks) (idle : tasks.queue.Idle)
    (stuck : ∀ action, Serving tasks action → tasks.step action = none) :
    tasks.active = [] ∧ tasks.queue.waiting = [] := by
  have none : tasks.active = [] := by
    rw [eq_nil_iff_forall_not_mem]
    intro request member
    rcases mem_append.mp member with granted | holding
    · have taken := stuck (.resume request) trivial
      rw [Tasks.step, if_pos granted] at taken
      cases taken
    · have taken := stuck (.release request) trivial
      rw [Tasks.step, if_pos holding] at taken
      cases taken
  refine ⟨none, ?_⟩
  by_contra queued
  exact accounted.busy idle queued none

/-- From every state of every run the callers can only finish: each of their steps takes one
off the demand, and where none is left every request that was not cancelled has had its slot
and given it back. -/
theorem queue_drains (maxStandardConcurrency maxExclusiveConcurrency : Int)
    (exclusiveBarrier : Bool) {tasks finish : Tasks} {actions : List Action}
    (reached : Reachable Tasks.step
      (.new maxStandardConcurrency maxExclusiveConcurrency exclusiveBarrier) tasks)
    (run : Steps Tasks.step Serving tasks actions finish) :
    finish.demand + actions.length = tasks.demand ∧ finish.dropped = tasks.dropped ∧
      ((∀ action, Serving finish action → finish.step action = none) →
        tasks.arrived.Perm (finish.released ++ finish.dropped)) := by
  induction run with
  | nil tasks =>
    refine ⟨rfl, rfl, fun stuck => ?_⟩
    have accounted := reachable_accounted reached
    have places := accounted.onePlace
    rcases accounted.served (reachable_idle reached) stuck with ⟨none, empty⟩
    rwa [none, empty] at places
  | cons serving taken later ih =>
    rcases serving_step (reachable_accounted reached) serving taken with ⟨demand, arrived, dropped⟩
    rcases reached with ⟨front, front_run⟩
    rcases ih ⟨_, front_run.append (.single trivial taken)⟩ with ⟨less, same, served⟩
    refine ⟨?_, same.trans dropped, ?_⟩
    · rw [length_cons]
      omega
    · rwa [arrived] at served

theorem queue_drains_run : ∃ tasks finish,
    exec Tasks.step (.new 2 1 true) [.acquire .standard, .acquire .exclusive] = some tasks ∧
    exec Tasks.step tasks [.resume ⟨0, .standard⟩, .release ⟨0, .standard⟩] = some finish ∧
    finish.demand + 2 = tasks.demand := by
  have reached : ∃ tasks, exec Tasks.step (.new 2 1 true)
      [.acquire .standard, .acquire .exclusive] = some tasks := ⟨_, rfl⟩
  rcases reached with ⟨tasks, reached⟩
  have served : ∃ finish, exec Tasks.step tasks
      [.resume ⟨0, .standard⟩, .release ⟨0, .standard⟩] = some finish := by
    cases reached
    exact ⟨_, rfl⟩
  rcases served with ⟨finish, served⟩
  have serving : Steps Tasks.step Serving tasks _ finish :=
    (exec_steps served).everywhere (by simp [Serving])
  exact ⟨tasks, finish, reached, served, (queue_drains 2 1 true (exec_reachable reached) serving).1⟩

end SourceLens.ExecutionQueue
