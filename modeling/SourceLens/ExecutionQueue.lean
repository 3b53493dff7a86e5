import Mathlib.Data.List.Perm.Basic
import Mathlib.Data.List.Nodup
import SourceLens.Library.Transition

/-! The LensNode-local execution queue (`execution_queue.py`). Every locked
section of the source runs without an await in it, so each of them is one
atomic step here and the lock itself is never contended. -/

namespace SourceLens.ExecutionQueue

open List

variable {wanted : ExecutionClass} {request : ExecutionRequest}
  {before after : LensNodeExecutionQueue} {fresh : List ExecutionRequest}

variable (queue : LensNodeExecutionQueue)

inductive ExecutionClass
  | standard
  | delegated
  | exclusive
  deriving DecidableEq, Repr

/-- `_ExecutionRequest`; the identity of its future is the arrival number. -/
structure ExecutionRequest where
  id : Nat
  executionClass : ExecutionClass
  deriving DecidableEq, Repr

def ExecutionRequest.hasClass (wanted : ExecutionClass) (request : ExecutionRequest) : Bool :=
  decide (request.executionClass = wanted)

structure Capacity where
  maxStandardConcurrency : Nat
  maxExclusiveConcurrency : Nat
  exclusiveBarrier : Bool
  standard_pos : 0 < maxStandardConcurrency
  exclusive_pos : 0 < maxExclusiveConcurrency

structure LensNodeExecutionQueue extends Capacity where
  waiting : List ExecutionRequest
  activeStandard : Nat
  activeDelegated : Nat
  activeExclusive : Nat
  /-- Requests whose future has its result set, oldest first. -/
  admitted : List ExecutionRequest

namespace LensNodeExecutionQueue

def new (maxStandardConcurrency maxExclusiveConcurrency : Int) (exclusiveBarrier : Bool) :
    LensNodeExecutionQueue where
  maxStandardConcurrency := (max 1 maxStandardConcurrency).toNat
  maxExclusiveConcurrency := (max 1 maxExclusiveConcurrency).toNat
  exclusiveBarrier := exclusiveBarrier
  standard_pos := by omega
  exclusive_pos := by omega
  waiting := []
  activeStandard := 0
  activeDelegated := 0
  activeExclusive := 0
  admitted := []

def maxDelegatedConcurrency (queue : LensNodeExecutionQueue) : Nat :=
  queue.maxStandardConcurrency

def active (queue : LensNodeExecutionQueue) : ExecutionClass → Nat
  | .standard => queue.activeStandard
  | .delegated => queue.activeDelegated
  | .exclusive => queue.activeExclusive

end LensNodeExecutionQueue

structure Pass where
  active : Nat
  waiting : List ExecutionRequest
  admitted : List ExecutionRequest

/-- The loop the three admission passes share: pop every request, admit it when
it has the wanted class, a slot is free and the gate is open, and put the others
back in order. -/
def admitPass (wanted : ExecutionClass) (limit : Nat) (gate : Bool) :
    Nat → List ExecutionRequest → Pass
  | active, [] => ⟨active, [], []⟩
  | active, request :: rest =>
    if request.executionClass = wanted ∧ active < limit ∧ gate = true then
      let pass := admitPass wanted limit gate (active + 1) rest
      ⟨pass.active, pass.waiting, request :: pass.admitted⟩
    else
      let pass := admitPass wanted limit gate active rest
      ⟨pass.active, request :: pass.waiting, pass.admitted⟩

namespace LensNodeExecutionQueue

def admitStandardWaiters (queue : LensNodeExecutionQueue) : LensNodeExecutionQueue :=
  if queue.exclusiveBarrier = true ∧ (0 < queue.activeExclusive ∨
      queue.waiting.any (·.hasClass .exclusive) = true) then queue
  else
    let pass := admitPass .standard queue.maxStandardConcurrency true
      queue.activeStandard queue.waiting
    { queue with
      activeStandard := pass.active
      waiting := pass.waiting
      admitted := queue.admitted ++ pass.admitted }

def admitDelegatedWaiters (queue : LensNodeExecutionQueue) : LensNodeExecutionQueue :=
  if queue.exclusiveBarrier = true ∧ 0 < queue.activeExclusive then queue
  else
    let pass := admitPass .delegated queue.maxDelegatedConcurrency true
      queue.activeDelegated queue.waiting
    { queue with
      activeDelegated := pass.active
      waiting := pass.waiting
      admitted := queue.admitted ++ pass.admitted }

def exclusiveGate (queue : LensNodeExecutionQueue) : Bool :=
  !queue.exclusiveBarrier || (queue.activeStandard == 0 && queue.activeDelegated == 0)

def admitExclusiveWaiters (queue : LensNodeExecutionQueue) : LensNodeExecutionQueue :=
  let pass := admitPass .exclusive queue.maxExclusiveConcurrency queue.exclusiveGate
    queue.activeExclusive queue.waiting
  { queue with
    activeExclusive := pass.active
    waiting := pass.waiting
    admitted := queue.admitted ++ pass.admitted }

def admitWaiters (queue : LensNodeExecutionQueue) : LensNodeExecutionQueue :=
  queue.admitStandardWaiters.admitDelegatedWaiters.admitExclusiveWaiters

def releaseActive (queue : LensNodeExecutionQueue) :
    ExecutionClass → Except String LensNodeExecutionQueue
  | .exclusive =>
    if queue.activeExclusive = 0 then .error "No exclusive LensNode work is active."
    else .ok { queue with activeExclusive := queue.activeExclusive - 1 }
  | .delegated =>
    if queue.activeDelegated = 0 then .error "No delegated LensNode work is active."
    else .ok { queue with activeDelegated := queue.activeDelegated - 1 }
  | .standard =>
    if queue.activeStandard = 0 then .error "No standard LensNode work is active."
    else .ok { queue with activeStandard := queue.activeStandard - 1 }

/-- The locked section that opens `acquire`. -/
def enqueue (queue : LensNodeExecutionQueue) (request : ExecutionRequest) :
    LensNodeExecutionQueue :=
  admitWaiters { queue with waiting := queue.waiting ++ [request] }

/-- The `except asyncio.CancelledError` branch of `acquire`. -/
def cancelAcquire (queue : LensNodeExecutionQueue) (request : ExecutionRequest) :
    Except String LensNodeExecutionQueue :=
  if request ∈ queue.admitted then
    (queue.releaseActive request.executionClass).map admitWaiters
  else if request ∈ queue.waiting then
    .ok (admitWaiters { queue with waiting := queue.waiting.erase request })
  else .error "deque.remove(x): x not in deque"

def release (queue : LensNodeExecutionQueue) (executionClass : ExecutionClass) :
    Except String LensNodeExecutionQueue :=
  (queue.releaseActive executionClass).map admitWaiters

end LensNodeExecutionQueue

structure Tasks where
  queue : LensNodeExecutionQueue
  /-- Every request made so far, in arrival order. -/
  arrived : List ExecutionRequest
  /-- Admitted, but `acquire` has not returned to its caller yet. -/
  granted : List ExecutionRequest
  holding : List ExecutionRequest
  /-- Admitted and given back, by `release` or by a late cancellation. -/
  released : List ExecutionRequest
  /-- Cancelled while waiting. -/
  dropped : List ExecutionRequest
  raised : Bool

inductive Action
  | acquire (executionClass : ExecutionClass)
  | resume (request : ExecutionRequest)
  | cancel (request : ExecutionRequest)
  | release (request : ExecutionRequest)

namespace Tasks

def new (maxStandardConcurrency maxExclusiveConcurrency : Int) (exclusiveBarrier : Bool) : Tasks :=
  ⟨.new maxStandardConcurrency maxExclusiveConcurrency exclusiveBarrier, [], [], [], [], [], false⟩

def active (tasks : Tasks) : List ExecutionRequest := tasks.granted ++ tasks.holding

/-- Install the queue an operation left and wake the requests it admitted. -/
def settle (tasks : Tasks) (queue : LensNodeExecutionQueue) : Tasks :=
  { tasks with
    queue := queue
    granted := tasks.granted ++ queue.admitted.drop tasks.queue.admitted.length }

def finishWith (tasks : Tasks) (outcome : Except String LensNodeExecutionQueue) : Tasks :=
  match outcome with
  | .ok queue => tasks.settle queue
  | .error _ => { tasks with raised := true }

def step (tasks : Tasks) : Action → Option Tasks
  | .acquire executionClass =>
    let request := ⟨tasks.arrived.length, executionClass⟩
    some ({ tasks with arrived := tasks.arrived ++ [request] }.settle
      (tasks.queue.enqueue request))
  | .resume request =>
    if request ∈ tasks.granted then
      some { tasks with
        granted := tasks.granted.erase request
        holding := tasks.holding ++ [request] }
    else none
  | .cancel request =>
    let outcome := tasks.queue.cancelAcquire request
    if request ∈ tasks.granted then
      some ({ tasks with
        granted := tasks.granted.erase request
        released := tasks.released ++ [request] }.finishWith outcome)
    else if request ∈ tasks.queue.waiting then
      some ({ tasks with dropped := tasks.dropped ++ [request] }.finishWith outcome)
    else none
  | .release request =>
    if request ∈ tasks.holding then
      some ({ tasks with
        holding := tasks.holding.erase request
        released := tasks.released ++ [request] }.finishWith
          (tasks.queue.release request.executionClass))
    else none

end Tasks

theorem admitPass_take {limit active : Nat} {gate : Bool} (rest : List ExecutionRequest)
    (take : request.executionClass = wanted ∧ active < limit ∧ gate = true) :
    admitPass wanted limit gate active (request :: rest) =
      { admitPass wanted limit gate (active + 1) rest with
        admitted := request :: (admitPass wanted limit gate (active + 1) rest).admitted } :=
  if_pos take

theorem admitPass_skip {limit active : Nat} {gate : Bool} (rest : List ExecutionRequest)
    (skip : ¬ (request.executionClass = wanted ∧ active < limit ∧ gate = true)) :
    admitPass wanted limit gate active (request :: rest) =
      { admitPass wanted limit gate active rest with
        waiting := request :: (admitPass wanted limit gate active rest).waiting } :=
  if_neg skip

theorem admitPass_closed (wanted : ExecutionClass) (limit active : Nat) (gate : Bool)
    (requests : List ExecutionRequest) (closed : limit ≤ active ∨ gate = false) :
    admitPass wanted limit gate active requests = ⟨active, requests, []⟩ := by
  induction requests with
  | nil => rfl
  | cons request rest ih =>
    have shut : ¬ (request.executionClass = wanted ∧ active < limit ∧ gate = true) := by
      intro eligible
      obtain ⟨-, free, opened⟩ := eligible
      rcases closed with full | gated
      · omega
      · simp [gated] at opened
    simp only [admitPass_skip rest shut, ih]

theorem admitPass_unwanted (wanted : ExecutionClass) (limit active : Nat) (gate : Bool)
    (requests : List ExecutionRequest)
    (absent : ∀ request ∈ requests, request.executionClass ≠ wanted) :
    admitPass wanted limit gate active requests = ⟨active, requests, []⟩ := by
  induction requests with
  | nil => rfl
  | cons request rest ih =>
    have shut : ¬ (request.executionClass = wanted ∧ active < limit ∧ gate = true) := by
      intro eligible
      obtain ⟨same, -, -⟩ := eligible
      exact absent request (by simp) same
    have tail := ih (fun other member => absent other (mem_cons_of_mem _ member))
    simp only [admitPass_skip rest shut, tail]

theorem admitPass_active (wanted : ExecutionClass) (limit active : Nat) (gate : Bool)
    (requests : List ExecutionRequest) :
    (admitPass wanted limit gate active requests).active =
      active + (admitPass wanted limit gate active requests).admitted.length := by
  induction requests generalizing active with
  | nil => rfl
  | cons request rest ih =>
    by_cases take : request.executionClass = wanted ∧ active < limit ∧ gate = true
    · simp only [admitPass_take rest take, length_cons, ih (active + 1)]
      omega
    · simp only [admitPass_skip rest take, ih active]

theorem admitPass_class (wanted : ExecutionClass) (limit active : Nat) (gate : Bool)
    (requests : List ExecutionRequest) :
    ∀ request ∈ (admitPass wanted limit gate active requests).admitted,
      request.executionClass = wanted := by
  induction requests generalizing active with
  | nil =>
    intro request member
    cases member
  | cons head rest ih =>
    by_cases take : head.executionClass = wanted ∧ active < limit ∧ gate = true
    · simp only [admitPass_take rest take, mem_cons]
      intro request listed
      rcases listed with rfl | member
      · exact take.1
      · exact ih (active + 1) request member
    · simp only [admitPass_skip rest take]
      exact ih active

theorem admitPass_perm (wanted : ExecutionClass) (limit active : Nat) (gate : Bool)
    (requests : List ExecutionRequest) :
    requests.Perm ((admitPass wanted limit gate active requests).admitted ++
      (admitPass wanted limit gate active requests).waiting) := by
  induction requests generalizing active with
  | nil => exact .refl _
  | cons head rest ih =>
    by_cases take : head.executionClass = wanted ∧ active < limit ∧ gate = true
    · simp only [admitPass_take rest take, cons_append]
      exact (ih (active + 1)).cons head
    · simp only [admitPass_skip rest take]
      exact ((ih active).cons head).trans perm_middle.symm

theorem admitPass_limit (wanted : ExecutionClass) (limit active : Nat) (gate : Bool)
    (requests : List ExecutionRequest) (bounded : active ≤ limit) :
    (admitPass wanted limit gate active requests).active ≤ limit := by
  induction requests generalizing active with
  | nil => exact bounded
  | cons head rest ih =>
    by_cases take : head.executionClass = wanted ∧ active < limit ∧ gate = true
    · simp only [admitPass_take rest take]
      exact ih (active + 1) take.2.1
    · simp only [admitPass_skip rest take]
      exact ih active bounded

theorem admitPass_order (wanted other : ExecutionClass) (limit active : Nat) (gate : Bool)
    (requests : List ExecutionRequest) :
    requests.filter (·.hasClass other) =
      (admitPass wanted limit gate active requests).admitted.filter (·.hasClass other) ++
        (admitPass wanted limit gate active requests).waiting.filter (·.hasClass other) := by
  induction requests generalizing active with
  | nil => rfl
  | cons head rest ih =>
    by_cases take : head.executionClass = wanted ∧ active < limit ∧ gate = true
    · simp only [admitPass_take rest take]
      rw [filter_cons, filter_cons, ih (active + 1)]
      split <;> simp
    · simp only [admitPass_skip rest take]
      by_cases shut : limit ≤ active ∨ gate = false
      · rw [admitPass_closed wanted limit active gate rest shut]
        simp
      · have unwanted : head.executionClass ≠ wanted := by
          intro same
          simp only [not_or, Nat.not_le, Bool.not_eq_false] at shut
          exact take ⟨same, shut.1, shut.2⟩
        rw [filter_cons, filter_cons, ih active]
        by_cases same : head.hasClass other = true
        · have outside : (admitPass wanted limit gate active rest).admitted.filter
              (·.hasClass other) = [] := by
            rw [filter_eq_nil_iff]
            intro request member
            have cls := admitPass_class wanted limit active gate rest request member
            simp only [ExecutionRequest.hasClass, decide_eq_true_eq] at same ⊢
            rw [cls, ← same]
            exact fun equal => unwanted equal.symm
          simp [same, outside]
        · simp [same]

theorem admitPass_settled (wanted : ExecutionClass) (limit active : Nat) (gate : Bool)
    (requests : List ExecutionRequest) (opened : gate = true) :
    limit ≤ (admitPass wanted limit gate active requests).active ∨
      ∀ request ∈ (admitPass wanted limit gate active requests).waiting,
        request.executionClass ≠ wanted := by
  induction requests generalizing active with
  | nil =>
    right
    intro request member
    cases member
  | cons head rest ih =>
    by_cases take : head.executionClass = wanted ∧ active < limit ∧ gate = true
    · simp only [admitPass_take rest take]
      exact ih (active + 1)
    · simp only [admitPass_skip rest take]
      by_cases full : limit ≤ active
      · rw [admitPass_closed wanted limit active gate rest (.inl full)]
        exact .inl full
      · rcases ih active with limited | clear
        · exact .inl limited
        · right
          intro request member
          rcases mem_cons.mp member with rfl | member
          · exact fun same => take ⟨same, Nat.lt_of_not_le full, opened⟩
          · exact clear request member

/-- `Admits before after fresh`: the requests `fresh` left the deque of `before`
with their futures set, everything else is in place. -/
structure Admits (before after : LensNodeExecutionQueue) (fresh : List ExecutionRequest) :
    Prop where
  capacity : after.toCapacity = before.toCapacity
  log : after.admitted = before.admitted ++ fresh
  moved : before.waiting.Perm (fresh ++ after.waiting)
  counted : ∀ cls, after.active cls = before.active cls + fresh.countP (·.hasClass cls)
  ordered : ∀ cls, before.waiting.filter (·.hasClass cls) =
    fresh.filter (·.hasClass cls) ++ after.waiting.filter (·.hasClass cls)

theorem Admits.refl : Admits queue queue [] where
  capacity := rfl
  log := by simp
  moved := by simp
  counted := by simp
  ordered := by simp

theorem Admits.trans {first second third : LensNodeExecutionQueue}
    {early late : List ExecutionRequest} (one : Admits first second early)
    (two : Admits second third late) : Admits first third (early ++ late) where
  capacity := two.capacity.trans one.capacity
  log := by rw [two.log, one.log, append_assoc]
  moved := by
    rw [append_assoc]
    exact one.moved.trans (two.moved.append_left early)
  counted cls := by rw [two.counted, one.counted, countP_append, Nat.add_assoc]
  ordered cls := by rw [one.ordered, two.ordered, filter_append, append_assoc]

theorem Admits.subset (admits : Admits before after fresh) (member : request ∈ after.waiting) :
    request ∈ before.waiting :=
  admits.moved.mem_iff.mpr (mem_append_right fresh member)

theorem Admits.grows (admits : Admits before after fresh) (cls : ExecutionClass) :
    before.active cls ≤ after.active cls := by
  rw [admits.counted cls]
  exact Nat.le_add_right _ _

theorem Admits.stays_or_runs (admits : Admits before after fresh)
    (member : request ∈ before.waiting) :
    request ∈ after.waiting ∨ 0 < after.active request.executionClass := by
  rcases mem_append.mp (admits.moved.mem_iff.mp member) with moved | stays
  · right
    have counted : 0 < fresh.countP (·.hasClass request.executionClass) :=
      countP_pos_iff.mpr ⟨request, moved, by simp [ExecutionRequest.hasClass]⟩
    have total := admits.counted request.executionClass
    omega
  · exact .inl stays

theorem countP_class_other {requests : List ExecutionRequest} {other : ExecutionClass}
    (uniform : ∀ request ∈ requests, request.executionClass = wanted) (distinct : other ≠ wanted) :
    requests.countP (·.hasClass other) = 0 := by
  rw [countP_eq_zero]
  intro request member
  simp only [ExecutionRequest.hasClass, decide_eq_true_eq, uniform request member]
  exact fun same => distinct same.symm

theorem countP_class_same {requests : List ExecutionRequest}
    (uniform : ∀ request ∈ requests, request.executionClass = wanted) :
    requests.countP (·.hasClass wanted) = requests.length := by
  rw [countP_eq_length]
  intro request member
  simp only [ExecutionRequest.hasClass, decide_eq_true_eq, uniform request member]

theorem admits_of_pass (wanted : ExecutionClass) (limit : Nat) (gate : Bool)
    (capacity : after.toCapacity = before.toCapacity) (waiting : after.waiting =
      (admitPass wanted limit gate (before.active wanted) before.waiting).waiting)
    (log : after.admitted = before.admitted ++
      (admitPass wanted limit gate (before.active wanted) before.waiting).admitted)
    (counter : after.active wanted =
      (admitPass wanted limit gate (before.active wanted) before.waiting).active)
    (others : ∀ cls, cls ≠ wanted → after.active cls = before.active cls) : Admits before after
      (admitPass wanted limit gate (before.active wanted) before.waiting).admitted where
  capacity := capacity
  log := log
  moved := waiting ▸ admitPass_perm wanted limit _ gate before.waiting
  counted cls := by
    have uniform := admitPass_class wanted limit (before.active wanted) gate before.waiting
    by_cases same : cls = wanted
    · subst cls
      rw [counter, countP_class_same uniform, admitPass_active]
    · rw [others cls same, countP_class_other uniform same, Nat.add_zero]
  ordered cls := waiting ▸ admitPass_order wanted cls limit _ gate before.waiting

namespace LensNodeExecutionQueue

theorem admitStandardWaiters_admits :
    ∃ fresh, Admits queue queue.admitStandardWaiters fresh := by
  unfold admitStandardWaiters
  split
  · exact ⟨[], .refl queue⟩
  · refine ⟨_, admits_of_pass .standard queue.maxStandardConcurrency true rfl rfl rfl rfl ?_⟩
    intro cls other
    cases cls with
    | standard => exact absurd rfl other
    | delegated => rfl
    | exclusive => rfl

theorem admitDelegatedWaiters_admits :
    ∃ fresh, Admits queue queue.admitDelegatedWaiters fresh := by
  unfold admitDelegatedWaiters
  split
  · exact ⟨[], .refl queue⟩
  · refine ⟨_, admits_of_pass .delegated queue.maxDelegatedConcurrency true rfl rfl rfl rfl ?_⟩
    intro cls other
    cases cls with
    | standard => rfl
    | delegated => exact absurd rfl other
    | exclusive => rfl

theorem admitExclusiveWaiters_admits :
    ∃ fresh, Admits queue queue.admitExclusiveWaiters fresh := by
  refine ⟨_, admits_of_pass .exclusive queue.maxExclusiveConcurrency queue.exclusiveGate
    rfl rfl rfl rfl ?_⟩
  intro cls other
  cases cls with
  | standard => rfl
  | delegated => rfl
  | exclusive => exact absurd rfl other

theorem admitWaiters_admits :
    ∃ fresh, Admits queue queue.admitWaiters fresh := by
  obtain ⟨first, standard⟩ := queue.admitStandardWaiters_admits
  obtain ⟨second, delegated⟩ := queue.admitStandardWaiters.admitDelegatedWaiters_admits
  obtain ⟨third, exclusive⟩ :=
    queue.admitStandardWaiters.admitDelegatedWaiters.admitExclusiveWaiters_admits
  exact ⟨_, (standard.trans delegated).trans exclusive⟩

end LensNodeExecutionQueue

end SourceLens.ExecutionQueue
