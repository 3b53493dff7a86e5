import SourceLens.ExecutionQueue

/-! `LensNodeClient._acquire_execution` over the execution queue. The caller and the task
that runs `acquire` are stepped one await at a time, in any order; a cancellation can
arrive at any of their awaits. -/

namespace SourceLens.AcquireExecution

open ExecutionQueue

/-- The coroutine of `acquire`: before its first step, at the shielded future, returned,
or ended by a cancellation. -/
inductive Acquire
  | created
  | waiting
  | returned
  | cancelled
  deriving DecidableEq

def Acquire.done : Acquire → Bool
  | .returned | .cancelled => true
  | _ => false

inductive Caller
  /-- Without a cancel event: in `await acquire(...)` itself. -/
  | direct
  /-- At `asyncio.sleep(0)` or `asyncio.wait`. -/
  | polling
  /-- In the loop, at the `gather` after `acquire_task.cancel()`. -/
  | stopping
  /-- In the `except` branch, at the `gather` after `acquire_task.cancel()`. -/
  | unwinding
  | returned
  | raised
  /-- It has given back the slot that it returned with. -/
  | released
  deriving DecidableEq

structure Call where
  executionClass : ExecutionClass
  /-- `cancel_event.is_set()` -/
  event : Bool
  /-- `cancel()` was called on the task that runs `acquire`. -/
  cancelling : Bool
  request : Option ExecutionRequest
  acquire : Acquire
  caller : Caller

structure World where
  tasks : Tasks
  calls : List Call

inductive Action
  | call (executionClass : ExecutionClass) (watched : Bool)
  /-- `acquire` of the call takes its next step. -/
  | runAcquire (index : Nat)
  | setEvent (index : Nat)
  /-- The caller goes on from its await, where `CancelledError` may be thrown. -/
  | resume (index : Nat) (thrown : Bool)
  | release (index : Nat)

def World.new (maxStandardConcurrency maxExclusiveConcurrency : Int) (exclusiveBarrier : Bool) :
    World :=
  ⟨.new maxStandardConcurrency maxExclusiveConcurrency exclusiveBarrier, []⟩

/-- `return await acquire(...)` -/
def Call.passOn (call : Call) : Call :=
  match call.caller, call.acquire with
  | .direct, .returned => { call with caller := .returned }
  | .direct, .cancelled => { call with caller := .raised }
  | _, _ => call

/-- The first step of `acquire`: the locked section, and the wait for the future unless it
has its result by then. -/
def startAcquire (tasks : Tasks) (call : Call) : Option (Tasks × Call) :=
  let request : ExecutionRequest := ⟨tasks.arrived.length, call.executionClass⟩
  (tasks.step (.acquire call.executionClass)).bind fun entered =>
    if request ∈ entered.granted then
      (entered.step (.resume request)).map fun settled =>
        (settled, { call with request := some request, acquire := .returned })
    else some (entered, { call with request := some request, acquire := .waiting })

/-- The step of `acquire` after its wait. A cancellation that has been asked for is thrown
there, also where the future has its result. -/
def endAcquire (tasks : Tasks) (call : Call) (request : ExecutionRequest) :
    Option (Tasks × Call) :=
  if call.cancelling then
    (tasks.step (.cancel request)).map fun next => (next, { call with acquire := .cancelled })
  else (tasks.step (.resume request)).map fun next => (next, { call with acquire := .returned })

def runAcquire (tasks : Tasks) (call : Call) : Option (Tasks × Call) :=
  match call.acquire, call.request with
  | .created, _ =>
    if call.cancelling then some (tasks, { call with acquire := .cancelled })
    else startAcquire tasks call
  | .waiting, some request => endAcquire tasks call request
  | _, _ => none

/-- The `except BaseException` branch. -/
def unwind (tasks : Tasks) (call : Call) : Option (Tasks × Call) :=
  match call.acquire, call.request with
  | .returned, some request =>
    (tasks.step (.release request)).map fun next => (next, { call with caller := .raised })
  | .returned, none => none
  | .cancelled, _ => some (tasks, { call with caller := .raised })
  | _, _ => some (tasks, { call with cancelling := true, caller := .unwinding })

def poll (tasks : Tasks) (call : Call) : Option (Tasks × Call) :=
  if call.acquire.done then
    if call.event then unwind tasks call
    else if call.acquire = .returned then some (tasks, { call with caller := .returned })
    else unwind tasks call
  else if call.event then
    some (tasks, { call with cancelling := true, caller := .stopping })
  else some (tasks, { call with caller := .polling })

/-- A `gather` ends with its task. A cancellation of the caller goes to the task, and comes
back as an exception when the task has ended. -/
def resume (tasks : Tasks) (call : Call) (thrown : Bool) : Option (Tasks × Call) :=
  match call.caller with
  | .direct =>
    if thrown ∧ call.acquire.done = false then some (tasks, { call with cancelling := true })
    else none
  | .polling => if thrown then unwind tasks call else poll tasks call
  | .stopping =>
    if call.acquire.done then unwind tasks call
    else if thrown then some (tasks, { call with cancelling := true })
    else none
  | .unwinding =>
    if call.acquire.done then some (tasks, { call with caller := .raised })
    else if thrown then some (tasks, { call with cancelling := true })
    else none
  | _ => none

def giveBack (tasks : Tasks) (call : Call) : Option (Tasks × Call) :=
  match call.caller, call.request with
  | .returned, some request =>
    (tasks.step (.release request)).map fun next => (next, { call with caller := .released })
  | _, _ => none

def act (tasks : Tasks) (call : Call) : Action → Option (Tasks × Call)
  | .runAcquire _ => (runAcquire tasks call).map fun outcome => (outcome.1, outcome.2.passOn)
  | .setEvent _ => some (tasks, { call with event := true })
  | .resume _ thrown => resume tasks call thrown
  | .release _ => giveBack tasks call
  | .call _ _ => none

def Action.index : Action → Option Nat
  | .call _ _ => none
  | .runAcquire index | .setEvent index | .resume index _ | .release index => some index

def newCall (executionClass : ExecutionClass) (watched : Bool) : Call where
  executionClass := executionClass
  event := false
  cancelling := false
  request := none
  acquire := .created
  caller := if watched then .polling else .direct

def World.step (world : World) (action : Action) : Option World :=
  match action with
  | .call executionClass watched =>
    some { world with calls := world.calls ++ [newCall executionClass watched] }
  | action =>
    action.index.bind fun index =>
      world.calls[index]?.bind fun call =>
        (act world.tasks call action).map fun outcome =>
          ⟨outcome.1, world.calls.set index outcome.2⟩

def World.slots (world : World) (call : Call) : Nat :=
  match call.request with
  | some request =>
    if request.executionClass = call.executionClass then world.tasks.active.count request else 0
  | none => 0

def World.holders (world : World) (executionClass : ExecutionClass) : List Call :=
  world.calls.filter fun call =>
    call.executionClass = executionClass ∧ world.slots call ≠ 0

/-- A call that has returned holds one slot and a call that has raised holds none; the
counters of the queue are those of the holders. -/
structure World.Exact (world : World) : Prop where
  returned : ∀ call ∈ world.calls, call.caller = .returned → world.slots call = 1
  raised : ∀ call ∈ world.calls, call.caller = .raised → world.slots call = 0
  released : ∀ call ∈ world.calls, call.caller = .released → world.slots call = 0
  counted : ∀ executionClass,
    world.tasks.queue.active executionClass = (world.holders executionClass).length
  unraised : world.tasks.raised = false

end SourceLens.AcquireExecution
