import SourceLens.Library.Json
import SourceLens.Library.OrderedDict
import SourceLens.Library.Transition

/-! Managed conversions of one LensNode: the durable stop fences, the commands, the
worker threads and the restarts of the process. -/

namespace SourceLens.ConversionStop

/-- The entries of a terminal conversion frame; `result` are those of its outcome. -/
structure TerminalFrame where
  type : String
  requestId : Option String
  taskId : String
  datasourceUuid : String
  result : List (String × Json)
  executorStopped : Bool
  executorInstanceId : String
  stopConfirmedAt : String
  stopConfirmationSource : String
  deriving DecidableEq

structure Row where
  datasourceUuid : String
  frame : Option TerminalFrame
  deriving DecidableEq

/-- The table `stops`, by `task_id`. -/
abbrev Stops := OrderedDict String Row

/-- `ConversionStopStore.fence`: the row is inserted where it is missing, and its frame
is set where it has none. The flag is `False` for another datasource. -/
def fence (stops : Stops) (taskId datasourceUuid : String) (frame : Option TerminalFrame) :
    Stops × Bool :=
  let row := (stops.get? taskId).getD ⟨datasourceUuid, none⟩
  if row.datasourceUuid ≠ datasourceUuid then (stops, false)
  else (stops.set taskId { row with frame := row.frame <|> frame }, true)

def fenced (stops : Stops) (taskId : String) : Prop := (stops.get? taskId).isSome = true

instance (stops : Stops) (taskId : String) : Decidable (fenced stops taskId) :=
  inferInstanceAs (Decidable (_ = _))

def persisted (stops : Stops) (taskId : String) : Option TerminalFrame :=
  (stops.get? taskId).bind (·.frame)

structure Message where
  requestId : String := ""
  taskId : String := ""
  datasourceUuid : String := ""
  deriving DecidableEq

/-- How `convert_managed_workspace` ended. -/
inductive Outcome
  | returned (targetPath : String) (conversionSummary warnings : Json)
  | cancelled
  | rejected (error : String)
  | raised
  deriving DecidableEq

/-- The coroutine of a conversion: in `_acquire_execution`, awaiting its worker, or past
the exit of the worker. -/
inductive Phase
  | acquiring
  | converting
  | exited (outcome : Outcome)
  deriving DecidableEq

structure Conversion where
  message : Message
  phase : Phase
  deriving DecidableEq

structure Operation where
  datasourceUuid : String
  operation : String
  deriving DecidableEq

/-- A terminal frame that was handed to `_enqueue`, and whether a worker of its task was
running then. -/
structure Enqueued where
  frame : TerminalFrame
  workerRunning : Bool
  deriving DecidableEq

/-- `stops` is durable and `workers` are the threads; `created`, `launched` and
`enqueued` record what has happened. The other fields are lost with the process. -/
structure Client where
  outboxMax : Nat
  executorInstanceId : String
  stops : Stops
  cancels : OrderedDict String Bool
  operations : OrderedDict String Operation
  runningTasks : OrderedDict String Conversion
  pendingTerminalFrames : OrderedDict String TerminalFrame
  workers : List String
  created : List String
  launched : List String
  enqueued : List Enqueued

def Client.new (outboxMax : Nat) (executorInstanceId : String) : Client where
  outboxMax := outboxMax
  executorInstanceId := executorInstanceId
  stops := .empty
  cancels := .empty
  operations := .empty
  runningTasks := .empty
  pendingTerminalFrames := .empty
  workers := []
  created := []
  launched := []
  enqueued := []

/-- `_enqueue` of a terminal frame remembers it until it is acknowledged. -/
def enqueue (client : Client) (frame : TerminalFrame) : Client :=
  let noted := (client.pendingTerminalFrames.set frame.taskId frame).moveToEnd frame.taskId
  { client with
    pendingTerminalFrames :=
      if frame.taskId = "" then client.pendingTerminalFrames else noted.trim client.outboxMax
    enqueued := client.enqueued ++ [⟨frame, decide (frame.taskId ∈ client.workers)⟩] }

def convertStopped (client : Client) (now taskId datasourceUuid : String) : TerminalFrame where
  type := "datasource_convert_stopped"
  requestId := none
  taskId := taskId
  datasourceUuid := datasourceUuid
  result := []
  executorStopped := true
  executorInstanceId := client.executorInstanceId
  stopConfirmedAt := now
  stopConfirmationSource := "lensnode_absent_fenced"

/-- The end of `_cancel_datasource_conversion`, without a worker: the original terminal
frame, or a first one that confirms the stop. -/
def acknowledgeStop (client : Client) (now taskId datasourceUuid : String) : Client :=
  match persisted client.stops taskId <|> client.pendingTerminalFrames.get? taskId with
  | some original => enqueue client original
  | none =>
    let frame := convertStopped client now taskId datasourceUuid
    enqueue { client with stops := (fence client.stops taskId datasourceUuid (some frame)).1 } frame

/-- `storeRaises` tells whether the store raises after the fence was committed. -/
def cancelDatasourceConversion (client : Client) (now : String) (message : Message)
    (storeRaises : Bool) : Client :=
  let taskId := message.taskId
  let operation := client.operations.get? taskId
  let datasourceUuid :=
    if message.datasourceUuid = "" then (operation.map (·.datasourceUuid)).getD ""
    else message.datasourceUuid
  if taskId = "" ∨ datasourceUuid = "" then client
  else if operation.any fun report =>
      report.datasourceUuid != datasourceUuid || report.operation != "conversion" then client
  else
    let (stops, same) := fence client.stops taskId datasourceUuid none
    let stopping := { client with stops := stops }
    if !same then stopping
    else if taskId ∈ client.cancels.keys then
      { stopping with cancels := client.cancels.set taskId true }
    else if taskId ∈ client.runningTasks.keys ∨ storeRaises then stopping
    else acknowledgeStop stopping now taskId datasourceUuid

def startDatasourceConversion (client : Client) (now : String) (message : Message)
    (storeRaises : Bool) : Client :=
  let taskId := if message.taskId = "" then message.requestId else message.taskId
  if taskId = "" then client
  else if fenced client.stops taskId then
    cancelDatasourceConversion client now message storeRaises
  else if taskId ∈ client.runningTasks.keys then client
  else
    { client with
      cancels := client.cancels.set taskId false
      operations := client.operations.set taskId ⟨message.datasourceUuid, "conversion"⟩
      runningTasks := client.runningTasks.set taskId ⟨message, .acquiring⟩
      created := client.created ++ [taskId] }

/-- The entries of the terminal payload that depend on the outcome. -/
def Outcome.result : Outcome → List (String × Json)
  | .returned targetPath conversionSummary warnings =>
    [("status", .str "success"), ("target_path", .str targetPath),
      ("conversion_summary", conversionSummary), ("warnings", warnings)]
  | .cancelled =>
    [("status", .str "cancelled"), ("error", .str "DATASOURCE_CONVERSION_CANCELLED"),
      ("completion_reason", .str "DATASOURCE_CONVERSION_CANCELLED")]
  | .rejected error =>
    [("status", .str "failed"),
      ("error", .str (if error = "" then "DATASOURCE_CONVERSION_FAILED" else error))]
  | .raised => [("status", .str "failed"), ("error", .str "DATASOURCE_CONVERSION_FAILED")]

def conversionDone (client : Client) (now taskId : String) (message : Message)
    (outcome : Outcome) : TerminalFrame where
  type := "datasource_convert_done"
  requestId := some message.requestId
  taskId := taskId
  datasourceUuid := message.datasourceUuid
  result := outcome.result
  executorStopped := true
  executorInstanceId := client.executorInstanceId
  stopConfirmedAt := now
  stopConfirmationSource := "lensnode_callback"

/-- `_enqueue_conversion_done`. -/
def enqueueConversionDone (client : Client) (payload : TerminalFrame) : Client :=
  let (stops, same) := fence client.stops payload.taskId payload.datasourceUuid (some payload)
  if same then enqueue { client with stops := stops } payload else { client with stops := stops }

inductive StoreWrite
  | commits
  | raisesOnce
  | raises
  deriving DecidableEq

/-- Only the frame of a returned worker is stored inside the `try` block: where that
raises, the last handler stores a failure instead. -/
def deliver (client : Client) (now taskId : String) (message : Message) (outcome : Outcome)
    (write : StoreWrite) : Client :=
  match write, outcome with
  | .commits, outcome =>
    enqueueConversionDone client (conversionDone client now taskId message outcome)
  | .raisesOnce, .returned .. =>
    enqueueConversionDone client (conversionDone client now taskId message .raised)
  | _, _ => client

/-- The `finally` block of the coroutine. -/
def leave (client : Client) (taskId : String) : Client :=
  { client with
    cancels := client.cancels.pop taskId
    runningTasks := client.runningTasks.pop taskId }

def setPhase (client : Client) (taskId : String) (conversion : Conversion) (phase : Phase) :
    Client :=
  { client with
    runningTasks := client.runningTasks.set taskId { conversion with phase := phase } }

inductive Handler
  | start (now : String) (message : Message) (storeRaises : Bool)
  | cancel (now : String) (message : Message) (storeRaises : Bool)
  /-- `_acquire_execution` returns, and the worker is launched. -/
  | granted (taskId : String)
  | cancelledInQueue (now taskId : String) (write : StoreWrite)
  | acquireRaises (now taskId : String) (write : StoreWrite)
  /-- The coroutine is cancelled by the event loop. -/
  | wrapperCancelled (taskId : String)
  | workerExits (taskId : String) (outcome : Outcome)
  | finish (now taskId : String) (write : StoreWrite)
  /-- The coroutine is cancelled while it releases its slot. -/
  | releaseCancelled (taskId : String)
  | terminalAck (taskId : String)
  /-- A new connection queues a remembered frame again. -/
  | restore (taskId : String)

inductive Action
  | handle (handler : Handler)
  /-- The process ends, possibly inside a handler, and a new one starts. -/
  | crash (executorInstanceId : String) (during : Option Handler)

def handlerStep (client : Client) : Handler → Option Client
  | .start now message storeRaises =>
    some (startDatasourceConversion client now message storeRaises)
  | .cancel now message storeRaises =>
    some (cancelDatasourceConversion client now message storeRaises)
  | .granted taskId =>
    match client.runningTasks.get? taskId, client.cancels.get? taskId with
    | some ⟨message, .acquiring⟩, some false =>
      some { setPhase client taskId ⟨message, .acquiring⟩ .converting with
        workers := taskId :: client.workers
        launched := client.launched ++ [taskId] }
    | _, _ => none
  | .cancelledInQueue now taskId write =>
    match client.runningTasks.get? taskId, client.cancels.get? taskId with
    | some ⟨message, .acquiring⟩, some true =>
      some (leave (deliver client now taskId message .cancelled write) taskId)
    | _, _ => none
  | .acquireRaises now taskId write =>
    match client.runningTasks.get? taskId with
    | some ⟨message, .acquiring⟩ =>
      some (leave (deliver client now taskId message .raised write) taskId)
    | _ => none
  | .wrapperCancelled taskId =>
    match client.runningTasks.get? taskId with
    | some ⟨_, .acquiring⟩ => some (leave client taskId)
    | some _ => some { client with cancels := client.cancels.set taskId true }
    | none => none
  | .workerExits taskId outcome =>
    match client.runningTasks.get? taskId with
    | some ⟨message, .converting⟩ =>
      some { setPhase client taskId ⟨message, .converting⟩ (.exited outcome) with
        workers := client.workers.erase taskId }
    | _ => none
  | .finish now taskId write =>
    match client.runningTasks.get? taskId with
    | some ⟨message, .exited outcome⟩ =>
      some (leave (deliver client now taskId message outcome write) taskId)
    | _ => none
  | .releaseCancelled taskId =>
    match client.runningTasks.get? taskId with
    | some ⟨_, .exited _⟩ => some (leave client taskId)
    | _ => none
  | .terminalAck taskId =>
    match client.pendingTerminalFrames.get? taskId with
    | some _ =>
      some { client with
        pendingTerminalFrames := client.pendingTerminalFrames.pop taskId
        operations := client.operations.pop taskId }
    | none => some client
  | .restore taskId => (client.pendingTerminalFrames.get? taskId).map (enqueue client)

def restart (client : Client) (executorInstanceId : String) : Client :=
  { client with
    executorInstanceId := executorInstanceId
    cancels := .empty
    operations := .empty
    runningTasks := .empty
    pendingTerminalFrames := .empty
    workers := [] }

def step (client : Client) : Action → Option Client
  | .handle handler => handlerStep client handler
  | .crash executorInstanceId none => some (restart client executorInstanceId)
  | .crash executorInstanceId (some handler) =>
    (handlerStep client handler).map fun next =>
      restart { next with enqueued := client.enqueued } executorInstanceId

end SourceLens.ConversionStop
