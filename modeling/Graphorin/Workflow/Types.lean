import Graphorin.Workflow.Pause

namespace Graphorin.Workflow

open Graphorin.Lib
open Graphorin.Js

/-! Workflow definitions, planned tasks and the resumable frontier. -/

inductive DurabilityMode
  | sync
  | exit
deriving DecidableEq

inductive StreamMode
  | values
  | updates
  | messages
  | tasks
  | checkpoints
  | debug
  | custom
deriving DecidableEq

structure WorkflowContext where
  threadId : String
  stepNumber : Nat
  taskId : Id
  state : State
  dispatchArgs : JsValue

/-- A node.  `ambient` is everything a body can observe besides its arguments:
clock, randomness, the outside world. -/
structure WorkflowNode where
  run : (ambient : Nat) → WorkflowContext → NodeRun
  timeoutMs : Option Nat := none
  maxAttempts : Option Nat := none

structure WorkflowEdge where
  source : String
  target : String
  when? : Option (State → Except String Bool) := none

structure WorkflowPauseAt where
  before : List String := []
  after : List String := []

structure NodeDefaults where
  timeoutMs : Option Nat := none
  maxAttempts : Option Nat := none

structure WorkflowConfig where
  name : String
  nodes : Record String WorkflowNode
  edges : List WorkflowEdge
  channels : Record String Channel
  initialState : Record String JsValue := []
  pauseAt : WorkflowPauseAt := {}
  durability : Option DurabilityMode := none
  maxSteps : Option Nat := none
  maxTotalSteps : Option Nat := none
  cancelGraceMs : Option Nat := none
  validateState : Option (State → Except String Unit) := none
  nodeDefaults : NodeDefaults := {}
  version : Option String := none
  journalSteps : Bool := false

def defaultMaxSteps : Nat := 200

def defaultCancelGraceMs : Nat := 100

def WorkflowConfig.stepCap (config : WorkflowConfig) : Nat :=
  config.maxSteps.getD defaultMaxSteps

def namespaceFor (config : WorkflowConfig) : String :=
  "workflow/" ++ config.name

def validateNodeName (name : String) : Except WorkflowError Unit :=
  if name = startNode ∨ name = endNode then
    .error (.invalidConfig ("node name \"" ++ name ++
      "\" is reserved for the implicit " ++ name ++ " sentinel"))
  else .ok ()

def validateEdge (nodes : Record String WorkflowNode) (edge : WorkflowEdge) :
    Except WorkflowError Unit :=
  if edge.source ≠ startNode ∧ Record.has nodes edge.source = false then
    .error (.unknownNode edge.source "edge.from")
  else if edge.target ≠ endNode ∧ Record.has nodes edge.target = false then
    .error (.unknownNode edge.target "edge.to")
  else .ok ()

def validateChannelName (name : String) : Except WorkflowError Unit :=
  if name = tasksChannel then
    .error (.invalidConfig ("channel name \"" ++ name ++
      "\" is reserved for internal task scheduling"))
  else .ok ()

def validatePositive (label : String) (value : Option Nat) :
    Except WorkflowError Unit :=
  if value = some 0 then
    .error (.invalidConfig (label ++ " must be a positive integer"))
  else .ok ()

def validateConfig (config : WorkflowConfig) : Except WorkflowError Unit := do
  if config.name.isEmpty then
    throw (.invalidConfig "createWorkflow({ name }) must be a non-empty string")
  if config.nodes.isEmpty then
    throw (.invalidConfig
      "createWorkflow({ nodes }) must declare at least one node")
  config.nodes.forM fun entry => validateNodeName entry.1
  config.edges.forM (validateEdge config.nodes)
  if config.edges.all fun edge => edge.source ≠ startNode then
    throw (.invalidConfig ("the edges list must contain at least one edge " ++
      "from \"__start__\" - workflows always start there"))
  config.channels.forM fun entry => validateChannelName entry.1
  validatePositive "maxSteps" config.maxSteps
  validatePositive "maxTotalSteps" config.maxTotalSteps

/-- A definition `createWorkflow` accepts. -/
structure Workflow where
  config : WorkflowConfig
  valid : validateConfig config = .ok ()

/-! Tasks.  `origin` is bookkeeping of this model and has no counterpart in
the source: the id under which the activation was first planned, carried over
every restore that draws a fresh `taskId` for it.  Nothing below branches on
it. -/

inductive TaskSource
  | edge
  | dispatch
  | resume
  | start
deriving DecidableEq

structure PlannedTask where
  taskId : Id
  origin : Id
  nodeName : String
  source : TaskSource
  dispatchArgs : JsValue := .undefined
  resumeValues : Option (List JsValue) := none
  resumeMeta : Option (List (Option PauseIdentity)) := none
  staticBefore : Bool := false
  freshResume : Bool := false
deriving DecidableEq

def PlannedTask.answers (task : PlannedTask) : List JsValue :=
  task.resumeValues.getD []

structure PendingPauseRecord where
  origin : Id
  nodeName : String
  value : JsValue
  dispatchArgs : JsValue := .undefined
  staticBefore : Bool := false
  staticAfter : Bool := false
  satisfied : List JsValue := []
  satisfiedMeta : Option (List (Option PauseIdentity)) := none
  wakeAt : Option Rat := none
  name : Option String := none
deriving DecidableEq

def pauseMetaOf (record : PendingPauseRecord) : PauseIdentity where
  kind := (record.value.field "kind").str?
  name := record.name

/-- Prior identities, padded with `null` for records written before they were
kept. -/
def priorMetaOf (record : PendingPauseRecord) : List (Option PauseIdentity) :=
  record.satisfiedMeta.getD (record.satisfied.map fun _ => none)

inductive TaskStatus
  | completed
  | paused
  | failed
deriving DecidableEq

structure DynamicEntry where
  origin : Id
  nodeName : String
  dispatchArgs : JsValue := .undefined
deriving DecidableEq

structure StepTask where
  taskId : Id
  origin : Id
  nodeName : String
  status : TaskStatus
  dispatchArgs : JsValue := .undefined
deriving DecidableEq

/-- The resumable frontier persisted with a checkpoint. -/
structure FrontierEnvelope where
  version : Option String := none
  pauses : List PendingPauseRecord := []
  dynamic : List DynamicEntry := []
  completed : List String := []
  stepTasks : List StepTask := []
deriving DecidableEq

def emptyFrontier : FrontierEnvelope := {}

/-! Everything the frontier carries passes through JSON once it is stored. -/

def PendingPauseRecord.throughJson (record : PendingPauseRecord) :
    PendingPauseRecord :=
  { record with
    value := record.value.throughJson
    dispatchArgs := record.dispatchArgs.throughJson
    satisfied := JsValue.itemsThroughJson record.satisfied }

def DynamicEntry.throughJson (entry : DynamicEntry) : DynamicEntry :=
  { entry with dispatchArgs := entry.dispatchArgs.throughJson }

def StepTask.throughJson (task : StepTask) : StepTask :=
  { task with dispatchArgs := task.dispatchArgs.throughJson }

/-- `encodeFrontier`: the frontier as a reader of the stored tag decodes it. -/
def encodeFrontier (frontier : FrontierEnvelope) : FrontierEnvelope :=
  { frontier with
    pauses := frontier.pauses.map PendingPauseRecord.throughJson
    dynamic := frontier.dynamic.map DynamicEntry.throughJson
    stepTasks := frontier.stepTasks.map StepTask.throughJson }

def notSerializable (channel : String) (offender : JsValue.Offender) :
    WorkflowError :=
  .stateNotSerializable channel offender.path offender.kind

def assertJsonSafe (channel path : String) (value : JsValue) :
    Except WorkflowError Unit :=
  match value.findNonJsonSafe path with
  | some offender => .error (notSerializable channel offender)
  | none => .ok ()

def assertItemsJsonSafe (channel : String) : List JsValue → Nat →
    Except WorkflowError Unit
  | [], _ => .ok ()
  | value :: rest, index => do
      assertJsonSafe channel
        (channel ++ ".satisfied[" ++ toString index ++ "]") value
      assertItemsJsonSafe channel rest (index + 1)

def assertPauseJsonSafe (record : PendingPauseRecord) :
    Except WorkflowError Unit := do
  let channel := "<pause:" ++ record.nodeName ++ ">"
  assertJsonSafe channel (channel ++ ".value") record.value
  assertJsonSafe channel (channel ++ ".dispatchArgs") record.dispatchArgs
  assertItemsJsonSafe channel record.satisfied 0

def assertDynamicJsonSafe (entry : DynamicEntry) : Except WorkflowError Unit :=
  let channel := "<dispatch:" ++ entry.nodeName ++ ">"
  assertJsonSafe channel (channel ++ ".dispatchArgs") entry.dispatchArgs

def assertStepTaskJsonSafe (task : StepTask) : Except WorkflowError Unit :=
  let channel := "<task:" ++ task.nodeName ++ ">"
  assertJsonSafe channel (channel ++ ".dispatchArgs") task.dispatchArgs

/-- Identities are made of strings and need no walk. -/
def assertFrontierJsonSafe (frontier : FrontierEnvelope) :
    Except WorkflowError Unit := do
  frontier.pauses.forM assertPauseJsonSafe
  frontier.dynamic.forM assertDynamicJsonSafe
  frontier.stepTasks.forM assertStepTaskJsonSafe

structure RunInternalState where
  state : State
  versions : Versions
  pendingDynamicTasks : List PlannedTask
  lastCompletedNodes : List String
  stepNumber : Nat
  stepsThisInvocation : Nat
  parentCheckpointId : Option Id
  pendingPauses : List PendingPauseRecord
  run : Nat
  nextId : Nat

def DynamicEntry.ofTask (task : PlannedTask) : DynamicEntry :=
  ⟨task.origin, task.nodeName, task.dispatchArgs⟩

def frontierFromInternal (config : WorkflowConfig)
    (internal : RunInternalState) : FrontierEnvelope where
  version := config.version
  pauses := internal.pendingPauses
  dynamic := internal.pendingDynamicTasks.map DynamicEntry.ofTask
  completed := internal.lastCompletedNodes

end Graphorin.Workflow
