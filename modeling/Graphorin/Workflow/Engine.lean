import Graphorin.Workflow.Step
import Graphorin.Workflow.Store

namespace Graphorin.Workflow

open Graphorin.Lib
open Graphorin.Js

/-! The inner loop.  One pass is decided from the run state alone: the acts
that precede its checkpoint, then one exit.  An exit persists a checkpoint and
says how the loop goes on. -/

inductive WorkflowEvent
  | start (threadId workflowId : String)
  | resumed (threadId : String) (stepNumber : Nat) (state : State)
  | stepStart (stepNumber : Nat) (state : State)
  | stepEnd (stepNumber : Nat) (state : State)
  | taskStart (stepNumber : Nat) (taskId : Id) (nodeName : String)
  | taskEnd (stepNumber : Nat) (taskId : Id) (nodeName : String)
      (status : TaskStatus)
  | channelUpdate (stepNumber : Nat) (channel : String) (version : Nat)
      (value : Option JsValue)
  | checkpointWritten (checkpointId : Id) (stepNumber : Nat)
  | suspended (threadId : String) (stepNumber : Nat) (state : State)
      (value : JsValue)
  | ended (threadId : String) (state : State)
  | error (threadId message : String) (code : ErrorCode)
deriving DecidableEq

/-- What an observer of the engine sees: the events it yields, and two points
the event stream does not show, the plan of each round and each execution of a
node body. -/
inductive Obs
  | event (event : WorkflowEvent)
  | planned (internal : RunInternalState) (tasks : List PlannedTask)
  | ran (outcome : TaskOutcome)

abbrev EngineM := Program storeInterface Obs Fault

def storeCall (op : StoreOp) : EngineM op.Res := Program.call op Program.done

structure DriveRunArgs where
  config : WorkflowConfig
  threadId : String
  durability : DurabilityMode
  streamMode : StreamMode
  abortReason : String := "aborted"
  env : Nat → RoundEnv

def emitError (threadId : String) (fault : Fault) : Obs :=
  .event (.error threadId fault.message fault.code)

def DriveRunArgs.stepEvents (args : DriveRunArgs) : Bool :=
  args.streamMode = .values ∨ args.streamMode = .debug

def DriveRunArgs.taskEvents (args : DriveRunArgs) : Bool :=
  args.streamMode = .tasks ∨ args.streamMode = .debug

def DriveRunArgs.channelEvents (args : DriveRunArgs) : Bool :=
  args.streamMode = .updates ∨ args.streamMode = .messages ∨
    args.streamMode = .debug

def DriveRunArgs.checkpointEvents (args : DriveRunArgs) : Bool :=
  args.streamMode = .checkpoints ∨ args.streamMode = .debug

def reportIf (wanted : Bool) (event : WorkflowEvent) : List Obs :=
  if wanted then [.event event] else []

def DriveRunArgs.checkpointReport (args : DriveRunArgs)
    (internal : RunInternalState) : Option Id → List Obs
  | none => []
  | some checkpointId =>
    reportIf args.checkpointEvents
      (.checkpointWritten checkpointId internal.stepNumber)

structure PersistRequest where
  internal : RunInternalState
  status : CheckpointStatus
  nodeName : Option String := none
  frontier : Option FrontierEnvelope := none
  pendingWritesByTask : Record TaskId (List ChannelWrite) := []

def serializeState (state : State) : Except WorkflowError State := do
  state.forM fun entry => assertJsonSafe entry.1 entry.1 entry.2
  pure state

def earliestWakeAt (pauses : List PendingPauseRecord) : Option Rat :=
  pauses.foldl
    (fun earliest record =>
      match record.wakeAt, earliest with
      | none, _ => earliest
      | some wakeAt, none => some wakeAt
      | some wakeAt, some least => if wakeAt < least then some wakeAt else earliest)
    none

def PersistRequest.checkpoint (request : PersistRequest) (args : DriveRunArgs)
    (now : Nat) : Checkpoint where
  id := ⟨request.internal.run, request.internal.nextId⟩
  threadId := args.threadId
  namespaceName := namespaceFor args.config
  parentId := request.internal.parentCheckpointId
  state := request.internal.state
  channelVersions := request.internal.versions
  stepNumber := request.internal.stepNumber
  createdAt := now

def PersistRequest.metadata (request : PersistRequest) (args : DriveRunArgs) :
    CheckpointMetadata where
  source := args.durability
  status := request.status
  nodeName := request.nodeName
  tags := request.frontier.map encodeFrontier
  wakeAt :=
    if request.status = .suspended then
      request.frontier.bind fun frontier => earliestWakeAt frontier.pauses
    else none

/-- The engine's own comparison, made before the store's. -/
def precheck (threadId : String) (internal : RunInternalState) :
    Option CheckpointTuple → Except WorkflowError Unit
  | none => .ok ()
  | some latest =>
    match internal.parentCheckpointId with
    | some parentId =>
      if latest.checkpoint.id = parentId then .ok ()
      else .error (.checkpointVersionConflict threadId (some parentId)
        (some latest.checkpoint.id))
    | none =>
      if latest.metadata.status = .running ∨
          latest.metadata.status = .suspended then
        .error (.checkpointVersionConflict threadId none
          (some latest.checkpoint.id))
      else .ok ()

def pendingRow (entry : ChannelWrite × Nat) : PendingWrite :=
  ⟨entry.1.taskId, entry.2, entry.1.channel, .value entry.1.value⟩

def putPendingWrites (args : DriveRunArgs) (checkpointId : Id) :
    Record TaskId (List ChannelWrite) → EngineM Unit
  | [] => pure ()
  | (taskId, writes) :: rest => do
      storeCall (.putWrites args.threadId (namespaceFor args.config)
        checkpointId (writes.zipIdx.map pendingRow) taskId)
      putPendingWrites args checkpointId rest

def liftError : Except WorkflowError α → EngineM α
  | .ok value => pure value
  | .error error => .fail (.workflow error)

/-- The frontier payloads survive JSON. -/
def frontierSafe (request : PersistRequest) : Except WorkflowError Unit :=
  match request.frontier with
  | some frontier => assertFrontierJsonSafe frontier
  | none => .ok ()

/-- Compare, put, then add the rows of the tasks. -/
def storeCheckpoint (args : DriveRunArgs) (now : Nat)
    (request : PersistRequest) : EngineM (Option Id) := do
  let latest ← storeCall (.getTuple args.threadId (namespaceFor args.config))
  liftError (precheck args.threadId request.internal latest)
  let _ ← liftError (serializeState request.internal.state)
  let checkpoint := request.checkpoint args now
  let stored ← storeCall
    (.put args.threadId (namespaceFor args.config) checkpoint
      (request.metadata args) (request.internal.parentCheckpointId.map some))
  match stored with
  | .error conflict =>
    .fail (.workflow (.checkpointVersionConflict args.threadId
      conflict.expectedLatestId conflict.actualLatestId))
  | .ok () => do
      putPendingWrites args checkpoint.id request.pendingWritesByTask
      pure (some checkpoint.id)

/-- Persist one checkpoint; `none` when the durability mode skips the put. -/
def persistCheckpoint (args : DriveRunArgs) (now : Nat)
    (request : PersistRequest) : EngineM (Option Id) := do
  liftError (frontierSafe request)
  if args.durability = .exit ∧ request.status = .running then do
    let _ ← liftError (serializeState request.internal.state)
    pure none
  else storeCheckpoint args now request

inductive Next
  | raise (fault : Fault)
  | close
  | loop (internal : RunInternalState)

structure Exit where
  request : PersistRequest
  report : Option Id → List Obs
  next : Option Id → Next

def terminalExit (request : PersistRequest) (report : Option Id → List Obs)
    (fault : Fault) : Exit :=
  ⟨request, report, fun _ => .raise fault⟩

/-- Loop top, and again right after a step's checkpoint: the signal is
aborted. -/
def abortExit (args : DriveRunArgs) (internal : RunInternalState) : Exit :=
  terminalExit
    { internal := internal
      status := .aborted
      frontier := some (frontierFromInternal args.config internal) }
    (fun _ => []) (.workflow (.aborted args.threadId args.abortReason))

def capExit (args : DriveRunArgs) (internal : RunInternalState)
    (error : WorkflowError) : Exit :=
  terminalExit
    { internal := internal
      status := .failed
      frontier := some (frontierFromInternal args.config internal) }
    (fun _ => []) (.workflow error)

def deadEndExit (args : DriveRunArgs) (internal : RunInternalState)
    (nodes : List String) : Exit :=
  terminalExit
    { internal := internal
      status := .failed
      nodeName := some (nodes.head?.getD "<dead-end>")
      frontier := some emptyFrontier }
    (args.checkpointReport internal) (.workflow (.deadEnd args.config.name nodes))

def staticPauseValue (kind node : String) : JsValue :=
  .obj [("kind", .str kind), ("node", .str node)]

def staticBeforePause (gated : PlannedTask) : PendingPauseRecord where
  origin := gated.origin
  nodeName := gated.nodeName
  value := staticPauseValue "static-before" gated.nodeName
  dispatchArgs := gated.dispatchArgs
  staticBefore := true

/-- A static gate closed: the gated task becomes a pause, everything else
planned with it a dynamic entry. -/
def gateExit (args : DriveRunArgs) (internal : RunInternalState)
    (gated : PlannedTask) (rest : List PlannedTask) : Exit :=
  let held :=
    { internal with
      pendingDynamicTasks := rest
      pendingPauses := [staticBeforePause gated] }
  { request :=
      { internal := held
        status := .suspended
        nodeName := some gated.nodeName
        frontier := some (frontierFromInternal args.config held) }
    report := fun checkpointId =>
      args.checkpointReport held checkpointId ++
        [.event (.suspended args.threadId held.stepNumber held.state
          (staticBeforePause gated).value)]
    next := fun _ => .close }

def completedExit (args : DriveRunArgs) (internal : RunInternalState) : Exit where
  request := { internal := internal, status := .completed }
  report := fun checkpointId =>
    args.checkpointReport internal checkpointId ++
      [.event (.ended args.threadId internal.state)]
  next := fun _ => .close

/-- A node failed, or the step was aborted while its tasks ran. -/
def failureExit (args : DriveRunArgs) (internal : RunInternalState)
    (aborted : Bool) (tasks : List PlannedTask) (outcomes : List TaskOutcome)
    (failure : NodeFailure) : Exit :=
  let ordered := orderedOutcomes tasks outcomes
  let anyTaskFailed := outcomes.any fun outcome => outcome.status == .failed
  terminalExit
    { internal := internal
      status := if aborted && !anyTaskFailed then .aborted else .failed
      nodeName := some failure.nodeName
      frontier := some
        { version := args.config.version
          pauses := pauseRecords ordered
          stepTasks := stepTasksOf tasks outcomes }
      pendingWritesByTask := groupWritesByTask (writesOf ordered) }
    (args.checkpointReport internal) (wrapNodeFailure failure)

def mergeFailureExit (args : DriveRunArgs) (internal : RunInternalState)
    (error : WorkflowError) : Exit :=
  terminalExit
    { internal := internal
      status := .failed
      nodeName := some "<channel-merge>"
      frontier := some (frontierFromInternal args.config internal) }
    (args.checkpointReport internal) (.workflow error)

def validatorExit (args : DriveRunArgs) (internal : RunInternalState)
    (message : String) : Exit :=
  terminalExit
    { internal := internal
      status := .failed
      nodeName := some "<state-validator>" }
    (args.checkpointReport internal) (.workflow (.stateValidation message))

def staticAfterPause (node : String) : PendingPauseRecord where
  origin := ⟨0, 0⟩
  nodeName := node
  value := staticPauseValue "static-after" node
  staticAfter := true

/-- The first node of `pauseAt.after` that completed in this step. -/
def staticAfterOf (config : WorkflowConfig) (completed : List String) :
    List PendingPauseRecord :=
  (config.pauseAt.after.find? fun node => completed.contains node).toList.map
    staticAfterPause

def DriveRunArgs.stepReport (args : DriveRunArgs)
    (internal : RunInternalState) (checkpointId : Option Id) : List Obs :=
  reportIf args.stepEvents (.stepEnd internal.stepNumber internal.state) ++
    args.checkpointReport internal checkpointId

def suspendedExit (args : DriveRunArgs) (internal : RunInternalState)
    (first : PendingPauseRecord) (others : List PendingPauseRecord) : Exit :=
  let held := { internal with pendingPauses := first :: others }
  { request :=
      { internal := held
        status := .suspended
        nodeName := some first.nodeName
        frontier := some (frontierFromInternal args.config held) }
    report := fun checkpointId =>
      args.stepReport held checkpointId ++
        [.event (.suspended args.threadId held.stepNumber held.state first.value)]
    next := fun _ => .close }

/-- The step is over and the loop goes on.  A skipped put leaves the parent
pointer where it was. -/
def runningExit (args : DriveRunArgs) (internal : RunInternalState) : Exit where
  request :=
    { internal := internal
      status := .running
      frontier := some (frontierFromInternal args.config internal) }
  report := args.stepReport internal
  next := fun checkpointId => .loop
    { internal with
      parentCheckpointId := checkpointId.or internal.parentCheckpointId
      stepNumber := internal.stepNumber + 1
      stepsThisInvocation := internal.stepsThisInvocation + 1
      nextId := internal.nextId + 1 }

inductive Act
  | tell (obs : Obs)
  | journal (checkpointId : Id) (writes : List PendingWrite) (taskId : TaskId)

def stepIntentChannel : String := "__graphorin_step_intent__"

def taskDoneChannel : String := "__graphorin_task_done__"

def intentTask (task : PlannedTask) : StepIntentTask where
  taskId := task.taskId
  origin := task.origin
  nodeName := task.nodeName
  source := task.source
  dispatchArgs := task.dispatchArgs
  resumeValues := task.resumeValues
  resumeMeta := task.resumeMeta
  staticBefore := task.staticBefore

/-- The checkpoint a step journals against: its parent, when there is one. -/
def journalCheckpointId (config : WorkflowConfig)
    (internal : RunInternalState) : Option Id :=
  if config.journalSteps then internal.parentCheckpointId else none

def intentAct (internal : RunInternalState) (tasks : List PlannedTask)
    (checkpointId : Id) : Act :=
  .journal checkpointId
    [⟨.stepIntent, 0, stepIntentChannel,
      .intent internal.stepNumber (tasks.map intentTask)⟩]
    .stepIntent

def doneAct (outcome : TaskOutcome) (checkpointId : Id) : Act :=
  let owner : TaskId := .task outcome.task.taskId
  .journal checkpointId
    ((outcome.writes.zipIdx.map fun entry =>
        (⟨owner, entry.2, entry.1.channel, .value entry.1.value⟩ : PendingWrite)) ++
      [⟨owner, outcome.writes.length, taskDoneChannel, .value (.bool true)⟩])
    owner

structure StepRun where
  acts : List Act
  outcomes : List TaskOutcome
  nextId : Nat

def outcomeActs (args : DriveRunArgs) (internal : RunInternalState)
    (outcome : TaskOutcome) : List Act :=
  [.tell (.ran outcome)] ++
    (outcome.notice.toList.map fun fault =>
      .tell (emitError args.threadId fault)) ++
    ((reportIf args.taskEvents (.taskEnd internal.stepNumber
        outcome.task.taskId outcome.task.nodeName outcome.status)).map .tell) ++
    (if outcome.status = .completed then
      (journalCheckpointId args.config internal).toList.map (doneAct outcome)
    else [])

def runTasks (args : DriveRunArgs) (internal : RunInternalState)
    (env : RoundEnv) (tasks : List PlannedTask) : List Nat → Nat → StepRun
  | [], nextId => ⟨[], [], nextId⟩
  | index :: rest, nextId =>
    match tasks[index]? with
    | none => runTasks args internal env tasks rest nextId
    | some task =>
      let aborted := env.abortedInStep && (env.task index).aborted
      let outcome := outcomeOf args.threadId args.abortReason internal.run
        nextId aborted task
        (runTaskBody args.config args.threadId internal
          { env.task index with aborted := aborted } task)
      let others := runTasks args internal env tasks rest
        (nextId + outcome.pendingDispatches.length)
      ⟨outcomeActs args internal outcome ++ others.acts,
        outcome :: others.outcomes, others.nextId⟩

/-- The first failure to be caught; else, in an aborted step, the abort. -/
def nodeFailureOf (args : DriveRunArgs) (env : RoundEnv)
    (tasks : List PlannedTask) (outcomes : List TaskOutcome) :
    Option NodeFailure :=
  match outcomes.findSome? fun outcome =>
      outcome.failure.map (NodeFailure.mk outcome.task.nodeName) with
  | some failure => some failure
  | none =>
    if env.abortedInStep then
      some
        { nodeName := (tasks.head?.map PlannedTask.nodeName).getD "<unknown>"
          cause := .workflow
            (if outcomes.length < tasks.length then
              .cancelTimeout
                (args.config.cancelGraceMs.getD defaultCancelGraceMs)
                args.config.name
            else .aborted args.threadId args.abortReason) }
    else none

def channelReports (args : DriveRunArgs) (internal : RunInternalState)
    (applied : ApplyResult) : List Obs :=
  applied.changedChannels.flatMap fun channel =>
    reportIf args.channelEvents
      (.channelUpdate internal.stepNumber channel
        ((Record.get? applied.versions channel).getD 0)
        (Record.get? applied.ephemeralValues channel))

def mergedInternal (internal : RunInternalState) (applied : ApplyResult)
    (ordered : List TaskOutcome) : RunInternalState :=
  { internal with
    state := applied.state
    versions := applied.versions
    lastCompletedNodes := completedNodesOf ordered
    pendingDynamicTasks := dispatchesOf ordered }

/-- What a settled step turns into: the observations of the merge, then one
exit. -/
def settleStep (args : DriveRunArgs) (env : RoundEnv)
    (internal : RunInternalState) (tasks : List PlannedTask)
    (outcomes : List TaskOutcome) : List Obs × Exit :=
  match nodeFailureOf args env tasks outcomes with
  | some failure =>
    ([], failureExit args internal env.abortedInStep tasks outcomes failure)
  | none =>
    let ordered := orderedOutcomes tasks outcomes
    match applyWrites internal.state internal.versions args.config.channels
        (writesOf ordered) with
    | .error error => ([], mergeFailureExit args internal error)
    | .ok applied =>
      match (args.config.validateState.map fun validate =>
          validate applied.state).getD (.ok ()) with
      | .error message => ([], validatorExit args internal message)
      | .ok () =>
        let merged := mergedInternal internal applied ordered
        let raised := pauseRecords ordered
        let pauses :=
          if raised.isEmpty then
            staticAfterOf args.config merged.lastCompletedNodes
          else raised
        (channelReports args internal applied,
          match pauses with
          | first :: others => suspendedExit args merged first others
          | [] => runningExit args merged)

structure Round where
  acts : List Act
  finish : Except Fault Exit

def stepRound (args : DriveRunArgs) (env : RoundEnv)
    (internal : RunInternalState) (tasks : List PlannedTask) : Round :=
  let opening := (reportIf args.stepEvents
    (.stepStart internal.stepNumber internal.state)).map Act.tell
  -- `structuredClone(internal.state)` for the frozen view of the tasks
  if internal.state.all fun entry => entry.2.cloneable then
    let started := tasks.flatMap fun task =>
      (reportIf args.taskEvents
        (.taskStart internal.stepNumber task.taskId task.nodeName)).map Act.tell
    let intent := (journalCheckpointId args.config internal).toList.map
      (intentAct internal tasks)
    let ran := runTasks args internal env tasks (env.settleOrder tasks.length)
      internal.nextId
    let settled := settleStep args env { internal with nextId := ran.nextId }
      tasks ran.outcomes
    ⟨opening ++ intent ++ started ++ ran.acts ++ settled.1.map Act.tell,
      .ok settled.2⟩
  else ⟨opening, .error (.thrown "DataCloneError")⟩

def decideRound (args : DriveRunArgs) (internal : RunInternalState) : Round :=
  let config := args.config
  let env := args.env internal.stepsThisInvocation
  if env.abortedAtTop then ⟨[], .ok (abortExit args internal)⟩
  else if internal.stepsThisInvocation ≥ config.stepCap then
    ⟨[], .ok (capExit args internal (.maxSteps config.name config.stepCap))⟩
  else
    match config.maxTotalSteps.filter fun cap => internal.stepNumber ≥ cap with
    | some cap =>
      ⟨[], .ok (capExit args internal (.maxTotalSteps config.name cap))⟩
    | none =>
      match planTasks config internal with
      | .error fault => ⟨[], .error fault⟩
      | .ok plan =>
        let emptied := internal.emptied plan.nextId
        let seen := Act.tell (.planned internal plan.planned)
        match plan.result with
        | .deadEnd nodes => ⟨[seen], .ok (deadEndExit args emptied nodes)⟩
        | .suspendBefore gated rest =>
          ⟨[seen], .ok (gateExit args emptied gated rest)⟩
        | .tasks [] => ⟨[seen], .ok (completedExit args emptied)⟩
        | .tasks (task :: others) =>
          let round := stepRound args env emptied (task :: others)
          ⟨seen :: round.acts, round.finish⟩

def playActs (args : DriveRunArgs) : List Act → EngineM Unit
  | [] => pure ()
  | .tell obs :: rest => do
      Program.tell obs
      playActs args rest
  | .journal checkpointId writes taskId :: rest => do
      storeCall (.putWrites args.threadId (namespaceFor args.config)
        checkpointId writes taskId)
      playActs args rest

def performExit (args : DriveRunArgs) (now : Nat) (exit : Exit) :
    EngineM Next := do
  let checkpointId ← persistCheckpoint args now exit.request
  Program.tellAll (exit.report checkpointId)
  pure (exit.next checkpointId)

def finishRound (args : DriveRunArgs) (now : Nat) :
    Except Fault Exit → EngineM Next
  | .error fault => Program.fail fault
  | .ok exit => performExit args now exit

/-- The signal is looked at once more behind a step's checkpoint. -/
def afterStep (args : DriveRunArgs) (env : RoundEnv) : Next → EngineM Next
  | .loop internal =>
    if env.abortedAfterStep then
      performExit args env.now (abortExit args internal)
    else pure (.loop internal)
  | next => pure next

def driveRound (args : DriveRunArgs) (internal : RunInternalState) :
    EngineM Next := do
  let env := args.env internal.stepsThisInvocation
  let round := decideRound args internal
  playActs args round.acts
  let next ← finishRound args env.now round.finish
  afterStep args env next

/-- `fuel` bounds the passes; `maxSteps` stops the loop before it runs out. -/
def driveLoop (args : DriveRunArgs) : Nat → RunInternalState → EngineM Unit
  | 0, _ => pure ()
  | fuel + 1, internal => do
      match ← driveRound args internal with
      | .raise fault => Program.fail fault
      | .close => pure ()
      | .loop next => driveLoop args fuel next

def driveRun (args : DriveRunArgs) (internal : RunInternalState) :
    EngineM Unit :=
  driveLoop args (args.config.stepCap + 1) internal

end Graphorin.Workflow
