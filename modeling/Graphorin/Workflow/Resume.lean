import Graphorin.Workflow.Engine

namespace Graphorin.Workflow

open Graphorin.Lib
open Graphorin.Js

/-! Starting an invocation: a fresh run, or one restored from the latest
checkpoint of the thread. -/

/-- `undefined` stands for an absent `resume`. -/
structure Directive where
  goto? : Option String := none
  resume : JsValue := .undefined
  update : Option (Record String JsValue) := none

inductive ResumeMode
  | resume
  | retry
deriving DecidableEq

structure RestoreOptions where
  threadId : String
  mode : ResumeMode := .resume
  directive : Directive := {}
  selectPause : Option (PendingPauseRecord → Bool) := none
  selectPauseLabel : String := "<selector>"
  allowVersionMismatch : Bool := false
  run : Nat

/-- Why no run state was restored: an error event was reported, or an
exception left the generator. -/
inductive Refusal
  | reported (error : WorkflowError)
  | escaped (error : WorkflowError)
deriving DecidableEq

/-! The retry replay: completed tasks of a failed step come back as their
persisted writes, everything else runs again. -/

def completedStepTasks (frontier : FrontierEnvelope) : List StepTask :=
  frontier.stepTasks.filter fun task => task.status == .completed

def replayedWrite (frontier : FrontierEnvelope) (row : PendingWrite) :
    Option ChannelWrite :=
  match row.taskId, row.value with
  | .task id, .value value =>
    ((completedStepTasks frontier).find? fun task => task.taskId == id).map
      fun task => ⟨task.nodeName, row.taskId, row.index, row.channel, value⟩
  | _, _ => none

def replayWrites (frontier : FrontierEnvelope) (rows : List PendingWrite) :
    List ChannelWrite :=
  rows.filterMap (replayedWrite frontier)

/-- `pauseByNode.get`: of several records for one node the last one wins. -/
def pauseByNode (frontier : FrontierEnvelope) (nodeName : String) :
    Option PendingPauseRecord :=
  (frontier.pauses.filter fun record => record.nodeName == nodeName).getLast?

def rerunStepTask (frontier : FrontierEnvelope) (id : Id) (task : StepTask) :
    PlannedTask :=
  match
    if task.status = .paused then pauseByNode frontier task.nodeName else none
  with
  | some record =>
    { taskId := id
      origin := task.origin
      nodeName := task.nodeName
      source := .resume
      dispatchArgs := task.dispatchArgs
      resumeValues := some (if record.staticBefore then [] else record.satisfied)
      resumeMeta := some
        (if record.staticBefore then [] else priorMetaOf record)
      staticBefore := record.staticBefore }
  | none =>
    { taskId := id
      origin := task.origin
      nodeName := task.nodeName
      source := .dispatch
      dispatchArgs := task.dispatchArgs }

def rerunStepTasks (run : Nat) (frontier : FrontierEnvelope) :
    List PlannedTask :=
  ((frontier.stepTasks.filter fun task =>
    !(task.status == .completed)).zipIdx).map fun entry =>
      rerunStepTask frontier ⟨run, entry.2⟩ entry.1

/-- Merge replayed writes into the restored state; a merge failure here is not
caught by anyone. -/
def replayInto (config : WorkflowConfig) (internal : RunInternalState)
    (writes : List ChannelWrite) : Except Refusal RunInternalState :=
  if writes.isEmpty then .ok internal
  else
    match applyWrites internal.state internal.versions config.channels writes with
    | .error error => .error (.escaped error)
    | .ok applied =>
      .ok { internal with state := applied.state, versions := applied.versions }

def restoreFailedStep (config : WorkflowConfig) (frontier : FrontierEnvelope)
    (rows : List PendingWrite) (internal : RunInternalState) :
    Except Refusal RunInternalState := do
  let replayed ← replayInto config internal (replayWrites frontier rows)
  let pending := rerunStepTasks internal.run frontier
  pure
    { replayed with
      lastCompletedNodes := (completedStepTasks frontier).map StepTask.nodeName
      pendingDynamicTasks := pending
      nextId := pending.length }

structure StepJournal where
  replayWrites : List ChannelWrite
  completedNodes : List String
  rerunTasks : List PlannedTask

def isIntentRow (row : PendingWrite) : Bool :=
  row.taskId == .stepIntent && row.channel == stepIntentChannel

def stepIntent? (rows : List PendingWrite) : Option (Nat × List StepIntentTask) :=
  match rows.find? isIntentRow with
  | some ⟨_, _, _, .intent stepNumber tasks⟩ => some (stepNumber, tasks)
  | _ => none

def isDone (rows : List PendingWrite) (id : Id) : Bool :=
  rows.any fun row =>
    row.channel == taskDoneChannel && row.taskId == .task id

def journaledWrites (rows : List PendingWrite) (task : StepIntentTask) :
    List ChannelWrite :=
  rows.filterMap fun row =>
    if row.taskId = .task task.taskId ∧ row.channel ≠ taskDoneChannel then
      match row.value with
      | .value value =>
        some ⟨task.nodeName, row.taskId, row.index, row.channel, value⟩
      | .intent _ _ => none
    else none

def rerunIntentTask (id : Id) (task : StepIntentTask) : PlannedTask where
  taskId := id
  origin := task.origin
  nodeName := task.nodeName
  source := if task.source = .resume then .resume else .dispatch
  dispatchArgs := task.dispatchArgs
  resumeValues := task.resumeValues
  resumeMeta := task.resumeMeta
  staticBefore := task.staticBefore

def readStepJournal (run : Nat) (rows : List PendingWrite)
    (expectedStepNumber : Nat) : Option StepJournal :=
  match stepIntent? rows with
  | none => none
  | some (stepNumber, tasks) =>
    if stepNumber ≠ expectedStepNumber ∨ tasks = [] then none
    else
      let done := tasks.filter fun task => isDone rows task.taskId
      some
        { replayWrites := done.flatMap (journaledWrites rows)
          completedNodes := done.map StepIntentTask.nodeName
          rerunTasks :=
            ((tasks.filter fun task => !isDone rows task.taskId).zipIdx).map
              fun entry => rerunIntentTask ⟨run, entry.2⟩ entry.1 }

def dynamicTask (id : Id) (entry : DynamicEntry) : PlannedTask where
  taskId := id
  origin := entry.origin
  nodeName := entry.nodeName
  source := .dispatch
  dispatchArgs := entry.dispatchArgs

/-- The task a pause record turns back into.  `fresh` is the directive's value
for the pause being answered; a static gate replays nothing. -/
def resumeTask (id : Id) (record : PendingPauseRecord) (fresh : Option JsValue) :
    PlannedTask where
  taskId := id
  origin := record.origin
  nodeName := record.nodeName
  source := .resume
  dispatchArgs := record.dispatchArgs
  resumeValues := some
    (if record.staticBefore then [] else record.satisfied ++ fresh.toList)
  resumeMeta := some
    (if record.staticBefore then []
      else priorMetaOf record ++
        fresh.toList.map fun _ => some (pauseMetaOf record))
  staticBefore := record.staticBefore
  freshResume := fresh.isSome && !record.staticBefore

def fanOutRecord (internal : RunInternalState) (record : PendingPauseRecord)
    (fresh : Option JsValue) : RunInternalState :=
  if record.staticAfter then
    { internal with
      lastCompletedNodes :=
        if internal.lastCompletedNodes.contains record.nodeName then
          internal.lastCompletedNodes
        else internal.lastCompletedNodes ++ [record.nodeName] }
  else
    { internal with
      pendingDynamicTasks := internal.pendingDynamicTasks ++
        [resumeTask ⟨internal.run, internal.nextId⟩ record fresh]
      nextId := internal.nextId + 1 }

def fanOut (internal : RunInternalState) (resume : JsValue) :
    List PendingPauseRecord → RunInternalState
  | [] => internal
  | primary :: others =>
    others.foldl (fun acc record => fanOutRecord acc record none)
      (fanOutRecord internal primary (some resume))

/-- The pause the value goes to comes first. -/
def orderPauses (options : RestoreOptions) (pauses : List PendingPauseRecord) :
    Except Refusal (List PendingPauseRecord) :=
  match options.selectPause with
  | none => .ok pauses
  | some select =>
    match takeFirst select pauses with
    | some (target, others) => .ok (target :: others)
    | none => .error (.reported
        (.pauseNotFound options.threadId options.selectPauseLabel))

def restoreDynamic (frontier : FrontierEnvelope) (internal : RunInternalState) :
    RunInternalState :=
  { internal with
    lastCompletedNodes := frontier.completed
    pendingDynamicTasks := frontier.dynamic.zipIdx.map fun entry =>
      dynamicTask ⟨internal.run, entry.2⟩ entry.1
    nextId := frontier.dynamic.length }

def gotoTask (id : Id) (nodeName : String) : PlannedTask where
  taskId := id
  origin := id
  nodeName := nodeName
  source := .dispatch

def restoreFrontier (config : WorkflowConfig) (options : RestoreOptions)
    (status : CheckpointStatus) (frontier : FrontierEnvelope)
    (rows : List PendingWrite) (internal : RunInternalState) :
    Except Refusal RunInternalState :=
  let restored := restoreDynamic frontier internal
  let journal :=
    if status = .running ∧ config.journalSteps then
      readStepJournal internal.run rows internal.stepNumber
    else none
  match journal with
  | some journal => do
      let replayed ← replayInto config restored journal.replayWrites
      pure
        { replayed with
          lastCompletedNodes := journal.completedNodes
          pendingDynamicTasks := journal.rerunTasks
          nextId := journal.rerunTasks.length }
  | none =>
    match options.directive.goto?.filter (· ≠ "") with
    | some nodeName =>
      .ok
        { restored with
          pendingDynamicTasks :=
            [gotoTask ⟨internal.run, restored.nextId⟩ nodeName]
          lastCompletedNodes := []
          nextId := restored.nextId + 1 }
    | none => do
        let pauses ← orderPauses options frontier.pauses
        pure (fanOut restored options.directive.resume pauses)

def isResumable (mode : ResumeMode) (status : CheckpointStatus) : Bool :=
  match mode with
  | .retry => status = .failed ∨ status = .aborted
  | .resume => status = .suspended ∨ status = .running ∨ status = .aborted

def missingNodes (config : WorkflowConfig) (frontier : FrontierEnvelope) :
    List String :=
  ((frontier.pauses.map PendingPauseRecord.nodeName ++
      frontier.dynamic.map DynamicEntry.nodeName ++
      frontier.completed ++
      frontier.stepTasks.map StepTask.nodeName).filter fun nodeName =>
        nodeName ≠ startNode ∧ Record.has config.nodes nodeName = false).eraseDups

/-- Why a checkpoint cannot be continued at all. -/
def admission (config : WorkflowConfig) (options : RestoreOptions)
    (tuple : CheckpointTuple) : Except Refusal Unit :=
  let frontier := readFrontier tuple.metadata
  if isResumable options.mode tuple.metadata.status = false then
    .error (.reported
      (.resumeWithoutSuspension options.threadId tuple.metadata.status))
  else
    match frontier.version, config.version with
    | some stored, some current =>
      if options.allowVersionMismatch = false ∧ stored ≠ current then
        .error (.reported (.versionMismatch options.threadId stored current))
      else checkNodes frontier
    | _, _ => checkNodes frontier
where
  checkNodes (frontier : FrontierEnvelope) : Except Refusal Unit :=
    match missingNodes config frontier with
    | [] => .ok ()
    | missing => .error (.reported (.divergence options.threadId missing))

/-- The run state before any of the frontier is restored; the step counter
moves on so that the next checkpoint is strictly newer. -/
def restoredBase (options : RestoreOptions) (tuple : CheckpointTuple) :
    RunInternalState where
  state := tuple.checkpoint.state
  versions := tuple.checkpoint.channelVersions
  pendingDynamicTasks := []
  lastCompletedNodes := []
  stepNumber := tuple.checkpoint.stepNumber + 1
  stepsThisInvocation := 0
  parentCheckpointId := some tuple.checkpoint.id
  pendingPauses := []
  run := options.run
  nextId := 0

def restoreWork (config : WorkflowConfig) (options : RestoreOptions)
    (tuple : CheckpointTuple) : Except Refusal RunInternalState :=
  let frontier := readFrontier tuple.metadata
  let status := tuple.metadata.status
  if (status = .failed ∨ status = .aborted) ∧ frontier.stepTasks ≠ [] then
    restoreFailedStep config frontier tuple.pendingWrites
      (restoredBase options tuple)
  else
    restoreFrontier config options status frontier tuple.pendingWrites
      (restoredBase options tuple)

def directiveWrites (update : Record String JsValue) : List ChannelWrite :=
  update.zipIdx.map fun entry =>
    ⟨"__resume__", .directive, entry.2, entry.1.1, entry.1.2⟩

def applyUpdate (config : WorkflowConfig) (directive : Directive)
    (internal : RunInternalState) : Except Refusal RunInternalState :=
  match directive.update with
  | none => .ok internal
  | some update =>
    match applyWrites internal.state internal.versions config.channels
        (directiveWrites update) with
    | .error error => .error (.escaped error)
    | .ok applied =>
      .ok { internal with
        state := applied.state, versions := applied.versions }

def restoreRun (config : WorkflowConfig) (options : RestoreOptions)
    (tuple : CheckpointTuple) : Except Refusal RunInternalState := do
  admission config options tuple
  let internal ← restoreWork config options tuple
  applyUpdate config options.directive internal

structure InvocationOptions where
  streamMode : StreamMode := .values
  durability : Option DurabilityMode := none
  allowVersionMismatch : Bool := false
  abortReason : String := "aborted"
  env : Nat → RoundEnv := fun _ => {}
  run : Nat

def driveArgs (config : WorkflowConfig) (threadId : String)
    (options : InvocationOptions) : DriveRunArgs where
  config := config
  threadId := threadId
  durability := (options.durability.or config.durability).getD .sync
  streamMode := options.streamMode
  abortReason := options.abortReason
  env := options.env

/-- `driveRun` under the `catch` that turns what it raises into an event. -/
def driveReporting (args : DriveRunArgs) (internal : RunInternalState) :
    EngineM Unit :=
  (driveRun args internal).catchFail fun fault =>
    Program.tell (emitError args.threadId fault)

def initialInternal (config : WorkflowConfig) (input : Record String JsValue)
    (run : Nat) : RunInternalState where
  state := buildInitialState config.channels config.initialState input
  versions := []
  pendingDynamicTasks := []
  lastCompletedNodes := [startNode]
  stepNumber := 0
  stepsThisInvocation := 0
  parentCheckpointId := none
  pendingPauses := []
  run := run
  nextId := 0

def runEngine (config : WorkflowConfig) (threadId : String)
    (options : InvocationOptions) (input : Record String JsValue) :
    EngineM Unit := do
  Program.tell (.event (.start threadId config.name))
  driveReporting (driveArgs config threadId options)
    (initialInternal config input options.run)

/-- The directive's payloads ride the frontier, so they are checked first. -/
def checkDirective (directive : Directive) : Except WorkflowError Unit := do
  assertJsonSafe "<directive>" "<directive>.resume" directive.resume
  match directive.update with
  | some update =>
    assertJsonSafe "<directive>" "<directive>.update" (.obj update)
  | none => pure ()

def driveRestored (config : WorkflowConfig) (threadId : String)
    (options : InvocationOptions) :
    Except Refusal RunInternalState → EngineM Unit
  | .error (.reported error) =>
    Program.tell (emitError threadId (.workflow error))
  | .error (.escaped error) => Program.fail (.workflow error)
  | .ok internal => do
      Program.tell (.event (.resumed threadId internal.stepNumber
        internal.state))
      driveReporting (driveArgs config threadId options) internal

def resumeFrom (config : WorkflowConfig) (threadId : String)
    (options : InvocationOptions) (restore : RestoreOptions) :
    Option CheckpointTuple → EngineM Unit
  | none =>
    Program.tell (emitError threadId (.workflow (.threadNotFound threadId)))
  | some tuple =>
    driveRestored config threadId options (restoreRun config restore tuple)

def resumeEngine (config : WorkflowConfig) (threadId : String)
    (options : InvocationOptions) (restore : RestoreOptions) :
    EngineM Unit :=
  match checkDirective restore.directive with
  | .error error => Program.tell (emitError threadId (.workflow error))
  | .ok () => do
      let tuple ← storeCall (.getTuple threadId (namespaceFor config))
      resumeFrom config threadId options restore tuple

inductive Invocation
  | execute (input : Record String JsValue)
  | resume (directive : Directive)
  | retry
  | resolveAwakeable (name : String) (value : JsValue)
  | tick (now : Rat)

def baseRestore (threadId : String) (options : InvocationOptions) :
    RestoreOptions where
  threadId := threadId
  allowVersionMismatch := options.allowVersionMismatch
  run := options.run

def defaultTimeoutDecision : JsValue :=
  .obj [("granted", .bool false), ("reason", .str "defer-timeout")]

/-- The value a due pause is resumed with: a named one resolves to its timeout
decision, a bare timer to nothing. -/
def timeoutValue (record : PendingPauseRecord) : JsValue :=
  match record.name with
  | none => .undefined
  | some _ =>
    match record.value.field "timeoutDecision" with
    | .undefined => defaultTimeoutDecision
    | .null => defaultTimeoutDecision
    | decision => decision

def earliestDue (now : Rat) : List PendingPauseRecord → Option (Rat × PendingPauseRecord)
  | [] => none
  | record :: rest =>
    match record.wakeAt with
    | none => earliestDue now rest
    | some wakeAt =>
      if wakeAt ≤ now then
        match earliestDue now rest with
        | some (least, other) =>
          if least < wakeAt then some (least, other)
          else some (wakeAt, record)
        | none => some (wakeAt, record)
      else earliestDue now rest

def tickRestore (threadId : String) (options : InvocationOptions)
    (due : Rat × PendingPauseRecord) : RestoreOptions :=
  { baseRestore threadId options with
    directive := { resume := timeoutValue due.2 }
    selectPause := some fun record =>
      record.wakeAt == some due.1 && record.nodeName == due.2.nodeName
    selectPauseLabel := "timer@" ++ toString due.1 }

def tickFrom (config : WorkflowConfig) (threadId : String)
    (options : InvocationOptions) (now : Rat) :
    Option CheckpointTuple → EngineM Unit
  | none => Program.fail (.workflow (.threadNotFound threadId))
  | some tuple =>
    match earliestDue now (readFrontier tuple.metadata).pauses with
    | none => pure ()
    | some due =>
      if tuple.metadata.status = .suspended then do
        resumeEngine config threadId options
          (tickRestore threadId options due)
        let _ ← storeCall (.getTuple threadId (namespaceFor config))
        pure ()
      else pure ()

def tickEngine (config : WorkflowConfig) (threadId : String)
    (options : InvocationOptions) (now : Rat) : EngineM Unit := do
  let tuple ← storeCall (.getTuple threadId (namespaceFor config))
  tickFrom config threadId options now tuple

/-- The restore options of the operations that go straight to
`resumeEngine`. -/
def Invocation.program (config : WorkflowConfig) (threadId : String)
    (options : InvocationOptions) : Invocation → EngineM Unit
  | .execute input => runEngine config threadId options input
  | .resume directive =>
    resumeEngine config threadId options
      { baseRestore threadId options with directive := directive }
  | .retry =>
    resumeEngine config threadId options
      { baseRestore threadId options with mode := .retry }
  | .resolveAwakeable name value =>
    resumeEngine config threadId options
      { baseRestore threadId options with
        directive := { resume := value }
        selectPause := some fun record => record.name == some name
        selectPauseLabel := name }
  | .tick now => tickEngine config threadId options now

end Graphorin.Workflow
