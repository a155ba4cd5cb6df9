import Graphorin.Workflow.Plan

namespace Graphorin.Workflow

open Graphorin.Lib
open Graphorin.Js

/-! Running the tasks of one step: what each task does, and what the step
makes of it once they have settled. -/

/-- What the world does to one task: what its body observes at each attempt,
whether its timeout fires first, whether the step had been aborted when its
failure was caught. -/
structure TaskEnv where
  ambient : Nat → Nat := fun _ => 0
  timedOut : Bool := false
  aborted : Bool := false

/-- What the world does to one pass through the engine loop. -/
structure RoundEnv where
  abortedAtTop : Bool := false
  abortedInStep : Bool := false
  abortedAfterStep : Bool := false
  settles : List Nat := []
  task : Nat → TaskEnv := fun _ => {}
  now : Nat := 0

/-- The order in which tasks settle.  Unless the step is aborted every task
does; an aborted step may leave some of them running. -/
def RoundEnv.settleOrder (env : RoundEnv) (count : Nat) : List Nat :=
  let settled := (env.settles.filter fun index => index < count).eraseDups
  if env.abortedInStep then settled
  else settled ++ (List.range count).filter fun index => !settled.contains index

structure TaskOutcome where
  task : PlannedTask
  writes : List ChannelWrite := []
  paused : Option JsValue := none
  status : TaskStatus
  pendingDispatches : List PlannedTask := []
  rejectedResume : Bool := false
  failure : Option Fault := none
  notice : Option Fault := none
  received : List JsValue := []

/-- Re-invoke the body on thrown failures only, never after an abort. -/
def attemptBody (once : Nat → Replay) (aborted : Bool) : Nat → Nat → Replay
  | 0, attempt => once attempt
  | retries + 1, attempt =>
    match (once attempt).result with
    | .threw _ =>
      if aborted then once attempt
      else attemptBody once aborted retries (attempt + 1)
    | _ => once attempt

def runNodeOnce (node : WorkflowNode) (ctx : WorkflowContext)
    (task : PlannedTask) (ambient : Nat) : Replay :=
  if task.source = .resume then
    (node.run ambient ctx).replay 0 task.answers (task.resumeMeta.getD [])
  else (node.run ambient ctx).replay 0 [] []

def runNodeWithPolicy (config : WorkflowConfig) (node : WorkflowNode)
    (ctx : WorkflowContext) (task : PlannedTask) (env : TaskEnv) : Replay :=
  let maxAttempts :=
    max 1 ((node.maxAttempts.or config.nodeDefaults.maxAttempts).getD 1)
  let ran := attemptBody
    (fun attempt => runNodeOnce node ctx task (env.ambient attempt))
    env.aborted (maxAttempts - 1) 1
  match (node.timeoutMs.or config.nodeDefaults.timeoutMs).filter (0 < ·) with
  | some timeoutMs =>
    if env.timedOut then
      ⟨.threw (.workflow (.nodeTimeout task.nodeName timeoutMs)), ran.received⟩
    else ran
  | none => ran

/-- `node.run` under its policy; an undeclared node throws. -/
def runTaskBody (config : WorkflowConfig) (threadId : String)
    (internal : RunInternalState) (env : TaskEnv) (task : PlannedTask) :
    Replay :=
  match config.nodes.get? task.nodeName with
  | none =>
    ⟨.threw (.workflow (.nodeExecution task.nodeName "node not registered")),
      []⟩
  | some node =>
    runNodeWithPolicy config node
      ⟨threadId, internal.stepNumber, task.taskId, internal.state,
        task.dispatchArgs⟩
      task env

def dispatchTasks (run : Nat) :
    Nat → List (String × JsValue) → List PlannedTask
  | _, [] => []
  | seq, (nodeName, args) :: rest =>
    { taskId := ⟨run, seq⟩
      origin := ⟨run, seq⟩
      nodeName := nodeName
      source := .dispatch
      dispatchArgs := args } :: dispatchTasks run (seq + 1) rest

def awakeablePause (name : String) : JsValue :=
  .obj [("kind", .str awakeablePauseKind), ("name", .str name)]

/-- The outcome of one task; `aborted` is the step controller's signal. -/
def outcomeOf (threadId abortReason : String) (run nextId : Nat)
    (aborted : Bool) (task : PlannedTask) (replay : Replay) : TaskOutcome :=
  match replay.result with
  | .returned output =>
    let harvest := harvestNodeOutput task.nodeName (.task task.taskId) output
    { task := task
      status := .completed
      writes := harvest.writes
      pendingDispatches := dispatchTasks run nextId harvest.dispatches
      received := replay.received }
  | .paused value =>
    { task := task
      status := .paused
      paused := some value
      received := replay.received }
  | .threw (.awakeablePayload name message) =>
    { task := task
      status := .paused
      paused := some (awakeablePause name)
      rejectedResume := task.freshResume
      notice := some (.workflow (.awakeablePayload message))
      received := replay.received }
  | .threw (.replayDivergence expected actual cursor) =>
    { task := task
      status := .failed
      failure := some (.workflow
        (.replayDivergence task.nodeName actual expected cursor))
      received := replay.received }
  | .threw (.workflow error) =>
    { task := task
      status := .failed
      failure := some
        (if aborted then .workflow (.aborted threadId abortReason)
          else .workflow error)
      received := replay.received }
  | .threw (.thrown message) =>
    { task := task
      status := .failed
      failure := some
        (if aborted then .workflow (.aborted threadId abortReason)
          else .thrown message)
      received := replay.received }

/-- The answers that stay delivered: all the body received, less a fresh
payload its schema rejected. -/
def TaskOutcome.accepted (outcome : TaskOutcome) : List JsValue :=
  if outcome.rejectedResume then outcome.received.dropLast else outcome.received

/-- What a paused task persists as already answered. -/
def TaskOutcome.satisfiedValues (outcome : TaskOutcome) : List JsValue :=
  if outcome.rejectedResume then outcome.task.answers.dropLast
  else outcome.task.answers

def TaskOutcome.satisfiedMeta (outcome : TaskOutcome) :
    List (Option PauseIdentity) :=
  if outcome.rejectedResume then (outcome.task.resumeMeta.getD []).dropLast
  else outcome.task.resumeMeta.getD []

def pauseRecordOf (outcome : TaskOutcome) (value : JsValue) :
    PendingPauseRecord where
  origin := outcome.task.origin
  nodeName := outcome.task.nodeName
  value := value
  dispatchArgs := outcome.task.dispatchArgs
  satisfied := outcome.satisfiedValues
  satisfiedMeta :=
    if outcome.satisfiedMeta.isEmpty then none else some outcome.satisfiedMeta
  wakeAt := pauseWakeAt value
  name := pauseName value

def pauseRecords (outcomes : List TaskOutcome) : List PendingPauseRecord :=
  outcomes.filterMap fun outcome => outcome.paused.map (pauseRecordOf outcome)

def orderedOutcomes (tasks : List PlannedTask) (outcomes : List TaskOutcome) :
    List TaskOutcome :=
  tasks.filterMap fun task =>
    outcomes.find? fun outcome => outcome.task.taskId == task.taskId

def completedOnly (outcomes : List TaskOutcome) : List TaskOutcome :=
  outcomes.filter fun outcome => outcome.status == .completed

def writesOf (outcomes : List TaskOutcome) : List ChannelWrite :=
  (completedOnly outcomes).flatMap TaskOutcome.writes

def dispatchesOf (outcomes : List TaskOutcome) : List PlannedTask :=
  (completedOnly outcomes).flatMap TaskOutcome.pendingDispatches

def completedNodesOf (outcomes : List TaskOutcome) : List String :=
  (completedOnly outcomes).map fun outcome => outcome.task.nodeName

def groupWritesByTask (writes : List ChannelWrite) :
    Record TaskId (List ChannelWrite) :=
  writes.foldl
    (fun out w => out.set w.taskId ((out.get? w.taskId).getD [] ++ [w])) []

/-- The status the failure frontier records for a task; one that never settled
counts as failed. -/
def recordedStatus (outcomes : List TaskOutcome) (task : PlannedTask) :
    TaskStatus :=
  match outcomes.find? fun outcome => outcome.task.taskId == task.taskId with
  | some outcome => outcome.status
  | none => .failed

def stepTasksOf (tasks : List PlannedTask) (outcomes : List TaskOutcome) :
    List StepTask :=
  tasks.map fun task =>
    ⟨task.taskId, task.origin, task.nodeName, recordedStatus outcomes task,
      task.dispatchArgs⟩

structure NodeFailure where
  nodeName : String
  cause : Fault

def wrapNodeFailure (failure : NodeFailure) : Fault :=
  match failure.cause with
  | .workflow error => .workflow error
  | .thrown message => .workflow (.nodeExecution failure.nodeName message)

end Graphorin.Workflow
