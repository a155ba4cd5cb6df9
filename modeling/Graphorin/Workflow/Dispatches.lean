import Graphorin.Workflow.Steps

namespace Graphorin.Workflow

open Graphorin.Lib
open Graphorin.Js

/-! Dispatched work is conserved by the steps that merge, and lost by every
other end of a step. -/

inductive EndKind
  | onward
  | restored
  | abortedAfter
  | crashed
deriving DecidableEq

namespace StepRound

variable {args : DriveRunArgs} (step : StepRound args)

/-- The store once the step has journaled everything. -/
def played : CheckpointStore := actsStore args step.store step.acts

def now : Nat := step.env.now

/-- The run states a thread goes on with behind a step: the next pass of the
loop, or what a later invocation restores from the checkpoint of the step,
from the one an abort right behind it wrote, or, once the process died behind
the done marker of `outcome`, from the journal. -/
inductive Ends (order : RowOrder) (outcome : TaskOutcome) :
    EndKind → RunInternalState → Prop
  | onward {checkpointId : Option Id} {next : RunInternalState}
      (loops : step.exit.next checkpointId = .loop next) :
      Ends order outcome .onward next
  | restored {restore : RestoreOptions} {tuple : CheckpointTuple}
      {next : RunInternalState}
      (latest : (step.exit.request.storedIn args step.now step.played).latest
        args.threadId (namespaceFor args.config) = some tuple)
      (own : tuple.checkpoint.id =
        (step.exit.request.checkpoint args step.now).id)
      (plain : restore.directive.goto? = none)
      (restores : restoreRun args.config restore (order.read tuple) =
        .ok next) :
      Ends order outcome .restored next
  | abortedAfter {checkpointId : Option Id} {again next : RunInternalState}
      {store : CheckpointStore} {restore : RestoreOptions}
      {tuple : CheckpointTuple}
      (loops : step.exit.next checkpointId = .loop again)
      (latest : ((abortExit args again).request.storedIn args step.now
        store).latest args.threadId (namespaceFor args.config) = some tuple)
      (own : tuple.checkpoint.id =
        ((abortExit args again).request.checkpoint args step.now).id)
      (plain : restore.directive.goto? = none)
      (restores : restoreRun args.config restore (order.read tuple) =
        .ok next) :
      Ends order outcome .abortedAfter next
  | crashed {parentId : Id} {before after : List Act} {parent : CheckpointTuple}
      {tuple : CheckpointTuple} {restore : RestoreOptions}
      {next : RunInternalState}
      (journals : journalCheckpointId args.config step.begun = some parentId)
      (latest : step.store.latest args.threadId (namespaceFor args.config) =
        some parent)
      (owned : parent.checkpoint.id = parentId)
      (running : parent.metadata.status = .running)
      (consecutive : step.internal.stepNumber =
        parent.checkpoint.stepNumber + 1)
      (intents : IntentAtZero parent.pendingWrites)
      (split : step.acts = before ++ after)
      (marked : doneAct outcome parentId ∈ before)
      (found : (actsStore args step.store before).latest args.threadId
        (namespaceFor args.config) = some tuple)
      (plain : restore.directive.goto? = none)
      (restores : restoreRun args.config restore (order.read tuple) =
        .ok next) :
      Ends order outcome .crashed next

end StepRound

namespace StepRound

variable {args : DriveRunArgs} (step : StepRound args)

end StepRound

namespace StepRound

variable {args : DriveRunArgs} (step : StepRound args)

variable {order : RowOrder} {restore : RestoreOptions} {tuple : CheckpointTuple}
  {next : RunInternalState} {task : PlannedTask}

end StepRound

/-! `a` dispatches `c` while its sibling `b` fails in state 0 of the world. -/

def forkConfig : WorkflowConfig where
  name := "fork"
  nodes :=
    [("a", { run := fun _ _ => .ret (.dispatch "c" .undefined) }),
      ("b", { run := fun ambient _ =>
        if ambient = 0 then .throw (.thrown "down") else .ret .nothing }),
      ("c", { run := fun _ _ => .ret .nothing })]
  edges := [⟨startNode, "a", none⟩, ⟨startNode, "b", none⟩,
    ⟨"c", endNode, none⟩]
  channels := []

def fork : Workflow := ⟨forkConfig, rfl⟩

end Graphorin.Workflow
