import Graphorin.Workflow.Reach

namespace Graphorin.Workflow

open Graphorin.Lib
open Graphorin.Js

/-! A pass of the loop that runs tasks, with the store it meets.  `fresh` and
`older` hold of every pass of a history, see `LoopTop.fresh`. -/

structure StepRound (args : DriveRunArgs) where
  internal : RunInternalState
  store : CheckpointStore
  plan : Plan
  tasks : List PlannedTask
  fresh : Fresh internal
  older : store.Every fun checkpoint _ =>
    checkpoint.id.Older internal.run internal.nextId
  live : (args.env internal.stepsThisInvocation).abortedAtTop = false
  below : capReached args.config internal = none
  planned : planTasks args.config internal = .ok plan
  result : plan.result = .tasks tasks
  nonempty : tasks ≠ []
  cloned : (internal.state.all fun entry => entry.2.cloneable) = true

/-- The passes of a history that run tasks. -/
def LoopTop.step {config : WorkflowConfig} {threadId : String}
    {order : RowOrder} {args : DriveRunArgs} {internal : RunInternalState}
    {store : CheckpointStore}
    (top : LoopTop config threadId order args internal store) {plan : Plan}
    {tasks : List PlannedTask}
    (live : (args.env internal.stepsThisInvocation).abortedAtTop = false)
    (below : capReached args.config internal = none)
    (planned : planTasks args.config internal = .ok plan)
    (result : plan.result = .tasks tasks) (nonempty : tasks ≠ [])
    (cloned : (internal.state.all fun entry => entry.2.cloneable) = true) :
    StepRound args :=
  ⟨internal, store, plan, tasks, top.fresh.tasks, top.fresh.stored.older, live,
    below, planned, result, nonempty, cloned⟩

namespace StepRound

variable {args : DriveRunArgs} (step : StepRound args)

def env : RoundEnv := args.env step.internal.stepsThisInvocation

def begun : RunInternalState := step.internal.emptied step.plan.nextId

def ran : StepRun := stepRun args step.env step.begun step.tasks

/-- The run state once the tasks have settled. -/
def after : RunInternalState :=
  stepInternal args step.env step.begun step.tasks

/-- The outcomes in planned order. -/
def ordered : List TaskOutcome := orderedOutcomes step.tasks step.ran.outcomes

def settled : List Obs × Exit :=
  settleStep args step.env step.after step.tasks step.ran.outcomes

def exit : Exit := step.settled.2

def acts : List Act :=
  .tell (.planned step.internal step.plan.planned) ::
    (stepOpening args step.begun step.tasks ++ step.ran.acts ++
      step.settled.1.map Act.tell)

theorem tasks_planned : step.tasks = step.plan.planned :=
  (planTasks_tasks step.planned step.result step.nonempty).1

theorem freshTasks : FreshTasks step.internal.run step.plan.nextId step.tasks := by
  rw [step.tasks_planned]
  exact step.fresh.planned step.planned

theorem dispatched :
    FreshDispatches step.internal.run step.plan.nextId step.after.nextId
      (dispatchesOf step.ordered) :=
  @stepRun_dispatches args step.env step.begun step.tasks step.freshTasks.ids

theorem ran_once :
    (step.ran.outcomes.map fun outcome => outcome.task.taskId).Nodup :=
  stepRun_nodup step.freshTasks.ids

theorem ordered_consistent : ∀ outcome ∈ step.ordered, outcome.Consistent := by
  intro outcome member
  exact (mem_stepRun (mem_orderedOutcomes member)).1

theorem exit_of_settled {reports : List Obs} {exit : Exit}
    (settles : step.settled = (reports, exit)) : step.exit = exit := by
  rw [StepRound.exit, settles]

theorem nextId_le : step.internal.nextId ≤ step.after.nextId := by
  obtain ⟨-, added, -, drawn, -⟩ := planTasks_planned step.planned
  obtain ⟨-, ran, -⟩ := runTasks_dispatches args step.begun step.env step.tasks
    (step.env.settleOrder step.tasks.length) step.begun.nextId
  show _ ≤ (runTasks _ _ _ _ _ _).nextId
  rw [ran]
  show _ ≤ step.plan.nextId + _
  omega

theorem unused : (actsStore args step.store step.acts).Every fun stored _ =>
    stored.id ≠ ⟨step.internal.run, step.after.nextId⟩ := by
  refine (step.older.acts args step.acts).mono fun checkpoint _ older => ?_
  rintro same
  rw [same] at older
  have drawn := step.nextId_le
  rcases older with earlier | ⟨_, below⟩
  · simp only at earlier
    omega
  · simp only at below
    omega

end StepRound

end Graphorin.Workflow
