import Graphorin.Workflow.Engine

namespace Graphorin.Workflow

open Graphorin.Lib
open Graphorin.Js

/-! Everything one pass through the loop can be, with the guards that lead
there.  Later proofs split on these cases and never unfold `decideRound`. -/

def stateVerdict (config : WorkflowConfig) (state : State) : Except String Unit :=
  (config.validateState.map fun validate => validate state).getD (.ok ())

def stepPauses (config : WorkflowConfig) (ordered : List TaskOutcome) :
    List PendingPauseRecord :=
  if (pauseRecords ordered).isEmpty then
    staticAfterOf config (completedNodesOf ordered)
  else pauseRecords ordered

inductive Settled (args : DriveRunArgs) (env : RoundEnv)
    (internal : RunInternalState) (tasks : List PlannedTask)
    (outcomes : List TaskOutcome) : List Obs × Exit → Prop
  | failed (failure : NodeFailure)
      (raised : nodeFailureOf args env tasks outcomes = some failure) :
      Settled args env internal tasks outcomes
        ([], failureExit args internal env.abortedInStep tasks outcomes failure)
  | unmerged (error : WorkflowError)
      (clean : nodeFailureOf args env tasks outcomes = none)
      (refused : applyWrites internal.state internal.versions
        args.config.channels (writesOf (orderedOutcomes tasks outcomes)) =
          .error error) :
      Settled args env internal tasks outcomes
        ([], mergeFailureExit args internal error)
  | invalid (applied : ApplyResult) (message : String)
      (clean : nodeFailureOf args env tasks outcomes = none)
      (merged : applyWrites internal.state internal.versions
        args.config.channels (writesOf (orderedOutcomes tasks outcomes)) =
          .ok applied)
      (refused : stateVerdict args.config applied.state = .error message) :
      Settled args env internal tasks outcomes
        ([], validatorExit args internal message)
  | suspended (applied : ApplyResult) (first : PendingPauseRecord)
      (others : List PendingPauseRecord)
      (clean : nodeFailureOf args env tasks outcomes = none)
      (merged : applyWrites internal.state internal.versions
        args.config.channels (writesOf (orderedOutcomes tasks outcomes)) =
          .ok applied)
      (valid : stateVerdict args.config applied.state = .ok ())
      (pauses : stepPauses args.config (orderedOutcomes tasks outcomes) =
        first :: others) :
      Settled args env internal tasks outcomes
        (channelReports args internal applied,
          suspendedExit args
            (mergedInternal internal applied (orderedOutcomes tasks outcomes))
            first others)
  | running (applied : ApplyResult)
      (clean : nodeFailureOf args env tasks outcomes = none)
      (merged : applyWrites internal.state internal.versions
        args.config.channels (writesOf (orderedOutcomes tasks outcomes)) =
          .ok applied)
      (valid : stateVerdict args.config applied.state = .ok ())
      (pauses : stepPauses args.config (orderedOutcomes tasks outcomes) = []) :
      Settled args env internal tasks outcomes
        (channelReports args internal applied,
          runningExit args
            (mergedInternal internal applied (orderedOutcomes tasks outcomes)))

theorem settleStep_settled (args : DriveRunArgs) (env : RoundEnv)
    (internal : RunInternalState) (tasks : List PlannedTask)
    (outcomes : List TaskOutcome) : Settled args env internal tasks outcomes
      (settleStep args env internal tasks outcomes) := by
  unfold settleStep
  cases clean : nodeFailureOf args env tasks outcomes with
  | some failure => exact .failed failure clean
  | none =>
    cases merged : applyWrites internal.state internal.versions
        args.config.channels (writesOf (orderedOutcomes tasks outcomes)) with
    | error error => simpa only [merged] using .unmerged error clean merged
    | ok applied =>
      cases valid : stateVerdict args.config applied.state with
      | error message =>
        have refused := valid
        unfold stateVerdict at refused
        simpa only [merged, refused] using
          .invalid applied message clean merged valid
      | ok =>
        have accepted := valid
        unfold stateVerdict at accepted
        simp only [merged, accepted]
        cases pauses : stepPauses args.config
            (orderedOutcomes tasks outcomes) with
        | nil =>
          have raised := pauses
          unfold stepPauses at raised
          simp only [mergedInternal, raised]
          exact .running applied clean merged valid pauses
        | cons first others =>
          have raised := pauses
          unfold stepPauses at raised
          simp only [mergedInternal, raised]
          exact .suspended applied first others clean merged valid pauses

def stepRun (args : DriveRunArgs) (env : RoundEnv)
    (internal : RunInternalState) (tasks : List PlannedTask) : StepRun :=
  runTasks args internal env tasks (env.settleOrder tasks.length)
    internal.nextId

def stepOpening (args : DriveRunArgs) (internal : RunInternalState)
    (tasks : List PlannedTask) : List Act :=
  (reportIf args.stepEvents
      (.stepStart internal.stepNumber internal.state)).map Act.tell ++
    (journalCheckpointId args.config internal).toList.map
      (intentAct internal tasks) ++
    tasks.flatMap fun task =>
      (reportIf args.taskEvents
        (.taskStart internal.stepNumber task.taskId task.nodeName)).map Act.tell

def stepInternal (args : DriveRunArgs) (env : RoundEnv)
    (internal : RunInternalState) (tasks : List PlannedTask) :
    RunInternalState :=
  { internal with nextId := (stepRun args env internal tasks).nextId }

def capReached (config : WorkflowConfig) (internal : RunInternalState) :
    Option WorkflowError :=
  if internal.stepsThisInvocation ≥ config.stepCap then
    some (.maxSteps config.name config.stepCap)
  else
    (config.maxTotalSteps.filter fun cap => internal.stepNumber ≥ cap).map
      (.maxTotalSteps config.name)

inductive Decided (args : DriveRunArgs) (internal : RunInternalState) :
    Round → Prop
  | aborted (signal : (args.env internal.stepsThisInvocation).abortedAtTop = true) :
      Decided args internal ⟨[], .ok (abortExit args internal)⟩
  | capped (error : WorkflowError)
      (live : (args.env internal.stepsThisInvocation).abortedAtTop = false)
      (cap : capReached args.config internal = some error) :
      Decided args internal ⟨[], .ok (capExit args internal error)⟩
  | unplanned (fault : Fault)
      (live : (args.env internal.stepsThisInvocation).abortedAtTop = false)
      (below : capReached args.config internal = none)
      (thrown : planTasks args.config internal = .error fault) :
      Decided args internal ⟨[], .error fault⟩
  | deadEnd (plan : Plan) (nodes : List String)
      (live : (args.env internal.stepsThisInvocation).abortedAtTop = false)
      (below : capReached args.config internal = none)
      (planned : planTasks args.config internal = .ok plan)
      (result : plan.result = .deadEnd nodes) :
      Decided args internal
        ⟨[.tell (.planned internal plan.planned)],
          .ok (deadEndExit args (internal.emptied plan.nextId) nodes)⟩
  | gated (plan : Plan) (gated : PlannedTask) (rest : List PlannedTask)
      (live : (args.env internal.stepsThisInvocation).abortedAtTop = false)
      (below : capReached args.config internal = none)
      (planned : planTasks args.config internal = .ok plan)
      (result : plan.result = .suspendBefore gated rest) :
      Decided args internal
        ⟨[.tell (.planned internal plan.planned)],
          .ok (gateExit args (internal.emptied plan.nextId) gated rest)⟩
  | completed (plan : Plan)
      (live : (args.env internal.stepsThisInvocation).abortedAtTop = false)
      (below : capReached args.config internal = none)
      (planned : planTasks args.config internal = .ok plan)
      (result : plan.result = .tasks []) :
      Decided args internal
        ⟨[.tell (.planned internal plan.planned)],
          .ok (completedExit args (internal.emptied plan.nextId))⟩
  | uncloneable (plan : Plan) (tasks : List PlannedTask)
      (live : (args.env internal.stepsThisInvocation).abortedAtTop = false)
      (below : capReached args.config internal = none)
      (planned : planTasks args.config internal = .ok plan)
      (result : plan.result = .tasks tasks) (nonempty : tasks ≠ [])
      (thrown : (internal.state.all fun entry => entry.2.cloneable) = false) :
      Decided args internal
        ⟨.tell (.planned internal plan.planned) ::
            (reportIf args.stepEvents
              (.stepStart internal.stepNumber internal.state)).map Act.tell,
          .error (.thrown "DataCloneError")⟩
  | stepped (plan : Plan) (tasks : List PlannedTask) (reports : List Obs)
      (exit : Exit)
      (live : (args.env internal.stepsThisInvocation).abortedAtTop = false)
      (below : capReached args.config internal = none)
      (planned : planTasks args.config internal = .ok plan)
      (result : plan.result = .tasks tasks) (nonempty : tasks ≠ [])
      (cloned : (internal.state.all fun entry => entry.2.cloneable) = true)
      (settled : Settled args (args.env internal.stepsThisInvocation)
        (stepInternal args (args.env internal.stepsThisInvocation)
          (internal.emptied plan.nextId) tasks)
        tasks
        (stepRun args (args.env internal.stepsThisInvocation)
          (internal.emptied plan.nextId) tasks).outcomes
        (reports, exit)) :
      Decided args internal
        ⟨.tell (.planned internal plan.planned) ::
            (stepOpening args (internal.emptied plan.nextId) tasks ++
              (stepRun args (args.env internal.stepsThisInvocation)
                (internal.emptied plan.nextId) tasks).acts ++
              reports.map Act.tell),
          .ok exit⟩

theorem capReached_none (config : WorkflowConfig)
    (internal : RunInternalState) (below : capReached config internal = none) :
    internal.stepsThisInvocation < config.stepCap ∧
      (config.maxTotalSteps.filter fun cap => internal.stepNumber ≥ cap) =
        none := by
  unfold capReached at below
  split at below
  · cases below
  · exact ⟨by omega, by simpa using below⟩

variable {args : DriveRunArgs} {internal : RunInternalState}

private theorem stepRound_decided
    (live : (args.env internal.stepsThisInvocation).abortedAtTop = false)
    (below : capReached args.config internal = none)
    (planned : planTasks args.config internal = .ok plan)
    (result : plan.result = .tasks (task :: others)) : Decided args internal
      ⟨.tell (.planned internal plan.planned) ::
          (stepRound args (args.env internal.stepsThisInvocation)
            (internal.emptied plan.nextId) (task :: others)).acts,
        (stepRound args (args.env internal.stepsThisInvocation)
          (internal.emptied plan.nextId) (task :: others)).finish⟩ := by
  unfold stepRound
  cases cloned : internal.state.all fun entry => entry.2.cloneable with
  | false =>
    rw [if_neg (by simpa [RunInternalState.emptied] using cloned)]
    exact .uncloneable plan _ live below planned result (by simp) cloned
  | true =>
    rw [if_pos (by simpa [RunInternalState.emptied] using cloned)]
    let env := args.env internal.stepsThisInvocation
    let settled := settleStep args env
      (stepInternal args env (internal.emptied plan.nextId) (task :: others))
      (task :: others)
      (stepRun args env (internal.emptied plan.nextId)
        (task :: others)).outcomes
    exact .stepped plan (task :: others) settled.1 settled.2 live below
      planned result (by simp) cloned (settleStep_settled _ _ _ _ _)

theorem decideRound_decided (args : DriveRunArgs) (internal : RunInternalState) :
    Decided args internal (decideRound args internal) := by
  unfold decideRound
  cases live : (args.env internal.stepsThisInvocation).abortedAtTop with
  | true => simpa [live] using .aborted live
  | false =>
    simp only [live, Bool.false_eq_true, if_false]
    cases cap : capReached args.config internal with
    | some error =>
      have reached := cap
      unfold capReached at reached
      split at reached
      · rename_i exhausted
        cases reached
        rw [if_pos exhausted]
        exact .capped _ live cap
      · rename_i remaining
        rw [if_neg remaining]
        obtain ⟨total, found, rfl⟩ := Option.map_eq_some_iff.mp reached
        rw [found]
        exact .capped _ live cap
    | none =>
      obtain ⟨remaining, total⟩ := capReached_none _ _ cap
      rw [if_neg (by omega), total]
      cases planned : planTasks args.config internal with
      | error fault => exact .unplanned fault live cap planned
      | ok plan =>
        cases result : plan.result with
        | deadEnd nodes =>
          simpa only [result] using
            .deadEnd plan nodes live cap planned result
        | suspendBefore gated rest =>
          simpa only [result] using
            .gated plan gated rest live cap planned result
        | tasks tasks =>
          cases tasks with
          | nil =>
            simpa only [result] using
              .completed plan live cap planned result
          | cons =>
            simp only [result]
            exact stepRound_decided live cap planned result

variable {round : Round} {exit : Exit}

/-- Only a step that settled as running sends the loop around again. -/
theorem Decided.again (decided : Decided args internal round)
    (finished : round.finish = .ok exit) (loops : exit.next checkpointId = .loop next) :
    ∃ plan tasks applied,
      let env := args.env internal.stepsThisInvocation
      let start := internal.emptied plan.nextId
      let outcomes := (stepRun args env start tasks).outcomes
      capReached args.config internal = none ∧ planTasks args.config internal = .ok plan ∧
        plan.result = .tasks tasks ∧ tasks ≠ [] ∧ nodeFailureOf args env tasks outcomes = none ∧
        exit = runningExit args (mergedInternal (stepInternal args env start tasks) applied
          (orderedOutcomes tasks outcomes)) := by
  cases decided with
  | aborted => cases finished; cases loops
  | capped => cases finished; cases loops
  | unplanned => cases finished
  | deadEnd => cases finished; cases loops
  | gated => cases finished; cases loops
  | completed => cases finished; cases loops
  | uncloneable => cases finished
  | stepped plan tasks reports exit live below planned result nonempty cloned settled =>
    cases finished
    cases settled with
    | failed => cases loops
    | unmerged => cases loops
    | invalid => cases loops
    | suspended => cases loops
    | running applied clean =>
      exact ⟨plan, tasks, applied, below, planned, result, nonempty, clean, rfl⟩

theorem Decided.loops (decided : Decided args internal round)
    (finished : round.finish = .ok exit) (loop : exit.next checkpointId = .loop next) :
    internal.stepsThisInvocation < args.config.stepCap ∧
      next.stepsThisInvocation = internal.stepsThisInvocation + 1 := by
  obtain ⟨plan, tasks, applied, below, -, -, -, -, rfl⟩ := decided.again finished loop
  cases loop
  exact ⟨(capReached_none _ _ below).1, rfl⟩

/-- An exit keeps the parent pointer it was decided under. -/
theorem Decided.parent (decided : Decided args internal round)
    (finished : round.finish = .ok exit) :
    exit.request.internal.parentCheckpointId = internal.parentCheckpointId ∧
      exit.request.internal.run = internal.run ∧
      exit.request.internal.stepNumber = internal.stepNumber := by
  cases decided with
  | aborted => cases finished; exact ⟨rfl, rfl, rfl⟩
  | capped => cases finished; exact ⟨rfl, rfl, rfl⟩
  | unplanned => cases finished
  | deadEnd =>
    cases finished; exact ⟨rfl, rfl, rfl⟩
  | gated =>
    cases finished; exact ⟨rfl, rfl, rfl⟩
  | completed =>
    cases finished; exact ⟨rfl, rfl, rfl⟩
  | uncloneable =>
    cases finished
  | stepped plan tasks reports exit live below planned result nonempty cloned settled =>
    cases finished
    cases settled <;> exact ⟨rfl, rfl, rfl⟩

/-- Only a running checkpoint is followed by another pass, and it passes its
parent pointer on unless it was stored. -/
theorem Decided.onward (decided : Decided args internal round)
    (finished : round.finish = .ok exit) (loops : exit.next checkpointId = .loop next) :
    exit.request.status = .running ∧
      next.parentCheckpointId = checkpointId.or internal.parentCheckpointId ∧
      next.stepNumber = internal.stepNumber + 1 ∧ next.run = internal.run := by
  obtain ⟨plan, tasks, applied, -, -, -, -, -, rfl⟩ := decided.again finished loops
  cases loops
  exact ⟨rfl, rfl, rfl, rfl⟩

/-- A running checkpoint is the one of a step after which the loop goes on. -/
theorem Decided.running (decided : Decided args internal round)
    (finished : round.finish = .ok exit) (status : exit.request.status = .running) :
    ∃ merged, exit = runningExit args merged := by
  cases decided with
  | aborted => cases finished; cases status
  | capped => cases finished; cases status
  | unplanned => cases finished
  | deadEnd => cases finished; cases status
  | gated =>
    cases finished; cases status
  | completed => cases finished; cases status
  | uncloneable =>
    cases finished
  | stepped plan tasks reports exit live below planned result nonempty cloned settled =>
    cases finished
    cases settled with
    | failed =>
      change (if _ then CheckpointStatus.aborted else .failed) = _ at status
      split at status <;> cases status
    | unmerged => cases status
    | invalid => cases status
    | suspended => cases status
    | running => exact ⟨_, rfl⟩

end Graphorin.Workflow
