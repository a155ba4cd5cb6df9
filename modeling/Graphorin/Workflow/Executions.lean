import Graphorin.Workflow.Reports
import Graphorin.Workflow.Fresh

namespace Graphorin.Workflow

open Graphorin.Lib
open Graphorin.Js

/-! Which tasks an observer has seen run. -/

def Obs.ran? : Obs → Option TaskOutcome
  | .ran outcome => some outcome
  | _ => none

def executions (past : List Obs) : List TaskOutcome := past.filterMap Obs.ran?

def ranOrigins (past : List Obs) : List Id :=
  (executions past).map fun outcome => outcome.task.origin

@[simp] theorem executions_nil : executions [] = [] := rfl

@[simp] theorem executions_append (before after : List Obs) :
    executions (before ++ after) = executions before ++ executions after :=
  List.filterMap_append

@[simp] theorem executions_event (event : WorkflowEvent) (rest : List Obs) :
    executions (.event event :: rest) = executions rest := rfl

@[simp] theorem ranOrigins_append (before after : List Obs) :
    ranOrigins (before ++ after) = ranOrigins before ++ ranOrigins after := by
  simp [ranOrigins]

@[simp] theorem executions_reportIf (wanted : Bool) (event : WorkflowEvent) :
    executions (reportIf wanted event) = [] := by
  unfold reportIf
  split <;> rfl

@[simp] theorem executions_checkpointReport (args : DriveRunArgs)
    (internal : RunInternalState) (checkpointId : Option Id) :
    executions (args.checkpointReport internal checkpointId) = [] := by
  cases checkpointId with
  | none => rfl
  | some => exact executions_reportIf _ _

@[simp] theorem executions_emitError (threadId : String) (fault : Fault) :
    executions [emitError threadId fault] = [] := rfl

theorem executions_flatMap {items : List α} (quiet : ∀ item, executions (reports item) = []) :
    executions (items.flatMap reports) = [] := by
  induction items with
  | nil => rfl
  | cons item rest ih => rw [List.flatMap_cons, executions_append, quiet, ih]; rfl

theorem executions_outcomeActs (args : DriveRunArgs)
    (internal : RunInternalState) (outcome : TaskOutcome) :
    executions (actsObs (outcomeActs args internal outcome)) = [outcome] := by
  have noticed : executions (actsObs (outcome.notice.toList.map fun fault =>
      Act.tell (emitError args.threadId fault))) = [] := by
    cases outcome.notice with
    | none => rfl
    | some => rfl
  have journaled : executions (actsObs (if outcome.status = .completed then
      (journalCheckpointId args.config internal).toList.map (doneAct outcome)
    else [])) = [] := by
    split
    · cases journalCheckpointId args.config internal with
      | none => rfl
      | some => rfl
    · rfl
  simp only [outcomeActs, actsObs_append, executions_append, noticed, journaled,
    actsObs_tell, executions_reportIf, List.append_nil]
  rfl

theorem executions_runTasks (args : DriveRunArgs) (internal : RunInternalState)
    (env : RoundEnv) (tasks : List PlannedTask) (order : List Nat) (nextId : Nat) :
    executions (actsObs (runTasks args internal env tasks order nextId).acts) =
      (runTasks args internal env tasks order nextId).outcomes := by
  induction order generalizing nextId with
  | nil => rfl
  | cons index _ ih =>
    cases present : tasks[index]? with
    | none =>
      rw [runTasks_cons_none present]
      exact ih nextId
    | some =>
      rw [runTasks_cons_some present]
      simp only [actsObs_append, executions_append, ih,
        executions_outcomeActs, List.singleton_append]

theorem executions_stepOpening (args : DriveRunArgs)
    (internal : RunInternalState) (tasks : List PlannedTask) :
    executions (actsObs (stepOpening args internal tasks)) = [] := by
  have started : executions (actsObs (tasks.flatMap fun task =>
      (reportIf args.taskEvents (.taskStart internal.stepNumber task.taskId
        task.nodeName)).map Act.tell)) = [] := by
    induction tasks with
    | nil => rfl
    | cons task rest ih =>
      rw [List.flatMap_cons, actsObs_append, executions_append, actsObs_tell,
        executions_reportIf, List.nil_append]
      exact ih
  have journaled : executions (actsObs ((journalCheckpointId args.config
      internal).toList.map (intentAct internal tasks))) = [] := by
    cases journalCheckpointId args.config internal with
    | none => rfl
    | some => rfl
  simp only [stepOpening, actsObs_append, executions_append, actsObs_tell,
    executions_reportIf, journaled, started, List.append_nil]

inductive PassRan (args : DriveRunArgs) (internal : RunInternalState) :
    List TaskOutcome → Prop
  | idle : PassRan args internal []
  | step (plan : Plan) (tasks : List PlannedTask)
      (planned : planTasks args.config internal = .ok plan)
      (result : plan.result = .tasks tasks) (nonempty : tasks ≠ []) :
      PassRan args internal
        (stepRun args (args.env internal.stepsThisInvocation)
          (internal.emptied plan.nextId) tasks).outcomes

variable {args : DriveRunArgs} {internal : RunInternalState}

theorem executions_settled
    (settled : Settled args env internal tasks outcomes (reports, exit)) :
    executions reports = [] ∧
      ∀ checkpointId, executions (exit.report checkpointId) = [] := by
  have channels : ∀ applied,
      executions (channelReports args internal applied) = [] :=
    fun applied => executions_flatMap fun _ => executions_reportIf _ _
  cases settled with
  | failed => exact ⟨rfl, executions_checkpointReport _ _⟩
  | unmerged => exact ⟨rfl, executions_checkpointReport _ _⟩
  | invalid =>
    exact ⟨rfl, executions_checkpointReport _ _⟩
  | suspended applied =>
    refine ⟨channels applied, fun checkpointId => ?_⟩
    simp [suspendedExit, DriveRunArgs.stepReport]
  | running applied =>
    refine ⟨channels applied, fun checkpointId => ?_⟩
    simp [runningExit, DriveRunArgs.stepReport]

theorem executions_stepActs {args : DriveRunArgs} {env : RoundEnv}
    {internal begun : RunInternalState} {planned tasks : List PlannedTask}
    {reports : List Obs} (quiet : executions reports = []) :
    executions (actsObs (.tell (.planned internal planned) ::
        (stepOpening args begun tasks ++ (stepRun args env begun tasks).acts ++
          reports.map Act.tell))) = (stepRun args env begun tasks).outcomes := by
  rw [actsObs_told]
  show executions (actsObs _) = _
  rw [actsObs_append, actsObs_append, executions_append, executions_append,
    executions_stepOpening, actsObs_tell, quiet, List.append_nil, List.nil_append]
  exact executions_runTasks _ _ _ _ _ _

theorem Decided.passRan {round : Round} (decided : Decided args internal round) :
    PassRan args internal (executions (actsObs round.acts)) := by
  cases decided with
  | aborted => exact .idle
  | capped => exact .idle
  | unplanned => exact .idle
  | deadEnd => exact .idle
  | gated => exact .idle
  | completed => exact .idle
  | uncloneable plan =>
    have none : executions (actsObs (.tell (.planned internal plan.planned) ::
        (reportIf args.stepEvents (.stepStart internal.stepNumber
          internal.state)).map Act.tell)) = [] := by
      rw [actsObs_told, actsObs_tell]
      exact executions_reportIf _ _
    rw [none]
    exact .idle
  | stepped plan tasks reports exit live below planned result nonempty cloned settled =>
    rw [executions_stepActs (executions_settled settled).1]
    exact .step plan tasks planned result nonempty

theorem Decided.report_quiet {round : Round} (decided : Decided args internal round)
    (finished : round.finish = .ok exit) (checkpointId : Option Id) :
    executions (exit.report checkpointId) = [] := by
  cases decided with
  | aborted => cases finished; rfl
  | capped => cases finished; rfl
  | unplanned => cases finished
  | deadEnd =>
    cases finished
    exact executions_checkpointReport _ _ _
  | gated =>
    cases finished
    simp [gateExit]
  | completed =>
    cases finished
    simp [completedExit]
  | uncloneable =>
    cases finished
  | stepped plan tasks reports exit live below planned result nonempty cloned settled =>
    cases finished
    exact (executions_settled settled).2 checkpointId

theorem settleOrder_perm {env : RoundEnv} (live : env.abortedInStep = false)
    (count : Nat) : (env.settleOrder count).Perm (List.range count) := by
  refine (List.perm_ext_iff_of_nodup (settleOrder_nodup env count)
    List.nodup_range).mpr fun index => ?_
  rw [List.mem_range]
  refine ⟨fun member => ?_, mem_settleOrder live⟩
  unfold RoundEnv.settleOrder at member
  simp only [live, Bool.false_eq_true, if_false, List.mem_append,
    List.mem_eraseDups, List.mem_filter, decide_eq_true_eq,
    List.mem_range] at member
  rcases member with settled | left
  · exact settled.2
  · exact left.1

theorem range_filterMap_getElem (items : List α) :
    ((List.range items.length).filterMap fun index => items[index]?) = items := by
  apply List.ext_getElem?
  intro place
  have whole : ((List.range items.length).map fun index => items[index]?) =
      items.map some := by
    apply List.ext_getElem
    · simp
    · intro index first second
      simp at second
      simp [second]
  rw [show ((List.range items.length).filterMap fun index => items[index]?) =
    ((List.range items.length).map fun index => items[index]?).filterMap id by
      rw [List.filterMap_map]; rfl, whole]
  simp

theorem stepRun_perm {args : DriveRunArgs} {env : RoundEnv}
    {internal : RunInternalState} {tasks : List PlannedTask}
    (live : env.abortedInStep = false) :
    ((stepRun args env internal tasks).outcomes.map TaskOutcome.task).Perm
      tasks := by
  unfold stepRun
  rw [runTasks_tasks]
  have rearranged := (settleOrder_perm live tasks.length).filterMap
    fun index => tasks[index]?
  rwa [range_filterMap_getElem] at rearranged

end Graphorin.Workflow
