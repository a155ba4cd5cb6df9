import Graphorin.Workflow.Executions

namespace Graphorin.Workflow

open Graphorin.Lib
open Graphorin.Js

/-! Where resumed tasks come from.  `ground` is what is known of the pause a
task was restored from: its node, whether it was a static gate, and the
answers the task replays. -/

abbrev Ground := String → Bool → List JsValue → Prop

def Sourced (ground : Ground) (nodeName : String) (source : TaskSource)
    (staticBefore : Bool) (answers : List JsValue) : Prop :=
  (staticBefore = true → source = .resume) ∧
    (source = .resume → ground nodeName staticBefore answers)

def PlannedTask.Sourced (ground : Ground) (task : PlannedTask) : Prop :=
  Workflow.Sourced ground task.nodeName task.source task.staticBefore task.answers

def StepIntentTask.Sourced (ground : Ground) (task : StepIntentTask) : Prop :=
  Workflow.Sourced ground task.nodeName task.source task.staticBefore
    (task.resumeValues.getD [])

def RowValue.Sourced (ground : Ground) : RowValue → Prop
  | .value _ => True
  | .intent _ tasks => ∀ task ∈ tasks, task.Sourced ground

variable {task : PlannedTask}

/-- A task that is no resume needs no grounds. -/
theorem PlannedTask.sourced_of_plain {ground : Ground} (plain : task.source ≠ .resume)
    (unapproved : task.staticBefore = false) : task.Sourced ground := by
  refine ⟨fun static => ?_, fun resumed => absurd resumed plain⟩
  rw [unapproved] at static
  cases static

variable {ground : Ground}

theorem Sourced.mono
    (implies : ∀ node static values, ground node static values → weak node static values)
    (sourced : Sourced ground nodeName source staticBefore answers) :
    Sourced weak nodeName source staticBefore answers :=
  ⟨sourced.1, fun resumed => implies _ _ _ (sourced.2 resumed)⟩

theorem RowValue.Sourced.mono {weak : Ground} {value : RowValue}
    (implies : ∀ node static values, ground node static values →
      weak node static values)
    (sourced : value.Sourced ground) : value.Sourced weak := by
  cases value with
  | value => trivial
  | intent =>
    exact fun task member => Workflow.Sourced.mono implies (sourced task member)

def SourcedRows (ground : Ground) (store : CheckpointStore) : Prop :=
  ∀ tuple ∈ store, ∀ row ∈ tuple.pendingWrites, row.value.Sourced ground

theorem SourcedRows.insert {store : CheckpointStore} (rows : SourcedRows ground store)
    (checkpoint : Checkpoint) (metadata : CheckpointMetadata) :
    SourcedRows ground (store.insert checkpoint metadata) := by
  unfold CheckpointStore.insert
  split
  · intro tuple member
    obtain ⟨old, stored, rfl⟩ := List.mem_map.mp member
    split
    · exact rows old stored
    · exact rows old stored
  · intro tuple member
    rcases List.mem_append.mp member with stored | added
    · exact rows tuple stored
    · rw [List.mem_singleton.mp added]
      simp

theorem sourced_writeRows {owner : TaskId} (before : ∀ row ∈ rows, row.value.Sourced ground)
    (added : ∀ write ∈ writes, write.value.Sourced ground) :
    ∀ row ∈ CheckpointStore.writeRows rows writes owner, row.value.Sourced ground := by
  unfold CheckpointStore.writeRows
  induction writes generalizing rows with
  | nil => exact before
  | cons write _ ih =>
    apply ih ?_ fun other member => added other (List.mem_cons_of_mem _ member)
    intro row member
    rcases List.mem_append.mp member with kept | here
    · exact before row (List.mem_filter.mp kept).1
    · rw [List.mem_singleton.mp here]
      exact added write List.mem_cons_self

variable {store : CheckpointStore}

theorem SourcedRows.addWrites (rows : SourcedRows ground store)
    {threadId namespaceName : String} {checkpointId : Id} {owner : TaskId}
    (added : ∀ write ∈ writes, write.value.Sourced ground) : SourcedRows ground
      (store.addWrites threadId namespaceName checkpointId writes owner) := by
  intro tuple member
  obtain ⟨old, stored, rfl⟩ := List.mem_map.mp member
  unfold CheckpointStore.writeTuple
  split
  · exact sourced_writeRows (rows old stored) added
  · exact rows old stored

theorem SourcedRows.putAll (rows : SourcedRows ground store) (args : DriveRunArgs)
    (checkpointId : Id) (groups : Record TaskId (List ChannelWrite)) :
    SourcedRows ground (store.putAll args checkpointId groups) := by
  unfold CheckpointStore.putAll
  induction groups generalizing store with
  | nil => exact rows
  | cons group rest ih =>
    refine ih (rows.addWrites fun write member => ?_)
    obtain ⟨entry, -, rfl⟩ := List.mem_map.mp member
    trivial

def SourcedActs (ground : Ground) (acts : List Act) : Prop :=
  ∀ act ∈ acts, ∀ target writes owner, act = .journal target writes owner →
    ∀ write ∈ writes, write.value.Sourced ground

theorem SourcedRows.acts (rows : SourcedRows ground store) (args : DriveRunArgs)
    {acts : List Act} (sourced : SourcedActs ground acts) :
    SourcedRows ground (actsStore args store acts) := by
  induction acts generalizing store with
  | nil => exact rows
  | cons act _ ih =>
    refine ih ?_ fun other member => sourced other (List.mem_cons_of_mem _ member)
    cases act with
    | tell => exact rows
    | journal target writes owner =>
      exact rows.addWrites (sourced _ List.mem_cons_self target writes owner rfl)

theorem SourcedActs.append (first : SourcedActs ground before)
    (second : SourcedActs ground after) : SourcedActs ground (before ++ after) :=
  List.forall_mem_append.mpr ⟨first, second⟩

theorem sourcedActs_tell (observations : List Obs) :
    SourcedActs ground (observations.map Act.tell) := by
  intro act member target writes owner journals
  obtain ⟨obs, -, rfl⟩ := List.mem_map.mp member
  cases journals

theorem sourcedActs_runTasks (args : DriveRunArgs) (internal : RunInternalState)
    (env : RoundEnv) (tasks : List PlannedTask) (order : List Nat) (nextId : Nat) :
    SourcedActs ground (runTasks args internal env tasks order nextId).acts := by
  rintro act member target writes owner rfl
  rcases runTasks_acts member with ⟨_, ⟨⟩⟩ | ⟨outcome, checkpointId, -, same⟩
  cases same
  intro write listed
  rcases List.mem_append.mp listed with value | marker
  · obtain ⟨entry, -, rfl⟩ := List.mem_map.mp value
    trivial
  · rw [List.mem_singleton.mp marker]
    trivial

variable {args : DriveRunArgs} {internal : RunInternalState} {tasks : List PlannedTask}

theorem sourcedActs_stepOpening (sourced : ∀ task ∈ tasks, task.Sourced ground) :
    SourcedActs ground (stepOpening args internal tasks) := by
  unfold stepOpening
  refine SourcedActs.append (SourcedActs.append (sourcedActs_tell _) ?_) ?_
  · intro act member target writes owner journals
    obtain ⟨checkpointId, -, rfl⟩ := List.mem_map.mp member
    cases journals
    intro write listed
    rw [List.mem_singleton.mp listed]
    intro task inStep
    obtain ⟨planned, listed, rfl⟩ := List.mem_map.mp inStep
    exact sourced planned listed
  · intro act member target writes owner journals
    obtain ⟨task, -, reported⟩ := List.mem_flatMap.mp member
    obtain ⟨obs, -, rfl⟩ := List.mem_map.mp reported
    cases journals

/-- Every record is a static one or was raised; behind a failed step all were
raised. -/
structure Accounted (raised : PendingPauseRecord → Prop)
    (frontier : FrontierEnvelope) : Prop where
  records : ∀ record ∈ frontier.pauses, record.staticAfter = true ∨
    record.staticBefore = true ∨ raised record
  failed : frontier.stepTasks ≠ [] → ∀ record ∈ frontier.pauses, raised record

variable {raised : PendingPauseRecord → Prop} {frontier : FrontierEnvelope}

theorem Accounted.mono (accounted : Accounted raised frontier)
    (implies : ∀ record, raised record → weak record) : Accounted weak frontier where
  records record member :=
    (accounted.records record member).imp_right fun known => known.imp_right (implies _)
  failed tasks record member := implies _ (accounted.failed tasks record member)

theorem accounted_unpaused (unpaused : frontier.pauses = []) :
    Accounted raised frontier := by
  constructor
  · rw [unpaused]
    simp
  · rw [unpaused]
    simp

theorem Accounted.encode
    (accounted : Accounted (fun record => raised record.throughJson) frontier) :
    Accounted raised (encodeFrontier frontier) where
  records record member := by
    obtain ⟨plain, listed, rfl⟩ := List.mem_map.mp member
    exact accounted.records plain listed
  failed tasks record member := by
    obtain ⟨plain, listed, rfl⟩ := List.mem_map.mp member
    refine accounted.failed (fun none => tasks ?_) plain listed
    show frontier.stepTasks.map StepTask.throughJson = []
    rw [none]
    rfl

def RaisedBy (outcomes : List TaskOutcome) (record : PendingPauseRecord) : Prop :=
  ∃ outcome ∈ outcomes, ∃ value, outcome.paused = some value ∧
    record = pauseRecordOf outcome value

theorem raisedBy_pauseRecords
    (member : record ∈ pauseRecords (orderedOutcomes tasks outcomes)) :
    RaisedBy outcomes record := by
  obtain ⟨outcome, listed, built⟩ := List.mem_filterMap.mp member
  obtain ⟨value, paused, rfl⟩ := Option.map_eq_some_iff.mp built
  exact ⟨outcome, mem_orderedOutcomes listed, value, paused, rfl⟩

variable {config : WorkflowConfig}

theorem accounted_stepPauses
    (member : record ∈ stepPauses config (orderedOutcomes tasks outcomes)) :
    record.staticAfter = true ∨ record.staticBefore = true ∨
      RaisedBy outcomes record := by
  unfold stepPauses at member
  split at member
  · obtain ⟨node, -, rfl⟩ := List.mem_map.mp member
    exact .inl rfl
  · exact .inr (.inr (raisedBy_pauseRecords member))

theorem dispatchTasks_plain (member : task ∈ dispatchTasks run seq dispatches) :
    task.source = .dispatch ∧ task.staticBefore = false := by
  induction dispatches generalizing seq with
  | nil => cases member
  | cons dispatch rest ih =>
    rcases List.mem_cons.mp member with rfl | later
    · exact ⟨rfl, rfl⟩
    · exact ih later

theorem outcomeOf_dispatches
    (member : task ∈
      (outcomeOf threadId abortReason run nextId aborted owner replay).pendingDispatches) :
    task.source = .dispatch ∧ task.staticBefore = false := by
  unfold outcomeOf at member
  split at member
  · exact dispatchTasks_plain member
  all_goals cases member

theorem dispatchesOf_plain
    (member : task ∈
      dispatchesOf (orderedOutcomes tasks (stepRun args env internal tasks).outcomes)) :
    task.source = .dispatch ∧ task.staticBefore = false := by
  obtain ⟨outcome, completed, dispatched⟩ := List.mem_flatMap.mp member
  obtain ⟨index, -, owner, seq, -, -, rfl⟩ :=
    mem_runTasks (mem_orderedOutcomes (List.mem_filter.mp completed).1)
  exact outcomeOf_dispatches dispatched

structure AccountedExit (ran : List TaskOutcome) (exit : Exit) : Prop where
  frontier : Accounted (RaisedBy ran) (exit.request.frontier.getD emptyFrontier)
  loops : ∀ checkpointId next, exit.next checkpointId = .loop next →
    next.pendingPauses = [] ∧ ∀ task ∈ next.pendingDynamicTasks,
      task.source = .dispatch ∧ task.staticBefore = false

variable {exit : Exit}

theorem Settled.accounted (unpaused : internal.pendingPauses = [])
    (settled : Settled args env internal tasks (stepRun args env begun tasks).outcomes (reports,
      exit)) :
    AccountedExit (stepRun args env begun tasks).outcomes exit := by
  cases settled with
  | failed =>
    refine ⟨⟨?_, ?_⟩, by rintro _ _ ⟨⟩⟩
    · exact fun record member => .inr (.inr (raisedBy_pauseRecords member))
    · exact fun _ record member => raisedBy_pauseRecords member
  | unmerged =>
    exact ⟨accounted_unpaused unpaused, by rintro _ _ ⟨⟩⟩
  | invalid =>
    exact ⟨accounted_unpaused rfl, by rintro _ _ ⟨⟩⟩
  | suspended applied first others clean merged valid pauses =>
    refine ⟨⟨?_, fun failed => absurd rfl failed⟩, by rintro _ _ ⟨⟩⟩
    intro record member
    have listed : record ∈ first :: others := member
    rw [← pauses] at listed
    exact accounted_stepPauses listed
  | running applied clean merged valid pauses =>
    refine ⟨accounted_unpaused unpaused, ?_⟩
    rintro checkpointId next ⟨⟩
    exact ⟨unpaused, fun task member => dispatchesOf_plain member⟩

variable {round : Round}

theorem Decided.accounted (decided : Decided args internal round)
    (unpaused : internal.pendingPauses = []) (finished : round.finish = .ok exit) :
    AccountedExit (executions (actsObs round.acts)) exit := by
  cases decided with
  | aborted =>
    cases finished
    exact ⟨accounted_unpaused unpaused, by rintro _ _ ⟨⟩⟩
  | capped =>
    cases finished
    exact ⟨accounted_unpaused unpaused, by rintro _ _ ⟨⟩⟩
  | unplanned => cases finished
  | deadEnd =>
    cases finished
    exact ⟨accounted_unpaused rfl, by rintro _ _ ⟨⟩⟩
  | gated =>
    cases finished
    refine ⟨⟨?_, fun failed => absurd rfl failed⟩, by rintro _ _ ⟨⟩⟩
    intro record member
    rw [List.mem_singleton.mp member]
    exact .inr (.inl rfl)
  | completed =>
    cases finished
    exact ⟨accounted_unpaused rfl, by rintro _ _ ⟨⟩⟩
  | uncloneable =>
    cases finished
  | stepped plan tasks reports exit live below planned result nonempty cloned settled =>
    cases finished
    rw [executions_stepActs (executions_settled settled).1]
    refine Settled.accounted ?_ settled
    exact unpaused

/-- A task of a gated node is let through as a resume only. -/
def Admitted (config : WorkflowConfig) (task : PlannedTask) : Prop :=
  task.nodeName ∈ config.pauseAt.before → task.source = .resume

def Obs.Sourced (ground : Ground) (config : WorkflowConfig) : Obs → Prop
  | .planned _ tasks => ∀ task ∈ tasks, task.Sourced ground
  | .ran outcome => outcome.task.Sourced ground ∧ Admitted config outcome.task
  | .event _ => True

/-- The gate lets through what it does not hold. -/
theorem admitted_of_ungated (sourced : task.Sourced ground)
    (ungated : isGated config task = false) : Admitted config task := by
  intro listed
  have passes : ¬ task.source = .resume → task.staticBefore = true := by
    simpa [isGated, listed] using ungated
  by_cases resumed : task.source = .resume
  · exact resumed
  · exact sourced.1 (passes resumed)

theorem planned_sourced
    (pending : ∀ task ∈ internal.pendingDynamicTasks, task.Sourced ground)
    (planned : planTasks config internal = .ok plan) :
    ∀ task ∈ plan.planned, task.Sourced ground := by
  obtain ⟨-, added, whole, -, -, edges⟩ := planTasks_planned planned
  intro task member
  rw [whole] at member
  rcases List.mem_append.mp member with restored | reached
  · exact pending task restored
  · rw [edges task reached]
    exact PlannedTask.sourced_of_plain (by simp [edgeTask]) rfl

variable {obs : Obs}

theorem reportIf_event (member : obs ∈ reportIf wanted event) :
    ∃ event, obs = .event event := by
  unfold reportIf at member
  split at member
  · exact ⟨event, List.mem_singleton.mp member⟩
  · cases member

variable {checkpointId : Option Id}

theorem checkpointReport_event (member : obs ∈ args.checkpointReport internal checkpointId) :
    ∃ event, obs = .event event := by
  cases checkpointId with
  | none => cases member
  | some => exact reportIf_event member

theorem stepReport_event (member : obs ∈ args.stepReport internal checkpointId) :
    ∃ event, obs = .event event := by
  rcases List.mem_append.mp member with ended | stored
  · exact reportIf_event ended
  · exact checkpointReport_event stored

theorem Decided.report_event (decided : Decided args internal round)
    (finished : round.finish = .ok exit) (member : obs ∈ exit.report checkpointId) :
    ∃ event, obs = .event event := by
  cases decided with
  | aborted => cases finished; cases member
  | capped => cases finished; cases member
  | unplanned => cases finished
  | deadEnd =>
    cases finished
    exact checkpointReport_event member
  | gated =>
    cases finished
    rcases List.mem_append.mp member with stored | suspended
    · exact checkpointReport_event stored
    · exact ⟨_, List.mem_singleton.mp suspended⟩
  | completed =>
    cases finished
    rcases List.mem_append.mp member with stored | ended
    · exact checkpointReport_event stored
    · exact ⟨_, List.mem_singleton.mp ended⟩
  | uncloneable =>
    cases finished
  | stepped plan tasks reports exit live below planned result nonempty cloned settled =>
    cases finished
    cases settled with
    | failed => exact checkpointReport_event member
    | unmerged => exact checkpointReport_event member
    | invalid =>
      exact checkpointReport_event member
    | suspended =>
      rcases List.mem_append.mp member with stored | suspended
      · exact stepReport_event stored
      · exact ⟨_, List.mem_singleton.mp suspended⟩
    | running => exact stepReport_event member

theorem mem_executions {past : List Obs} {outcome : TaskOutcome} :
    outcome ∈ executions past ↔ .ran outcome ∈ past := by
  rw [executions, List.mem_filterMap]
  constructor
  · rintro ⟨obs, member, read⟩
    cases obs with
    | ran =>
      cases read
      exact member
    | event => cases read
    | planned => cases read
  · exact fun member => ⟨_, member, rfl⟩

theorem inStep_ran (inside : obs.inStep = true) :
    (∃ outcome, obs = .ran outcome) ∨ ∃ event, obs = .event event := by
  cases obs with
  | ran outcome => exact .inl ⟨outcome, rfl⟩
  | event event => exact .inr ⟨event, rfl⟩
  | planned => cases inside

/-- What a pass plans and runs is sourced, and what it runs was let through. -/
theorem Decided.sourced (decided : Decided args internal round)
    (pending : ∀ task ∈ internal.pendingDynamicTasks, task.Sourced ground) :
    SourcedActs ground round.acts ∧
      ∀ obs ∈ actsObs round.acts, obs.Sourced ground args.config := by
  have silent : SourcedActs ground [] := by
    intro act member
    cases member
  have inStep : actsObs round.acts = [] ∨
      ∀ obs ∈ (actsObs round.acts).tail, obs.inStep = true := by
    rcases decided.acts_inStep with none | ⟨tasks, rest, shape, inside⟩
    · exact .inl none
    · exact .inr (by rwa [shape])
  have plans : ∀ {plan}, planTasks args.config internal = .ok plan →
      ∀ obs ∈ actsObs [.tell (.planned internal plan.planned)],
        obs.Sourced ground args.config := by
    intro plan planned obs member
    rw [List.mem_singleton.mp member]
    exact planned_sourced pending planned
  cases decided with
  | aborted => exact ⟨silent, by simp⟩
  | capped => exact ⟨silent, by simp⟩
  | unplanned => exact ⟨silent, by simp⟩
  | deadEnd plan nodes live below planned =>
    exact ⟨sourcedActs_tell [_], plans planned⟩
  | gated plan gated rest live below planned =>
    exact ⟨sourcedActs_tell [_], plans planned⟩
  | completed plan live below planned =>
    exact ⟨sourcedActs_tell [_], plans planned⟩
  | uncloneable plan tasks live below planned =>
    refine ⟨(sourcedActs_tell [_]).append (sourcedActs_tell _), ?_⟩
    intro obs member
    rw [actsObs_told, actsObs_tell] at member
    rcases List.mem_cons.mp member with rfl | started
    · exact planned_sourced pending planned
    · obtain ⟨event, rfl⟩ := reportIf_event started
      trivial
  | stepped plan tasks reports exit live below planned result nonempty cloned settled =>
    have sourced := planned_sourced pending planned
    obtain ⟨same, ungated⟩ := planTasks_tasks planned result nonempty
    subst same
    refine ⟨(sourcedActs_tell [_]).append (((sourcedActs_stepOpening
      sourced).append (sourcedActs_runTasks _ _ _ _ _ _)).append
        (sourcedActs_tell _)), ?_⟩
    intro obs member
    have ran := @executions_stepActs args (args.env internal.stepsThisInvocation)
      internal (internal.emptied plan.nextId) plan.planned plan.planned reports
      (executions_settled settled).1
    rw [actsObs_told] at member inStep
    rcases List.mem_cons.mp member with rfl | later
    · exact sourced
    · rcases inStep_ran (inStep.resolve_left (by simp) obs later) with
        ⟨outcome, rfl⟩ | ⟨event, rfl⟩
      · have settledHere : outcome ∈ (stepRun args (args.env
            internal.stepsThisInvocation) (internal.emptied plan.nextId)
            plan.planned).outcomes := by
          rw [← ran, mem_executions, actsObs_told]
          exact member
        have inPlan := (mem_stepRun settledHere).2
        exact ⟨sourced _ inPlan, admitted_of_ungated (sourced _ inPlan)
          (ungated _ inPlan)⟩
      · trivial

end Graphorin.Workflow
