import Graphorin.Workflow.Fresh
import Graphorin.Workflow.History
import Graphorin.Workflow.Journal

namespace Graphorin.Workflow

open Graphorin.Lib
open Graphorin.Js

/-! Ids stay fresh along every history: in the run state of each pass and in
everything the store keeps. -/

variable {run next : Nat}

variable {id : Id}

theorem Id.Older.nextRun (older : id.Older run next) : id.Older (run + 1) 0 := by
  rcases older with earlier | ⟨same, -⟩
  · exact .inl (by omega)
  · exact .inl (by omega)

def FrontierEnvelope.origins (frontier : FrontierEnvelope) : List Id :=
  frontier.dynamic.map DynamicEntry.origin ++
    (frontier.pauses.filter fun record => !record.staticAfter).map
      PendingPauseRecord.origin

structure FreshFrontier (run next : Nat) (frontier : FrontierEnvelope) :
    Prop where
  origins : frontier.origins.Nodup
  known : ∀ origin ∈ frontier.origins, origin.Older run next
  steps : (frontier.stepTasks.map StepTask.origin).Nodup
  stepsKnown : ∀ task ∈ frontier.stepTasks, task.origin.Older run next

structure FreshRow (run next : Nat) (row : PendingWrite) : Prop where
  zero : row.taskId = .stepIntent → row.index = 0
  origins : ∀ stepNumber tasks, row.value = .intent stepNumber tasks →
    (tasks.map StepIntentTask.origin).Nodup
  known : ∀ stepNumber tasks, row.value = .intent stepNumber tasks →
    ∀ task ∈ tasks, task.origin.Older run next

structure FreshTuple (run next : Nat) (tuple : CheckpointTuple) : Prop where
  id : tuple.checkpoint.id.Older run next
  frontier : FreshFrontier run next (readFrontier tuple.metadata)
  rows : ∀ row ∈ tuple.pendingWrites, FreshRow run next row

def FreshStore (run next : Nat) (store : CheckpointStore) : Prop :=
  ∀ tuple ∈ store, FreshTuple run next tuple

def Behind (run next laterRun laterNext : Nat) : Prop :=
  ∀ id : Id, id.Older run next → id.Older laterRun laterNext

variable {laterRun laterNext : Nat}

theorem FreshFrontier.mono {frontier : FrontierEnvelope} (fresh : FreshFrontier run next frontier)
    (behind : Behind run next laterRun laterNext) :
    FreshFrontier laterRun laterNext frontier :=
  ⟨fresh.origins, fun origin member => behind _ (fresh.known origin member),
    fresh.steps, fun task member => behind _ (fresh.stepsKnown task member)⟩

theorem FreshRow.mono (fresh : FreshRow run next row)
    (behind : Behind run next laterRun laterNext) :
    FreshRow laterRun laterNext row :=
  ⟨fresh.zero, fresh.origins, fun stepNumber tasks intent task member =>
    behind _ (fresh.known stepNumber tasks intent task member)⟩

variable {store : CheckpointStore}

theorem FreshStore.mono (fresh : FreshStore run next store)
    (behind : Behind run next laterRun laterNext) :
    FreshStore laterRun laterNext store := by
  intro tuple member
  obtain ⟨id, frontier, rows⟩ := fresh tuple member
  exact ⟨behind _ id, frontier.mono behind, fun row listed =>
    (rows row listed).mono behind⟩

theorem FreshStore.older (fresh : FreshStore run next store) :
    store.Every fun checkpoint _ => checkpoint.id.Older run next :=
  fun tuple member => (fresh tuple member).id

theorem behind_grows (grows : next ≤ later) :
    Behind run next run later := fun _ older => older.mono grows

theorem behind_nextRun (run next : Nat) : Behind run next (run + 1) 0 :=
  fun _ older => older.nextRun

theorem FreshStore.insert {run next : Nat} {store : CheckpointStore}
    (fresh : FreshStore run next store) {checkpoint : Checkpoint}
    {metadata : CheckpointMetadata} (id : checkpoint.id.Older run next)
    (frontier : FreshFrontier run next (readFrontier metadata)) :
    FreshStore run next (store.insert checkpoint metadata) := by
  unfold CheckpointStore.insert
  split
  · intro tuple member
    obtain ⟨old, stored, rfl⟩ := List.mem_map.mp member
    split
    · exact ⟨id, frontier, (fresh old stored).rows⟩
    · exact fresh old stored
  · intro tuple member
    rcases List.mem_append.mp member with stored | added
    · exact fresh tuple stored
    · rw [List.mem_singleton.mp added]
      exact ⟨id, frontier, by simp⟩

/-- Rows are fresh under the owner `putWrites` files them under. -/
def FreshWrites (run next : Nat) (writes : List PendingWrite)
    (owner : TaskId) : Prop :=
  ∀ write ∈ writes, FreshRow run next { write with taskId := owner }

variable {writes : List PendingWrite}

variable {owner : TaskId}

theorem FreshWrites.rows {rows : List PendingWrite}
    (fresh : FreshWrites run next writes owner)
    (before : ∀ row ∈ rows, FreshRow run next row) :
    ∀ row ∈ CheckpointStore.writeRows rows writes owner, FreshRow run next row := by
  unfold CheckpointStore.writeRows
  induction writes generalizing rows with
  | nil => exact before
  | cons write _ ih =>
    apply ih (fun other member => fresh other (List.mem_cons_of_mem _ member))
    intro row member
    rcases List.mem_append.mp member with kept | added
    · exact before row (List.mem_filter.mp kept).1
    · rw [List.mem_singleton.mp added]
      exact fresh write List.mem_cons_self

theorem FreshStore.addWrites (fresh : FreshStore run next store)
    {threadId namespaceName : String} {checkpointId : Id}
    (added : FreshWrites run next writes owner) : FreshStore run next
      (store.addWrites threadId namespaceName checkpointId writes owner) := by
  intro tuple member
  obtain ⟨old, stored, rfl⟩ := List.mem_map.mp member
  obtain ⟨id, frontier, rows⟩ := fresh old stored
  unfold CheckpointStore.writeTuple
  split
  · exact ⟨id, frontier, added.rows rows⟩
  · exact ⟨id, frontier, rows⟩

def FreshActs (run next : Nat) (acts : List Act) : Prop :=
  ∀ act ∈ acts, ∀ target writes owner, act = .journal target writes owner →
    FreshWrites run next writes owner

theorem FreshStore.acts (fresh : FreshStore run next store) (args : DriveRunArgs)
    {acts : List Act} (added : FreshActs run next acts) :
    FreshStore run next (actsStore args store acts) := by
  induction acts generalizing store with
  | nil => exact fresh
  | cons act rest ih =>
    have later : FreshActs run next rest := fun other member =>
      added other (List.mem_cons_of_mem _ member)
    refine ih ?_ later
    cases act with
    | tell => exact fresh
    | journal target writes owner =>
      exact fresh.addWrites (added _ List.mem_cons_self target writes
        owner rfl)

theorem freshWrites_values (plain : ∀ write ∈ writes, ∃ value, write.value = .value value) :
    FreshWrites run next writes (.task id) := by
  intro write member
  obtain ⟨value, shape⟩ := plain write member
  refine ⟨by simp, ?_, ?_⟩
  · intro stepNumber tasks intent
    simp [shape] at intent
  · intro stepNumber tasks intent
    simp [shape] at intent

theorem FreshActs.append (first : FreshActs run next before)
    (second : FreshActs run next after) : FreshActs run next (before ++ after) :=
  List.forall_mem_append.mpr ⟨first, second⟩

theorem FreshActs.mono (fresh : FreshActs run next acts)
    (behind : Behind run next laterRun laterNext) :
    FreshActs laterRun laterNext acts :=
  fun act member target writes owner journals write listed =>
    (fresh act member target writes owner journals write listed).mono behind

theorem freshActs_tell (run next : Nat) (observations : List Obs) :
    FreshActs run next (observations.map Act.tell) := by
  intro act member target writes owner journals
  obtain ⟨obs, -, rfl⟩ := List.mem_map.mp member
  cases journals

theorem freshActs_nil (run next : Nat) : FreshActs run next [] := by
  intro act member
  cases member

theorem freshActs_runTasks (run next : Nat) (args : DriveRunArgs)
    (internal : RunInternalState) (env : RoundEnv) (tasks : List PlannedTask)
    (order : List Nat) (nextId : Nat) : FreshActs run next
      (runTasks args internal env tasks order nextId).acts := by
  rintro act member target writes owner rfl
  rcases runTasks_acts member with ⟨_, ⟨⟩⟩ | ⟨outcome, checkpointId, -, same⟩
  cases same
  apply freshWrites_values
  intro write listed
  rcases List.mem_append.mp listed with value | marker
  · obtain ⟨entry, -, rfl⟩ := List.mem_map.mp value
    exact ⟨_, rfl⟩
  · rw [List.mem_singleton.mp marker]
    exact ⟨_, rfl⟩

variable {args : DriveRunArgs} {internal : RunInternalState}

theorem freshActs_stepOpening (fresh : FreshTasks run next tasks) :
    FreshActs run next (stepOpening args internal tasks) := by
  unfold stepOpening
  refine FreshActs.append (FreshActs.append (freshActs_tell _ _ _) ?_) ?_
  · intro act member target writes owner journals
    obtain ⟨checkpointId, -, rfl⟩ := List.mem_map.mp member
    cases journals
    intro write listed
    rw [List.mem_singleton.mp listed]
    refine ⟨fun _ => rfl, ?_, ?_⟩
    · rintro stepNumber intents ⟨⟩
      rw [List.map_map]
      exact fresh.origins
    · rintro stepNumber intents ⟨⟩ task listed
      obtain ⟨planned, inStep, rfl⟩ := List.mem_map.mp listed
      exact fresh.known planned inStep
  · intro act member target writes owner journals
    obtain ⟨task, -, reported⟩ := List.mem_flatMap.mp member
    obtain ⟨obs, -, rfl⟩ := List.mem_map.mp reported
    cases journals

theorem frontier_origins_encode (frontier : FrontierEnvelope) :
    (encodeFrontier frontier).origins = frontier.origins := by
  unfold FrontierEnvelope.origins
  rw [encodeFrontier_dynamic]
  congr 1
  show ((frontier.pauses.map PendingPauseRecord.throughJson).filter _).map _ = _
  rw [List.filter_map, List.map_map]
  rfl

theorem FreshFrontier.encode {frontier : FrontierEnvelope}
    (fresh : FreshFrontier run next frontier) :
    FreshFrontier run next (encodeFrontier frontier) := by
  refine ⟨?_, ?_, ?_, ?_⟩
  · rw [frontier_origins_encode]
    exact fresh.origins
  · rw [frontier_origins_encode]
    exact fresh.known
  · show ((frontier.stepTasks.map StepTask.throughJson).map
      StepTask.origin).Nodup
    rw [List.map_map]
    exact fresh.steps
  · intro task member
    obtain ⟨plain, listed, rfl⟩ := List.mem_map.mp member
    exact fresh.stepsKnown plain listed

theorem freshFrontier_empty (run next : Nat) :
    FreshFrontier run next emptyFrontier := by
  refine ⟨List.nodup_nil, ?_, List.nodup_nil, ?_⟩
  · intro origin member
    cases member
  · intro task member
    cases member

variable {config : WorkflowConfig}

/-- The frontier of a run state restores to its pending tasks and pauses. -/
theorem freshFrontier_internal
    (origins : (internal.pendingDynamicTasks.map PlannedTask.origin ++
      (internal.pendingPauses.filter fun record => !record.staticAfter).map
        PendingPauseRecord.origin).Nodup)
    (known : ∀ origin ∈ internal.pendingDynamicTasks.map PlannedTask.origin ++
      (internal.pendingPauses.filter fun record => !record.staticAfter).map
        PendingPauseRecord.origin, origin.Older run next) :
    FreshFrontier run next (frontierFromInternal config internal) := by
  have same : (frontierFromInternal config internal).origins =
      internal.pendingDynamicTasks.map PlannedTask.origin ++
        (internal.pendingPauses.filter fun record => !record.staticAfter).map
          PendingPauseRecord.origin := by
    unfold FrontierEnvelope.origins
    rw [frontierFromInternal_dynamic]
    rfl
  refine ⟨by rw [same]; exact origins, by rw [same]; exact known,
    List.nodup_nil, ?_⟩
  intro task member
  cases member

theorem Fresh.frontier (fresh : Fresh internal) :
    FreshFrontier internal.run internal.nextId
      (frontierFromInternal config internal) := by
  apply freshFrontier_internal
  · rw [fresh.unpaused]
    simpa using fresh.origins
  · rw [fresh.unpaused]
    intro origin member
    simp only [List.filter_nil, List.map_nil, List.append_nil] at member
    obtain ⟨task, listed, rfl⟩ := List.mem_map.mp member
    exact fresh.known task listed

structure FreshExit (internal : RunInternalState) (exit : Exit) : Prop where
  run : exit.request.internal.run = internal.run
  grows : internal.nextId ≤ exit.request.internal.nextId
  frontier : FreshFrontier internal.run exit.request.internal.nextId
    (exit.request.frontier.getD emptyFrontier)
  owned : ∀ group ∈ exit.request.pendingWritesByTask, ∃ id, group.1 = .task id
  loops : ∀ checkpointId next, exit.next checkpointId = .loop next →
    Fresh next ∧ next.run = internal.run ∧
      next.nextId = exit.request.internal.nextId + 1

theorem Fresh.abortExit (fresh : Fresh internal) :
    FreshExit internal (abortExit args internal)  where
  run := rfl
  grows := Nat.le_refl _
  frontier := fresh.frontier
  owned := by rintro group ⟨⟩
  loops := by rintro checkpointId next ⟨⟩

theorem Fresh.capExit (fresh : Fresh internal) (error : WorkflowError) :
    FreshExit internal (capExit args internal error) where
  run := rfl
  grows := Nat.le_refl _
  frontier := fresh.frontier
  owned := by rintro group ⟨⟩
  loops := by rintro checkpointId next ⟨⟩

theorem Fresh.planned_le (planned : planTasks config internal = .ok plan) :
    internal.nextId ≤ plan.nextId := by
  obtain ⟨-, added, -, drawn, -⟩ := planTasks_planned planned
  omega

theorem Fresh.gateExit (fresh : Fresh internal)
    (planned : planTasks args.config internal = .ok plan)
    (result : plan.result = .suspendBefore gated rest) : FreshExit internal
      (gateExit args (internal.emptied plan.nextId) gated rest) where
  run := rfl
  grows := Fresh.planned_le planned
  frontier := by
    have tasks := fresh.planned planned
    obtain ⟨before, after, whole, kept, -, -⟩ := planTasks_gated planned result
    have rearranged : (rest.map PlannedTask.origin ++ [gated.origin]).Perm
        (plan.planned.map PlannedTask.origin) := by
      rw [whole, kept, List.map_append, List.map_append, List.map_cons,
        List.append_assoc]
      exact List.Perm.append_left _ (List.perm_append_singleton _ _)
    apply freshFrontier_internal
    · exact (rearranged.nodup_iff).mpr tasks.origins
    · intro origin member
      obtain ⟨task, listed, rfl⟩ :=
        List.mem_map.mp (rearranged.mem_iff.mp member)
      exact tasks.known task listed
  owned := by rintro group ⟨⟩
  loops := by rintro checkpointId next ⟨⟩

theorem pauseRecords_origins (outcomes : List TaskOutcome) :
    ((pauseRecords outcomes).map PendingPauseRecord.origin).Sublist
      ((outcomes.map TaskOutcome.task).map PlannedTask.origin) := by
  unfold pauseRecords
  induction outcomes with
  | nil => exact List.Sublist.refl _
  | cons outcome _ ih =>
    cases paused : outcome.paused with
    | none =>
      simp only [List.filterMap_cons, paused, Option.map_none, List.map_cons]
      exact ih.cons _
    | some =>
      simp only [List.filterMap_cons, paused, Option.map_some, List.map_cons]
      exact ih.cons_cons _

theorem stepPauses_origins (config : WorkflowConfig) (ordered : List TaskOutcome) :
    (((stepPauses config ordered).filter fun record =>
      !record.staticAfter).map PendingPauseRecord.origin).Sublist
        ((ordered.map TaskOutcome.task).map PlannedTask.origin) := by
  unfold stepPauses
  split
  · have static : ∀ record ∈ staticAfterOf config (completedNodesOf ordered),
        (!record.staticAfter) = false := by
      intro record member
      obtain ⟨node, -, rfl⟩ := List.mem_map.mp member
      rfl
    rw [List.filter_eq_nil_iff.mpr (by simpa using static)]
    exact List.nil_sublist _
  · exact (List.Sublist.map _ List.filter_sublist).trans
      (pauseRecords_origins ordered)

theorem groupWritesByTask_owned {writes : List ChannelWrite}
    (owned : ∀ write ∈ writes, ∃ id, write.taskId = .task id) :
    ∀ group ∈ groupWritesByTask writes, ∃ id, group.1 = .task id := by
  intro group member
  have key : group.1 ∈ (groupOn ChannelWrite.taskId writes).keys := List.mem_map_of_mem member
  obtain ⟨write, there, same⟩ := mem_groupOn_keys.mp key
  exact same ▸ owned write there

theorem writesOf_owned (consistent : ∀ outcome ∈ outcomes, outcome.Consistent) :
    ∀ write ∈ writesOf outcomes, ∃ id, write.taskId = .task id := by
  intro write member
  obtain ⟨outcome, completed, written⟩ := List.mem_flatMap.mp member
  have owner := (consistent outcome (List.mem_filter.mp completed).1).owned
  exact ⟨_, (owner.owner write written).2⟩

section Settled

variable {args : DriveRunArgs} {internal : RunInternalState} {plan : Plan}
variable {tasks : List PlannedTask} {env : RoundEnv}

theorem stepInternal_grows (nextId : Nat) :
    nextId ≤ (stepInternal args env (internal.emptied nextId) tasks).nextId := by
  obtain ⟨-, ran, -⟩ := runTasks_dispatches args (internal.emptied nextId) env
    tasks (env.settleOrder tasks.length) nextId
  show _ ≤ (runTasks _ _ _ _ _ _).nextId
  change (runTasks args (internal.emptied nextId) env tasks
    (env.settleOrder tasks.length) nextId).nextId = _ at ran
  show nextId ≤ (runTasks args (internal.emptied nextId) env tasks
    (env.settleOrder tasks.length) nextId).nextId
  omega

theorem Settled.fresh {reports : List Obs} {exit : Exit} (fresh : Fresh internal)
    (planned : planTasks args.config internal = .ok plan)
    (result : plan.result = .tasks tasks) (nonempty : tasks ≠ [])
    (settled : Settled args env
      (stepInternal args env (internal.emptied plan.nextId) tasks) tasks
      (stepRun args env (internal.emptied plan.nextId) tasks).outcomes
      (reports, exit)) : FreshExit internal exit := by
  let outcomes := (stepRun args env (internal.emptied plan.nextId) tasks).outcomes
  let ordered := orderedOutcomes tasks outcomes
  let nextId := (stepInternal args env (internal.emptied plan.nextId) tasks).nextId
  have started : FreshTasks internal.run plan.nextId tasks := by
    rw [(planTasks_tasks planned result nonempty).1]
    exact fresh.planned planned
  have drawn := Fresh.planned_le planned
  have grows : plan.nextId ≤ nextId := stepInternal_grows _
  have dispatched : FreshDispatches internal.run plan.nextId nextId (dispatchesOf ordered) :=
    @stepRun_dispatches args env (internal.emptied plan.nextId) tasks started.ids
  have origins : ((dispatchesOf ordered).map PlannedTask.origin).Nodup := by
    rw [List.map_congr_left dispatched.own]
    exact dispatched.ids
  have known : ∀ task ∈ dispatchesOf ordered, task.origin.Older internal.run nextId := by
    intro task listed
    obtain ⟨sameRun, -, below⟩ := dispatched.drawn task listed
    rw [dispatched.own task listed]
    exact .inr ⟨sameRun, below⟩
  have inStep := orderedOutcomes_tasks started.ids
    (fun outcome member => (@mem_stepRun args env
      (internal.emptied plan.nextId) tasks outcome member).2)
  have older : ∀ origin ∈ tasks.map PlannedTask.origin,
      origin.Older internal.run plan.nextId := by
    intro origin member
    obtain ⟨task, listed, rfl⟩ := List.mem_map.mp member
    exact started.known task listed
  have pausing := (stepPauses_origins args.config ordered).trans (inStep.map _)
  cases settled with
  | failed =>
    have raised := (List.Sublist.map PendingPauseRecord.origin
      (@List.filter_sublist _ (!·.staticAfter) _)).trans
        ((pauseRecords_origins ordered).trans (inStep.map _))
    refine ⟨rfl, Nat.le_trans drawn grows, ⟨?_, ?_, ?_, ?_⟩, ?_, by rintro _ _ ⟨⟩⟩
    · show ([] ++ _ : List Id).Nodup
      rw [List.nil_append]
      exact raised.nodup started.origins
    · intro origin member
      change origin ∈ [] ++ _ at member
      rw [List.nil_append] at member
      exact (older origin (raised.subset member)).mono grows
    · show ((stepTasksOf tasks _).map StepTask.origin).Nodup
      rw [stepTasksOf, List.map_map]
      exact started.origins
    · intro task member
      obtain ⟨planned, listed, rfl⟩ := List.mem_map.mp member
      exact (started.known planned listed).mono grows
    · exact groupWritesByTask_owned (writesOf_owned fun outcome member =>
        (mem_stepRun (mem_orderedOutcomes member)).1)
  | unmerged =>
    refine ⟨rfl, Nat.le_trans drawn grows, ?_, by rintro _ ⟨⟩, by rintro _ _ ⟨⟩⟩
    apply freshFrontier_internal
    · show ([] ++ (internal.pendingPauses.filter _).map _ : List Id).Nodup
      rw [fresh.unpaused]
      exact List.nodup_nil
    · intro origin member
      change origin ∈ [] ++ (internal.pendingPauses.filter _).map _ at member
      rw [fresh.unpaused] at member
      cases member
  | invalid =>
    exact ⟨rfl, Nat.le_trans drawn grows, freshFrontier_empty _ _, by rintro _ ⟨⟩,
      by rintro _ _ ⟨⟩⟩
  | suspended applied first others clean merged valid pauses =>
    refine ⟨rfl, Nat.le_trans drawn grows, ?_, by rintro _ ⟨⟩, by rintro _ _ ⟨⟩⟩
    apply freshFrontier_internal
    · show ((dispatchesOf _).map PlannedTask.origin ++
        ((first :: others).filter _).map _).Nodup
      rw [← pauses, List.nodup_append]
      refine ⟨origins, pausing.nodup started.origins, ?_⟩
      rintro origin isDispatch other isPause rfl
      obtain ⟨task, member, rfl⟩ := List.mem_map.mp isDispatch
      exact dispatched.origin_ne member (older _ (pausing.subset isPause)) rfl
    · intro origin member
      change origin ∈ (dispatchesOf _).map PlannedTask.origin ++
        ((first :: others).filter _).map _ at member
      rw [← pauses] at member
      rcases List.mem_append.mp member with isDispatch | isPause
      · obtain ⟨task, listed, rfl⟩ := List.mem_map.mp isDispatch
        exact known task listed
      · exact (older origin (pausing.subset isPause)).mono grows
  | running applied clean merged valid pauses =>
    refine ⟨rfl, Nat.le_trans drawn grows, ?_, by rintro _ ⟨⟩, ?_⟩
    · apply freshFrontier_internal
      · show ((dispatchesOf _).map PlannedTask.origin ++
          (internal.pendingPauses.filter _).map _).Nodup
        rw [fresh.unpaused]
        simpa using origins
      · intro origin member
        change origin ∈ (dispatchesOf _).map PlannedTask.origin ++
          (internal.pendingPauses.filter _).map _ at member
        rw [fresh.unpaused] at member
        simp only [List.filter_nil, List.map_nil, List.append_nil] at member
        obtain ⟨task, listed, rfl⟩ := List.mem_map.mp member
        exact known task listed
    · rintro checkpointId next ⟨⟩
      refine ⟨⟨dispatched.ids, ?_, origins, ?_, fresh.unpaused⟩, rfl, rfl⟩
      · intro task listed
        obtain ⟨sameRun, -, below⟩ := dispatched.drawn task listed
        exact ⟨sameRun, Nat.lt_succ_of_lt below⟩
      · intro task listed
        exact (known task listed).mono (Nat.le_succ _)

end Settled

variable {args : DriveRunArgs} {internal : RunInternalState} {round : Round}

theorem Decided.drawn (decided : Decided args internal round)
    (finished : round.finish = .ok exit) :
    internal.nextId ≤ exit.request.internal.nextId := by
  cases decided with
  | aborted => cases finished; exact Nat.le_refl _
  | capped => cases finished; exact Nat.le_refl _
  | unplanned => cases finished
  | deadEnd plan nodes live below planned =>
    cases finished; exact Fresh.planned_le planned
  | gated plan gated rest live below planned =>
    cases finished; exact Fresh.planned_le planned
  | completed plan live below planned =>
    cases finished; exact Fresh.planned_le planned
  | uncloneable =>
    cases finished
  | stepped plan tasks reports exit live below planned result nonempty cloned settled =>
    cases finished
    have grows : internal.nextId ≤ (stepInternal args
        (args.env internal.stepsThisInvocation)
        (internal.emptied plan.nextId) tasks).nextId :=
      Nat.le_trans (Fresh.planned_le planned) (stepInternal_grows _)
    cases settled <;> exact grows

theorem Decided.fresh (decided : Decided args internal round) (fresh : Fresh internal)
    (finished : round.finish = .ok exit) : FreshExit internal exit := by
  cases decided with
  | aborted => cases finished; exact fresh.abortExit
  | capped error => cases finished; exact fresh.capExit error
  | unplanned => cases finished
  | deadEnd plan nodes live below planned =>
    cases finished
    exact ⟨rfl, Fresh.planned_le planned, freshFrontier_empty _ _,
      by rintro _ ⟨⟩, by rintro _ _ ⟨⟩⟩
  | gated plan gated rest live below planned result =>
    cases finished
    exact fresh.gateExit planned result
  | completed plan live below planned =>
    cases finished
    exact ⟨rfl, Fresh.planned_le planned, freshFrontier_empty _ _,
      by rintro _ ⟨⟩, by rintro _ _ ⟨⟩⟩
  | uncloneable =>
    cases finished
  | stepped plan tasks reports exit live below planned result nonempty cloned settled =>
    cases finished
    exact settled.fresh fresh planned result nonempty

/-- The rows a pass journals are as old as its plan. -/
theorem Decided.freshActs (decided : Decided args internal round) (fresh : Fresh internal) :
    FreshActs (internal.run + 1) 0 round.acts ∧ ∀ exit, round.finish = .ok exit →
        FreshActs internal.run exit.request.internal.nextId round.acts := by
  have told : ∀ run next (observations : List Obs),
      FreshActs run next (observations.map Act.tell) := freshActs_tell
  cases decided with
  | aborted =>
    exact ⟨freshActs_nil _ _, fun _ _ => freshActs_nil _ _⟩
  | capped =>
    exact ⟨freshActs_nil _ _, fun _ _ => freshActs_nil _ _⟩
  | unplanned =>
    exact ⟨freshActs_nil _ _, fun _ _ => freshActs_nil _ _⟩
  | deadEnd =>
    exact ⟨told _ _ [_], fun _ _ => told _ _ [_]⟩
  | gated =>
    exact ⟨told _ _ [_], fun _ _ => told _ _ [_]⟩
  | completed =>
    exact ⟨told _ _ [_], fun _ _ => told _ _ [_]⟩
  | uncloneable =>
    exact ⟨(told _ _ [_]).append (told _ _ _), fun _ finished => by
      cases finished⟩
  | stepped plan tasks reports exit live below planned result nonempty cloned settled =>
    have started : FreshTasks internal.run plan.nextId tasks := by
      rw [(planTasks_tasks planned result nonempty).1]
      exact fresh.planned planned
    have acted : FreshActs internal.run plan.nextId
        (.tell (.planned internal plan.planned) ::
          (stepOpening args (internal.emptied plan.nextId) tasks ++
            (stepRun args (args.env internal.stepsThisInvocation)
              (internal.emptied plan.nextId) tasks).acts ++
            reports.map Act.tell)) :=
      (told _ _ [_]).append
        (((freshActs_stepOpening started).append
          (freshActs_runTasks _ _ _ _ _ _ _ _)).append (told _ _ _))
    refine ⟨acted.mono (behind_nextRun _ _), ?_⟩
    rintro _ ⟨⟩
    apply acted.mono
    have drawn : exit.request.internal.nextId = (stepInternal args
        (args.env internal.stepsThisInvocation)
        (internal.emptied plan.nextId) tasks).nextId := by
      cases settled <;> rfl
    rw [drawn]
    exact behind_grows (stepInternal_grows _)

structure FreshTop (run : Nat) (internal : RunInternalState)
    (store : CheckpointStore) : Prop where
  own : internal.run = run
  tasks : Fresh internal
  stored : FreshStore run internal.nextId store

theorem FreshStore.putAll (fresh : FreshStore run next store) (args : DriveRunArgs)
    (checkpointId : Id) (owned : ∀ group ∈ groups, ∃ id, group.1 = .task id) :
    FreshStore run next (store.putAll args checkpointId groups) := by
  unfold CheckpointStore.putAll
  induction groups generalizing store with
  | nil => exact fresh
  | cons group _ ih =>
    refine ih ?_ fun other member => owned other
      (List.mem_cons_of_mem _ member)
    obtain ⟨id, owner⟩ := owned group List.mem_cons_self
    apply fresh.addWrites
    rw [owner]
    apply freshWrites_values
    intro write member
    obtain ⟨entry, -, rfl⟩ := List.mem_map.mp member
    exact ⟨_, rfl⟩

section Rounds

variable {order : RowOrder} {args : DriveRunArgs}

variable {internal : RunInternalState} {store : CheckpointStore}

theorem FreshExit.inserted (fresh : FreshExit internal exit)
    (stored : FreshStore internal.run exit.request.internal.nextId store)
    (args : DriveRunArgs) (now : Nat) :
    FreshStore internal.run (exit.request.internal.nextId + 1)
      (exit.request.inserted args now store) := by
  apply (stored.mono (behind_grows (Nat.le_succ _))).insert
  · right
    exact ⟨fresh.run, Nat.lt_succ_self _⟩
  · show FreshFrontier _ _ ((exit.request.frontier.map encodeFrontier).getD _)
    have kept := (fresh.frontier).mono (behind_grows (Nat.le_succ _))
    cases carried : exit.request.frontier with
    | none => exact freshFrontier_empty _ _
    | some =>
      rw [carried] at kept
      exact kept.encode

variable {past : List Obs}

theorem fresh_performExit {now : Nat} (fresh : FreshExit internal exit)
    (stored : FreshStore internal.run exit.request.internal.nextId store) :
    (performExit args now exit).ensures (storeHandler order)
      (fun store _ => FreshStore (internal.run + 1) 0 store)
      (fun result store _ => FreshStore (internal.run + 1) 0 store ∧
        ∀ next, result = .ok (.loop next) → FreshTop internal.run next store)
      store past := by
  have finished := fun (store : CheckpointStore) next
      (known : FreshStore internal.run next store) =>
    known.mono (behind_nextRun internal.run next)
  apply ensures_performExit
  · exact finished _ _ stored
  · intro error _
    exact ⟨finished _ _ stored, by rintro _ ⟨⟩⟩
  · intro _
    refine ⟨finished _ _ stored, ?_⟩
    intro next looped
    obtain ⟨internal', run, nextId⟩ := fresh.loops none next
      (Except.ok.inj looped)
    refine ⟨run, internal', ?_⟩
    rw [nextId]
    exact stored.mono (behind_grows (Nat.le_succ _))
  · intro _ before after split
    refine finished _ _ ((fresh.inserted stored args now).putAll _ _ ?_)
    intro group member
    exact fresh.owned group (by rw [split]; exact List.mem_append_left _ member)
  · intro _
    have kept := (fresh.inserted stored args now).putAll args
      (exit.request.checkpoint args now).id fresh.owned
    refine ⟨finished _ _ kept, ?_⟩
    intro next looped
    obtain ⟨internal', run, nextId⟩ := fresh.loops _ next (Except.ok.inj looped)
    refine ⟨run, internal', ?_⟩
    rw [nextId]
    exact kept

/-- A pass keeps ids fresh, wherever it is cut short. -/
theorem fresh_driveRound {run : Nat} {internal : RunInternalState}
    {store : CheckpointStore} {past : List Obs}
    (top : FreshTop run internal store) :
    (driveRound args internal).ensures (storeHandler order)
      (fun store _ => FreshStore (run + 1) 0 store)
      (fun result store _ => FreshStore (run + 1) 0 store ∧
        ∀ next, result = .ok (.loop next) → FreshTop run next store)
      store past := by
  obtain ⟨rfl, tasks, stored⟩ := top
  have decided := decideRound_decided args internal
  obtain ⟨journaled, exiting⟩ := decided.freshActs tasks
  have finished := stored.mono (behind_nextRun internal.run internal.nextId)
  apply ensures_driveRound
  · intro before after split
    apply finished.acts
    intro act member
    exact journaled act (by rw [split]; exact List.mem_append_left _ member)
  · intro fault _
    exact ⟨finished.acts args journaled, by rintro _ ⟨⟩⟩
  · intro exit ends
    have fresh := decided.fresh tasks ends
    have reached := (stored.mono (behind_grows fresh.grows)).acts args
      (exiting exit ends)
    refine Program.ensures_mono ?_ (fresh_performExit fresh reached)
    rintro result store past ⟨kept, loops⟩
    cases result with
    | error => exact ⟨kept, by rintro _ ⟨⟩⟩
    | ok next =>
      cases next with
      | raise => exact ⟨kept, by rintro _ ⟨⟩⟩
      | close => exact ⟨kept, by rintro _ ⟨⟩⟩
      | loop next =>
        obtain ⟨own, tasks, stored⟩ := loops next rfl
        show Program.ensures _ _ _ (ite _ _ _) _ _
        split
        · rw [← own] at stored ⊢
          exact fresh_performExit tasks.abortExit stored
        · refine ⟨kept, ?_⟩
          rintro _ ⟨⟩
          exact ⟨own, tasks, stored⟩

theorem fresh_driveReporting (top : FreshTop run internal store)
    (started : internal.stepsThisInvocation = 0) :
    (driveReporting args internal).ensures (storeHandler order)
      (fun store _ => FreshStore (run + 1) 0 store)
      (fun _ store _ => FreshStore (run + 1) 0 store) store past := by
  apply ensures_driveReporting
  refine ensures_driveRun
    (fun internal store past (top : FreshTop run internal store) => ?_) top
    started
  refine Program.ensures_mono ?_ (fresh_driveRound top)
  rintro result store past ⟨kept, loops⟩
  match result with
  | .error fault => exact kept
  | .ok (.raise fault) => exact kept
  | .ok .close => exact kept
  | .ok (.loop next) => exact loops next rfl

end Rounds

variable {run : Nat} {store : CheckpointStore}

theorem fresh_initial (config : WorkflowConfig) (input : Record String JsValue)
    (stored : FreshStore run 0 store) :
    FreshTop run (initialInternal config input run) store where
  own := rfl
  tasks := ⟨List.nodup_nil, by rintro _ ⟨⟩, List.nodup_nil, by rintro _ ⟨⟩, rfl⟩
  stored := stored

theorem zipIdx_ids {make : Id → α → PlannedTask}
    (numbered : ∀ id item, (make id item).taskId = id) (items : List α) (first : Nat) :
    ((items.zipIdx first).map fun entry =>
        make ⟨run, entry.2⟩ entry.1).map PlannedTask.taskId =
      idsFrom run first items.length := by
  induction items generalizing first with
  | nil => rfl
  | cons item rest ih =>
    simp only [List.zipIdx_cons, List.map_cons, numbered, ih, List.length_cons]
    rfl

theorem fanTasks_ids (run seq : Nat)
    (entries : List (PendingPauseRecord × Option JsValue)) :
    (fanTasks run seq entries).map PlannedTask.taskId =
      idsFrom run seq (fanTasks run seq entries).length := by
  induction entries generalizing seq with
  | nil => rfl
  | cons entry _ ih =>
    obtain ⟨record, fresh⟩ := entry
    unfold fanTasks
    split
    · exact ih seq
    · rw [List.map_cons, ih, List.length_cons]
      rfl

theorem fanOut_nextId (internal : RunInternalState) (resume : JsValue)
    (pauses : List PendingPauseRecord) :
    (fanOut internal resume pauses).nextId = internal.nextId +
      (fanTasks internal.run internal.nextId (answered resume pauses)).length := by
  rw [fanOut_answered]
  generalize answered resume pauses = entries
  induction entries generalizing internal with
  | nil => rfl
  | cons entry _ ih =>
    obtain ⟨record, fresh⟩ := entry
    rw [List.foldl_cons, ih]
    by_cases static : record.staticAfter
    · simp [fanOutRecord, fanTasks, static]
    · simp only [fanOutRecord, fanTasks, static, Bool.false_eq_true, if_false,
        List.length_cons]
      omega

theorem dynamicTasks_ids (run : Nat) (frontier : FrontierEnvelope) :
    (dynamicTasks run frontier).map PlannedTask.taskId =
      idsFrom run 0 frontier.dynamic.length :=
  zipIdx_ids (fun _ _ => rfl) _ 0

theorem rerunStepTasks_ids (run : Nat) (frontier : FrontierEnvelope) :
    (rerunStepTasks run frontier).map PlannedTask.taskId =
      idsFrom run 0 (rerunStepTasks run frontier).length := by
  unfold rerunStepTasks
  rw [zipIdx_ids]
  · simp
  · intro id task
    unfold rerunStepTask
    split <;> rfl

/-- Consecutive ids and older origins make a run state fresh. -/
theorem Fresh.numbered {internal : RunInternalState} {first : Nat}
    (ids : internal.pendingDynamicTasks.map PlannedTask.taskId =
      idsFrom internal.run first internal.pendingDynamicTasks.length)
    (counted : first + internal.pendingDynamicTasks.length ≤ internal.nextId)
    (origins : (internal.pendingDynamicTasks.map PlannedTask.origin).Nodup)
    (known : ∀ task ∈ internal.pendingDynamicTasks,
      task.origin.Older internal.run internal.nextId)
    (unpaused : internal.pendingPauses = []) : Fresh internal := by
  refine ⟨?_, ?_, origins, known, unpaused⟩
  · rw [ids]
    exact idsFrom_nodup _ _ _
  · intro task member
    have placed : task.taskId ∈
        idsFrom internal.run first internal.pendingDynamicTasks.length := by
      rw [← ids]
      exact List.mem_map_of_mem member
    obtain ⟨sameRun, -, below⟩ := mem_idsFrom.mp placed
    exact ⟨sameRun, by omega⟩

theorem readStepJournal_origins {rows : List PendingWrite} {expected : Nat}
    {journal : StepJournal} (found : readStepJournal run rows expected = some journal) :
    ∃ row ∈ rows, ∃ stepNumber tasks, row.value = .intent stepNumber tasks ∧
      (journal.rerunTasks.map PlannedTask.origin).Sublist
        (tasks.map StepIntentTask.origin) ∧
      journal.rerunTasks.map PlannedTask.taskId =
        idsFrom run 0 journal.rerunTasks.length := by
  unfold readStepJournal stepIntent? at found
  cases hit : rows.find? isIntentRow with
  | none => simp [hit] at found
  | some row =>
    obtain ⟨taskId, index, channel, value⟩ := row
    cases value with
    | value => simp [hit] at found
    | intent stepNumber tasks =>
      simp only [hit] at found
      split at found
      · cases found
      · cases found
        refine ⟨_, List.mem_of_find?_eq_some hit, stepNumber, tasks, rfl,
          ?_, ?_⟩
        · rw [List.map_map]
          show (List.map (StepIntentTask.origin ∘ Prod.fst) _).Sublist _
          rw [← List.map_map, List.zipIdx_map_fst]
          exact List.filter_sublist.map _
        · rw [zipIdx_ids fun _ _ => rfl]
          simp

variable {config : WorkflowConfig} {tuple : CheckpointTuple} {internal : RunInternalState}

theorem restoreRun_fresh (fresh : FreshTuple options.run 0 tuple)
    (restores : restoreRun config options tuple = .ok internal) :
    Fresh internal := by
  obtain ⟨-, restored, shape, -, updates⟩ := restoreRun_ok restores
  obtain ⟨_, _, rfl⟩ := applyUpdate_ok updates
  have grown : ∀ next, Behind options.run 0 options.run next :=
    fun next => behind_grows (Nat.zero_le next)
  cases shape with
  | failedStep replayed status tasks replays =>
    obtain ⟨_, _, rfl⟩ := replayInto_ok replays
    have origins := rerunStepTasks_origins options.run
      (readFrontier tuple.metadata)
    apply @Fresh.numbered _ 0
    · exact rerunStepTasks_ids _ _
    · exact Nat.le_of_eq (Nat.zero_add _)
    · show ((rerunStepTasks _ _).map _).Nodup
      rw [origins]
      exact (List.filter_sublist.map _).nodup fresh.frontier.steps
    · intro task member
      have listed : task.origin ∈ (rerunStepTasks options.run
          (readFrontier tuple.metadata)).map PlannedTask.origin :=
        List.mem_map_of_mem member
      rw [origins] at listed
      obtain ⟨stepTask, kept, same⟩ := List.mem_map.mp listed
      rw [← same]
      exact grown _ _ (fresh.frontier.stepsKnown stepTask
        (List.mem_filter.mp kept).1)
    · rfl
  | journal journal replayed status journals found replays =>
    obtain ⟨_, _, rfl⟩ := replayInto_ok replays
    obtain ⟨row, listed, stepNumber, tasks, intent, origins, ids⟩ :=
      readStepJournal_origins found
    have known := fresh.rows row listed
    apply @Fresh.numbered _ 0
    · exact ids
    · exact Nat.le_of_eq (Nat.zero_add _)
    · exact origins.nodup (known.origins stepNumber tasks intent)
    · intro task member
      obtain ⟨listedTask, inIntent, same⟩ := List.mem_map.mp
        (origins.subset (List.mem_map_of_mem member))
      rw [← same]
      exact grown _ _ (known.known stepNumber tasks intent listedTask inIntent)
    · rfl
  | goto =>
    apply @Fresh.numbered _ (readFrontier tuple.metadata).dynamic.length
    · rfl
    · exact Nat.le_refl _
    · exact List.nodup_singleton _
    · intro task member
      rw [List.mem_singleton.mp member]
      exact .inr ⟨rfl, Nat.lt_succ_self _⟩
    · rfl
  | pauses pauses whole unjournaled onward ordered =>
    let base := restoreDynamic (readFrontier tuple.metadata) (restoredBase options tuple)
    let fanned := fanOut base options.directive.resume pauses
    have pending : fanned.pendingDynamicTasks = _ := fanOut_pending base _ pauses
    have counted : fanned.nextId = _ := fanOut_nextId base _ pauses
    obtain ⟨_, _, _, kept⟩ := fanOut_kept base options.directive.resume pauses
    have origins : (fanned.pendingDynamicTasks.map PlannedTask.origin).Perm
        (readFrontier tuple.metadata).origins := by
      rw [pending, List.map_append, fanTasks_origins, answered_records]
      show (((dynamicTasks options.run
        (readFrontier tuple.metadata)).map PlannedTask.origin) ++ _).Perm _
      rw [dynamicTasks_origins]
      exact List.Perm.append_left _
        (((orderPauses_perm ordered).filter _).map _)
    have run : fanned.run = options.run := congrArg RunInternalState.run kept
    have size : base.pendingDynamicTasks.length =
        (readFrontier tuple.metadata).dynamic.length := by
      simp [base, restoreDynamic]
    apply @Fresh.numbered _ 0
    · show fanned.pendingDynamicTasks.map _ = idsFrom fanned.run _ _
      rw [run, pending, List.map_append, fanTasks_ids, List.length_append]
      show ((dynamicTasks options.run
        (readFrontier tuple.metadata)).map PlannedTask.taskId) ++ _ = _
      rw [dynamicTasks_ids, size, idsFrom_append, Nat.zero_add]
      rfl
    · show 0 + fanned.pendingDynamicTasks.length ≤ fanned.nextId
      rw [pending, counted, List.length_append, size, Nat.zero_add]
      exact Nat.le_refl _
    · exact (origins.nodup_iff).mpr fresh.frontier.origins
    · intro task member
      have listed := origins.mem_iff.mp (List.mem_map_of_mem member)
      show task.origin.Older fanned.run _
      rw [run]
      exact grown _ _ (fresh.frontier.known _ listed)
    · exact congrArg RunInternalState.pendingPauses kept

theorem FreshTuple.read (fresh : FreshTuple run next tuple) (order : RowOrder) :
    FreshTuple run next (order.read tuple) := by
  refine ⟨fresh.id, fresh.frontier, ?_⟩
  intro row member
  exact fresh.rows row (order.mem_arrange.mp member)

variable {order : RowOrder} {threadId : String}

theorem fresh_restored (stored : FreshStore options.run 0 store)
    (latest : store.latest threadId namespaceName = some tuple)
    (restores : restoreRun config options (order.read tuple) = .ok internal) :
    FreshTop options.run internal store where
  own := (restoreRun_at restores).run
  tasks := restoreRun_fresh
    ((stored tuple (CheckpointStore.latest_mem latest).1).read order) restores
  stored := stored.mono (behind_grows (Nat.zero_le _))

/-- The store of every thread knows only ids its calls have drawn. -/
theorem Reaches.fresh (reached : Reaches config threadId order admits thread) :
    FreshStore thread.log.length 0 thread.store := by
  induction reached with
  | unused =>
    intro tuple member
    cases member
  | @call thread _ call _ stored =>
    have finished := stored.mono (behind_nextRun thread.log.length 0)
    rw [show (thread.step config threadId order call).log.length =
      thread.log.length + 1 by simp [Thread.step]]
    refine @Call.play_of_ensures _ _ _ _ _ _
      (fun store _ => FreshStore (thread.log.length + 1) 0 store) ?_
    apply ensures_invocation
    · exact finished
    · exact fun _ => finished
    · intro input _
      exact fresh_driveReporting (fresh_initial config input stored) rfl
    · intro restore tuple internal restores latest restored
      have drawn : restore.run = thread.log.length :=
        Invocation.restores_run restores
      rw [← drawn] at stored ⊢
      exact fresh_driveReporting (fresh_restored stored latest restored)
        (restoreRun_at restored).steps

/-- The passes of the invocations of a history: the first one of a call that
starts or restores a run, and each one a pass leads to. -/
inductive LoopTop (config : WorkflowConfig) (threadId : String)
    (order : RowOrder) : DriveRunArgs → RunInternalState → CheckpointStore → Prop
  | started {thread : Thread} (options : InvocationOptions)
      (input : Record String JsValue)
      (reached : Reaches config threadId order (fun _ _ => True) thread) :
      LoopTop config threadId order (driveArgs config threadId options)
        (initialInternal config input thread.log.length) thread.store
  | restored {thread : Thread} (options : InvocationOptions)
      {restore : RestoreOptions} {tuple : CheckpointTuple}
      {internal : RunInternalState}
      (reached : Reaches config threadId order (fun _ _ => True) thread)
      (run : restore.run = thread.log.length)
      (latest : thread.store.latest threadId (namespaceFor config) = some tuple)
      (restores : restoreRun config restore (order.read tuple) = .ok internal) :
      LoopTop config threadId order (driveArgs config threadId options) internal
        thread.store
  | again {args : DriveRunArgs} {internal next : RunInternalState}
      {store : CheckpointStore}
      (top : LoopTop config threadId order args internal store)
      (loops : ((driveRound args internal).run (storeHandler order)
        store).result = .ok (.loop next)) :
      LoopTop config threadId order args next
        ((driveRound args internal).run (storeHandler order) store).final

theorem LoopTop.fresh (top : LoopTop config threadId order args internal store) :
    FreshTop internal.run internal store := by
  induction top with
  | started _ input reached => exact fresh_initial config input reached.fresh
  | restored _ reached run latest restores =>
    have stored := reached.fresh
    rw [← run] at stored
    have top := fresh_restored stored latest restores
    rw [← top.own] at top
    exact top
  | @again args internal next store top loops ih =>
    have kept := Program.run_of_ensures
      (@fresh_driveRound order args _ internal store [] ih)
    have next := kept.2 _ loops
    rw [← next.own] at next
    exact next

end Graphorin.Workflow
