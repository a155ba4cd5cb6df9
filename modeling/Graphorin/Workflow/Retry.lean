import Graphorin.Workflow.Merge
import Graphorin.Workflow.Steps

namespace Graphorin.Workflow

open Graphorin.Lib
open Graphorin.Js

/-! What a retry rebuilds from the rows of a failed step. -/

def rowOf (write : ChannelWrite) : PendingWrite :=
  ⟨write.taskId, write.index, write.channel, .value write.value⟩

theorem writeRows_fresh {rows writes : List PendingWrite} {owner : TaskId}
    (apart : ∀ row ∈ rows, row.taskId = owner →
      row.index ∉ writes.map PendingWrite.index)
    (numbered : (writes.map PendingWrite.index).Nodup) :
    CheckpointStore.writeRows rows writes owner =
      rows ++ writes.map fun write => { write with taskId := owner } := by
  unfold CheckpointStore.writeRows
  induction writes generalizing rows with
  | nil => simp
  | cons write _ ih =>
    obtain ⟨unseen, numbered⟩ := List.nodup_cons.mp numbered
    have kept : CheckpointStore.upsertRow rows { write with taskId := owner } =
        rows ++ [{ write with taskId := owner }] := by
      unfold CheckpointStore.upsertRow
      rw [List.filter_eq_self.mpr]
      intro row member
      have different := apart row member
      by_cases owned : row.taskId = owner
      · have other := different owned
        simp only [List.map_cons, List.mem_cons, not_or] at other
        simp [other.1]
      · simp [owned]
    rw [List.foldl_cons, kept, ih _ numbered]
    · simp
    · intro row member owned
      rcases List.mem_append.mp member with earlier | here
      · have other := apart row earlier owned
        simp only [List.map_cons, List.mem_cons, not_or] at other
        exact other.2
      · rw [List.mem_singleton.mp here]
        exact unseen

theorem pendingRow_zipIdx {nodeName : String} {taskId : TaskId}
    {writes : List ChannelWrite} (owned : OwnedWrites nodeName taskId writes) :
    writes.zipIdx.map pendingRow = writes.map rowOf := by
  have numbered : ∀ entry ∈ writes.zipIdx, pendingRow entry = rowOf entry.1 := by
    intro entry member
    have placed := List.mem_zipIdx_iff_getElem?.mp member
    have listed : (writes.map ChannelWrite.index)[entry.2]? =
        some entry.1.index := by rw [List.getElem?_map, placed]; rfl
    have bound := (List.getElem?_eq_some_iff.mp placed).1
    rw [owned.indices, List.getElem?_range bound] at listed
    unfold pendingRow rowOf
    rw [Option.some.inj listed]
  rw [List.map_congr_left numbered]
  show writes.zipIdx.map (rowOf ∘ Prod.fst) = _
  rw [← List.map_map, List.zipIdx_map_fst]

theorem groupWritesByTask_outcomes {outcomes : List TaskOutcome}
    (consistent : ∀ outcome ∈ outcomes, outcome.Consistent)
    (once : (outcomes.map fun outcome => outcome.task.taskId).Nodup) :
    groupWritesByTask (outcomes.flatMap TaskOutcome.writes) =
      (outcomes.filter fun outcome => !outcome.writes.isEmpty).map
        fun outcome => (.task outcome.task.taskId, outcome.writes) := by
  show groupOn ChannelWrite.taskId _ = _
  induction outcomes with
  | nil => rfl
  | cons outcome _ ih =>
    obtain ⟨unseen, once⟩ := List.nodup_cons.mp once
    have later := ih (fun other member =>
      consistent other (List.mem_cons_of_mem _ member)) once
    have owned := (consistent outcome List.mem_cons_self).owned
    rw [List.flatMap_cons]
    by_cases empty : outcome.writes = []
    · rw [empty, List.nil_append, later]
      simp [empty]
    · rw [groupOn_append, later, groupOn_block empty fun write member =>
        (owned.owner write member).2]
      · simp [empty]
      · intro write here other there same
        obtain ⟨owner, member, written⟩ := List.mem_flatMap.mp there
        have known := (consistent owner
          (List.mem_cons_of_mem _ member)).owned.owner other written
        rw [(owned.owner write here).2, known.2] at same
        exact unseen (List.mem_map.mpr ⟨owner, member,
          (TaskId.task.inj same).symm⟩)

theorem flatMap_nonempty (outcomes : List TaskOutcome) :
    (outcomes.filter fun outcome => !outcome.writes.isEmpty).flatMap
        TaskOutcome.writes = outcomes.flatMap TaskOutcome.writes := by
  induction outcomes with
  | nil => rfl
  | cons outcome _ ih =>
    by_cases empty : outcome.writes = []
    · simp [empty, ih]
    · simp [empty, ih]

theorem putRows_outcomes {outcomes : List TaskOutcome}
    (consistent : ∀ outcome ∈ outcomes, outcome.Consistent)
    (once : (outcomes.map fun outcome => outcome.task.taskId).Nodup)
    {rows : List PendingWrite} (apart : ∀ row ∈ rows, ∀ outcome ∈ outcomes,
      row.taskId ≠ .task outcome.task.taskId) :
    putRows rows (outcomes.map fun outcome =>
        (.task outcome.task.taskId, outcome.writes)) =
      rows ++ (outcomes.flatMap TaskOutcome.writes).map rowOf := by
  induction outcomes generalizing rows with
  | nil => simp [putRows]
  | cons outcome _ ih =>
    obtain ⟨unseen, once⟩ := List.nodup_cons.mp once
    have owned := (consistent outcome List.mem_cons_self).owned
    have here : CheckpointStore.writeRows rows
        (outcome.writes.zipIdx.map pendingRow) (.task outcome.task.taskId) =
          rows ++ outcome.writes.map rowOf := by
      rw [pendingRow_zipIdx owned, writeRows_fresh]
      · rw [List.map_map]
        congr 1
        apply List.map_congr_left
        intro write member
        show (⟨_, _, _, _⟩ : PendingWrite) = ⟨_, _, _, _⟩
        rw [(owned.owner write member).2]
        rfl
      · intro row member own
        exact absurd own (apart row member outcome List.mem_cons_self)
      · rw [List.map_map]
        show (outcome.writes.map ChannelWrite.index).Nodup
        rw [owned.indices]
        exact List.nodup_range
    rw [List.map_cons, putRows, List.foldl_cons, here]
    have later := @ih (fun other member =>
      consistent other (List.mem_cons_of_mem _ member)) once
      (rows ++ outcome.writes.map rowOf) (by
        intro row member other inRest
        rcases List.mem_append.mp member with earlier | added
        · exact apart row earlier other (List.mem_cons_of_mem _ inRest)
        · obtain ⟨write, written, rfl⟩ := List.mem_map.mp added
          show write.taskId ≠ _
          rw [(owned.owner write written).2]
          intro same
          exact unseen (List.mem_map.mpr ⟨other, inRest,
            (TaskId.task.inj same).symm⟩))
    rw [putRows] at later
    rw [later]
    simp

theorem find?_task {tasks : List PlannedTask} {task : PlannedTask}
    {p : PlannedTask → Bool}
    (distinct : (tasks.map PlannedTask.taskId).Nodup) (member : task ∈ tasks)
    (hit : p task = true)
    (only : ∀ other, p other = true → other.taskId = task.taskId) :
    tasks.find? p = some task := by
  cases found : tasks.find? p with
  | none =>
    have missed := List.find?_eq_none.mp found task member
    exact absurd hit missed
  | some other =>
    rw [List.inj_on_of_nodup_map distinct (List.mem_of_find?_eq_some found)
      member (only other (List.find?_some found))]

structure FailedStep (args : DriveRunArgs) extends StepRound args where
  failure : NodeFailure
  raised : nodeFailureOf args toStepRound.env toStepRound.tasks
    toStepRound.ran.outcomes = some failure

namespace FailedStep

variable {args : DriveRunArgs} (step : FailedStep args)

/-- The rows the step's checkpoint keeps, in planned task order. -/
def rows : List PendingWrite := (writesOf step.ordered).map rowOf

theorem exit_eq : step.exit = failureExit args step.after
    step.env.abortedInStep step.tasks step.ran.outcomes step.failure := by
  have settles : step.settled = ([], failureExit args step.after
      step.env.abortedInStep step.tasks step.ran.outcomes step.failure) := by
    unfold StepRound.settled settleStep
    rw [step.raised]
  exact step.exit_of_settled settles

theorem ordered_once :
    (step.ordered.map fun outcome => outcome.task.taskId).Nodup :=
  (orderedOutcomes_ids step.tasks step.ran.outcomes).nodup step.freshTasks.ids

theorem completed_consistent :
    ∀ outcome ∈ completedOnly step.ordered, outcome.Consistent :=
  fun outcome member => step.ordered_consistent outcome
    (List.mem_filter.mp member).1

theorem stored_rows {tuple : CheckpointTuple}
    (stored : tuple ∈ step.exit.request.storedIn args step.env.now
      (actsStore args step.store step.acts)) (own : tuple.checkpoint.id =
      (step.exit.request.checkpoint args step.env.now).id) :
    tuple.pendingWrites = step.rows := by
  have unused : (actsStore args step.store step.acts).Every fun kept _ =>
      kept.id ≠ (step.exit.request.checkpoint args step.env.now).id := by
    rw [step.exit_eq]
    exact step.unused
  rw [PersistRequest.storedIn, PersistRequest.inserted,
    CheckpointStore.insert_unused unused, putAll_eq] at stored
  obtain ⟨plain, listed, rfl⟩ := List.mem_map.mp stored
  have fresh : plain = ⟨step.exit.request.checkpoint args step.env.now,
      step.exit.request.metadata args, []⟩ := by
    rcases List.mem_append.mp listed with earlier | here
    · have same : plain.checkpoint.id =
          (step.exit.request.checkpoint args step.env.now).id := by
        split at own <;> exact own
      exact absurd same (unused plain earlier)
    · exact List.mem_singleton.mp here
  subst fresh
  rw [if_pos ⟨rfl, rfl, rfl⟩]
  have groups : step.exit.request.pendingWritesByTask =
      ((completedOnly step.ordered).filter fun outcome =>
        !outcome.writes.isEmpty).map fun outcome =>
          (.task outcome.task.taskId, outcome.writes) := by
    rw [step.exit_eq]
    apply groupWritesByTask_outcomes step.completed_consistent
    exact (List.filter_sublist.map _).nodup step.ordered_once
  show putRows [] step.exit.request.pendingWritesByTask = _
  rw [groups, putRows_outcomes, flatMap_nonempty]
  · rfl
  · intro outcome member
    exact step.completed_consistent outcome (List.mem_filter.mp member).1
  · exact ((List.filter_sublist.trans List.filter_sublist).map _).nodup
      step.ordered_once
  · intro row member
    cases member

def frontier : FrontierEnvelope :=
  encodeFrontier
    { version := args.config.version
      pauses := pauseRecords step.ordered
      stepTasks := stepTasksOf step.tasks step.ran.outcomes }

theorem replayedWrite_rowOf {write : ChannelWrite}
    (written : write ∈ writesOf step.ordered) :
    replayedWrite step.frontier (rowOf write) = some write := by
  obtain ⟨outcome, completed, member⟩ := List.mem_flatMap.mp written
  obtain ⟨listed, status⟩ := List.mem_filter.mp completed
  have settled := mem_orderedOutcomes listed
  have owned := (step.ordered_consistent outcome listed).owned.owner write member
  have inStep := (mem_stepRun settled).2
  have recorded : recordedStatus step.ran.outcomes outcome.task = .completed := by
    unfold recordedStatus
    rw [find?_outcome step.ran_once settled]
    simpa using status
  have found : ((completedStepTasks step.frontier).find? fun task =>
      task.taskId == outcome.task.taskId).map StepTask.nodeName =
        some outcome.task.nodeName := by
    unfold completedStepTasks
    show (((((stepTasksOf step.tasks step.ran.outcomes).map
      StepTask.throughJson).filter _).find? _).map _) = _
    rw [List.find?_filter, stepTasksOf, List.map_map, List.find?_map,
      find?_task step.freshTasks.ids inStep]
    · rfl
    · simp [StepTask.throughJson, recorded]
    · intro other hit
      simp only [Function.comp, StepTask.throughJson, beq_iff_eq,
        decide_eq_true_eq] at hit
      exact hit.2
  obtain ⟨stepTask, located, named⟩ := Option.map_eq_some_iff.mp found
  obtain ⟨nodeName, taskId, index, channel, value⟩ := write
  obtain ⟨rfl, rfl⟩ := owned
  show ((completedStepTasks step.frontier).find? fun task =>
    task.taskId == outcome.task.taskId).map _ = _
  rw [located, ← named]
  rfl

theorem replayWrites_rows :
    replayWrites step.frontier step.rows = writesOf step.ordered := by
  unfold replayWrites rows
  rw [List.filterMap_map]
  have back : ∀ write ∈ writesOf step.ordered,
      (replayedWrite step.frontier ∘ rowOf) write = some write :=
    fun write written => step.replayedWrite_rowOf written
  rw [List.filterMap_congr back, List.filterMap_some]

def plannedMerge : Except WorkflowError ApplyResult :=
  applyWrites step.after.state step.after.versions args.config.channels
    (writesOf step.ordered)

/-- The checkpoint of the step as it lies in the store. -/
structure Stored (tuple : CheckpointTuple) : Prop where
  listed : tuple ∈ step.exit.request.storedIn args step.env.now
    (actsStore args step.store step.acts)
  own : tuple.checkpoint.id =
    (step.exit.request.checkpoint args step.env.now).id

end FailedStep

/-- What a retry restored is what `merged` says. -/
def Rebuilt (merged : Except WorkflowError ApplyResult) :
    Except Refusal RunInternalState → Prop
  | .ok internal => ∃ applied, merged = .ok applied ∧
      (∀ channel, Record.get? internal.state channel =
        Record.get? applied.state channel) ∧
      ∀ channel, Record.get? internal.versions channel =
        Record.get? applied.versions channel
  | .error _ => ∃ error, merged = .error error

namespace FailedStep

variable {args : DriveRunArgs} (step : FailedStep args)

/-- A retry that is admitted rebuilds the planned merge. -/
def RetryRebuilds (order : RowOrder) : Prop :=
  ∀ restore tuple, restore.mode = .retry → restore.directive = {} →
    step.Stored tuple →
    admission args.config restore (order.read tuple) = .ok () →
    Rebuilt step.plannedMerge (restoreRun args.config restore (order.read tuple))

/-- The rows of each channel come back in planned task order. -/
def InPlannedOrder (order : RowOrder) : Prop :=
  ∀ channel, ((order.arrange step.rows).filter fun row =>
      row.channel = channel) = step.rows.filter fun row => row.channel = channel

theorem writesInto_replayWrites (frontier : FrontierEnvelope)
    (channel : String) (rows : List PendingWrite) :
    writesInto channel (replayWrites frontier rows) =
      replayWrites frontier (rows.filter fun row => row.channel = channel) := by
  unfold writesInto replayWrites
  induction rows with
  | nil => rfl
  | cons row _ ih =>
    have kept : ∀ write, replayedWrite frontier row = some write →
        write.channel = row.channel := by
      intro write back
      unfold replayedWrite at back
      split at back
      · obtain ⟨task, -, rfl⟩ := Option.map_eq_some_iff.mp back
        rfl
      · cases back
    cases back : replayedWrite frontier row with
    | none =>
      rw [List.filterMap_cons_none back, ih]
      by_cases same : row.channel = channel
      · simp [same, List.filterMap_cons_none back]
      · simp [same]
    | some write =>
      have own := kept write back
      rw [List.filterMap_cons_some back]
      by_cases same : row.channel = channel
      · simp [same, own, List.filterMap_cons_some back, ih]
      · simp [same, own, ih]

theorem restoreRun_replays {order : RowOrder} {restore : RestoreOptions}
    {tuple : CheckpointTuple} (plain : restore.directive = {})
    (stored : step.Stored tuple)
    (admitted : admission args.config restore (order.read tuple) = .ok ()) :
    Rebuilt (applyWrites step.after.state step.after.versions args.config.channels
        (replayWrites step.frontier (order.arrange step.rows)))
      (restoreRun args.config restore (order.read tuple)) := by
  have rows := step.stored_rows stored.listed stored.own
  obtain ⟨sameCheckpoint, sameMetadata⟩ := storedIn_own stored.listed stored.own
  have frontier : readFrontier tuple.metadata = step.frontier := by
    rw [sameMetadata, step.exit_eq]
    rfl
  have failed : tuple.metadata.status = .failed ∨
      tuple.metadata.status = .aborted := by
    rw [sameMetadata, step.exit_eq]
    show (if _ then CheckpointStatus.aborted else .failed) = .failed ∨
      (if _ then CheckpointStatus.aborted else .failed) = .aborted
    split <;> simp
  have tasks : step.frontier.stepTasks ≠ [] := by
    show (stepTasksOf step.tasks step.ran.outcomes).map _ ≠ []
    simpa [stepTasksOf] using step.nonempty
  have state : (restoredBase restore (order.read tuple)).state =
      step.after.state := by
    show tuple.checkpoint.state = _
    rw [sameCheckpoint, step.exit_eq]
    rfl
  have versions : (restoredBase restore (order.read tuple)).versions =
      step.after.versions := by
    show tuple.checkpoint.channelVersions = _
    rw [sameCheckpoint, step.exit_eq]
    rfl
  have works : restoreWork args.config restore (order.read tuple) =
      restoreFailedStep args.config step.frontier (order.arrange step.rows)
        (restoredBase restore (order.read tuple)) := by
    have read : readFrontier (order.read tuple).metadata = step.frontier :=
      frontier
    unfold restoreWork
    simp only [read]
    rw [if_pos ⟨failed, tasks⟩]
    show restoreFailedStep _ _ (order.arrange tuple.pendingWrites) _ = _
    rw [rows]
  rw [restoreRun, admitted, works]
  show Rebuilt _ (Except.bind (restoreFailedStep _ _ _ _) _)
  unfold restoreFailedStep replayInto
  rw [plain, state, versions]
  cases empty : (replayWrites step.frontier (order.arrange step.rows)).isEmpty with
  | true =>
    rw [List.isEmpty_iff.mp empty]
    exact ⟨⟨step.after.state, step.after.versions, [], []⟩, rfl,
      fun channel => by rw [← state],
      fun channel => by rw [← versions]⟩
  | false =>
    cases applyWrites step.after.state step.after.versions
        args.config.channels
        (replayWrites step.frontier (order.arrange step.rows)) with
    | error error => exact ⟨error, rfl⟩
    | ok applied => exact ⟨applied, rfl, fun _ => rfl, fun _ => rfl⟩

theorem Rebuilt.congr {first second : Except WorkflowError ApplyResult}
    {restored : Except Refusal RunInternalState}
    (rebuilt : Rebuilt first restored) (same : SameMerge first second) :
    Rebuilt second restored := by
  cases restored with
  | error =>
    obtain ⟨error, rfl⟩ := rebuilt
    cases second with
    | error other => exact ⟨other, rfl⟩
    | ok => exact same.elim
  | ok =>
    obtain ⟨applied, rfl, states, versions⟩ := rebuilt
    cases second with
    | error => exact same.elim
    | ok other =>
      exact ⟨other, rfl, fun channel => (states channel).trans (same.1 channel),
        fun channel => (versions channel).trans (same.2 channel)⟩

theorem Rebuilt.unique {first second : Except WorkflowError ApplyResult}
    {restored : Except Refusal RunInternalState}
    (left : Rebuilt first restored) (right : Rebuilt second restored) :
    SameMerge first second := by
  cases restored with
  | error =>
    obtain ⟨_, rfl⟩ := left
    obtain ⟨_, rfl⟩ := right
    trivial
  | ok =>
    obtain ⟨_, rfl, states, versions⟩ := left
    obtain ⟨_, rfl, states', versions'⟩ := right
    exact ⟨fun channel => (states channel).symm.trans (states' channel),
      fun channel => (versions channel).symm.trans (versions' channel)⟩

theorem rebuilds_in_planned_order {order : RowOrder}
    (planned : step.InPlannedOrder order) : step.RetryRebuilds order := by
  intro restore tuple _ plain stored admitted
  refine Rebuilt.congr (step.restoreRun_replays plain stored admitted) ?_
  apply applyWrites_congr
  intro channel
  rw [writesInto_replayWrites, planned channel, ← writesInto_replayWrites,
    step.replayWrites_rows]

theorem stored_exists : ∃ tuple, step.Stored tuple := by
  let request := step.exit.request
  have unused : (actsStore args step.store step.acts).Every fun kept _ =>
      kept.id ≠ (request.checkpoint args step.env.now).id := by
    show (actsStore args step.store step.acts).Every fun kept _ =>
      kept.id ≠ (step.exit.request.checkpoint args step.env.now).id
    rw [step.exit_eq]
    exact step.unused
  refine ⟨⟨request.checkpoint args step.env.now, request.metadata args,
    putRows [] request.pendingWritesByTask⟩, ?_, rfl⟩
  rw [PersistRequest.storedIn, PersistRequest.inserted,
    CheckpointStore.insert_unused unused, putAll_eq]
  apply List.mem_map.mpr
  refine ⟨⟨request.checkpoint args step.env.now, request.metadata args, []⟩,
    by simp [request], ?_⟩
  rw [if_pos ⟨rfl, rfl, rfl⟩]

end FailedStep

/-- Two failed steps whose stores hand back the same rows up to the values in
them. -/
def SameLayout {args args' : DriveRunArgs} (order order' : RowOrder)
    (step : FailedStep args) (step' : FailedStep args') : Prop :=
  ∃ relabel : PendingWrite → PendingWrite,
    (∀ row, (relabel row).taskId = row.taskId ∧
      (relabel row).index = row.index ∧
      (relabel row).channel = row.channel) ∧
    step'.rows = step.rows.map relabel ∧
    order'.arrange step'.rows = (order.arrange step.rows).map relabel

theorem SameLayout.inPlannedOrder {args args' : DriveRunArgs}
    {order order' : RowOrder} {step : FailedStep args}
    {step' : FailedStep args'} (layout : SameLayout order order' step step')
    (planned : step.InPlannedOrder order) : step'.InPlannedOrder order' := by
  obtain ⟨relabel, keeps, rows, arranged⟩ := layout
  have through : ∀ channel (rows : List PendingWrite),
      ((rows.map relabel).filter fun row => row.channel = channel) =
        (rows.filter fun row => row.channel = channel).map relabel := by
    intro channel rows
    rw [List.filter_map]
    congr 1
    apply List.filter_congr
    intro row _
    simp [(keeps row).2.2]
  intro channel
  rw [arranged, rows, through, through, planned channel]

/-! The probe: the same tasks write, row by row, which row it is. -/

def rowMark (row : PendingWrite) : JsValue :=
  match row.taskId, row.value with
  | .task id, .value value =>
    .obj [("run", .num id.run), ("seq", .num id.seq), ("index", .num row.index),
      ("channel", .str row.channel), ("value", value)]
  | _, _ => .null

def markRow (row : PendingWrite) : PendingWrite :=
  { row with value := .value (rowMark row) }

def markWrite (nodeName : String) (write : ChannelWrite) : ChannelWrite :=
  { write with nodeName := nodeName, value := rowMark (rowOf write) }

theorem rowMark_inj {first second : ChannelWrite} {id id' : Id}
    (owned : first.taskId = .task id) (owned' : second.taskId = .task id')
    (same : rowMark (rowOf first) = rowMark (rowOf second)) :
    rowOf first = rowOf second := by
  simp only [rowMark, rowOf, owned, owned', JsValue.obj.injEq, List.cons.injEq,
    Prod.mk.injEq, JsValue.num.injEq, JsValue.str.injEq, true_and, and_true,
    Rat.natCast_inj] at same
  obtain ⟨run, seq, index, channel, value⟩ := same
  have ids : id = id' := by
    cases id
    cases id'
    simp only at run seq
    rw [run, seq]
  simp [rowOf, owned, owned', ids, index, channel, value]

def completedWrites (outcomes : List TaskOutcome) (id : Id) :
    Option (List ChannelWrite) :=
  match outcomes.find? fun outcome => outcome.task.taskId == id with
  | some outcome =>
    if outcome.status = .completed then some outcome.writes else none
  | none => none

theorem writesOf_ordered (tasks : List PlannedTask) (outcomes : List TaskOutcome) :
    writesOf (orderedOutcomes tasks outcomes) = tasks.flatMap fun task =>
        (completedWrites outcomes task.taskId).getD [] := by
  unfold writesOf completedOnly orderedOutcomes completedWrites
  induction tasks with
  | nil => rfl
  | cons task _ ih =>
    cases found : outcomes.find? fun outcome =>
        outcome.task.taskId == task.taskId with
    | none => simp [found, ih]
    | some outcome =>
      by_cases completed : outcome.status = .completed
      · simp [found, completed, ih]
      · simp [found, completed, ih]

section Probe

variable {args : DriveRunArgs} (step : FailedStep args)

def probeNode : WorkflowNode where
  run := fun _ ctx =>
    match completedWrites step.ran.outcomes ctx.taskId with
    | some writes =>
      .ret (.list (writes.map fun write =>
        .writes [(write.channel, rowMark (rowOf write))]))
    | none => .throw (.thrown "down")

def probeConfig : WorkflowConfig where
  name := "probe"
  nodes := [("n", probeNode step)]
  edges := [⟨startNode, "n", none⟩]
  channels := step.rows.map fun row => (row.channel, .listAggregate .undefined)

def probeTask (task : PlannedTask) : PlannedTask where
  taskId := task.taskId
  origin := task.origin
  nodeName := "n"
  source := .dispatch

def probeInternal : RunInternalState where
  state := []
  versions := []
  pendingDynamicTasks := step.tasks.map probeTask
  lastCompletedNodes := []
  stepNumber := 0
  stepsThisInvocation := 0
  parentCheckpointId := none
  pendingPauses := []
  run := step.internal.run
  nextId := step.plan.nextId

def probeArgs : DriveRunArgs where
  config := probeConfig step
  threadId := args.threadId
  durability := .sync
  streamMode := .values
  env := fun _ =>
    { abortedInStep := true, settles := List.range step.tasks.length }

def probePlan : Plan where
  planned := step.tasks.map probeTask
  result := .tasks (step.tasks.map probeTask)
  nextId := step.plan.nextId

theorem planTasks_probe :
    planTasks (probeConfig step) (probeInternal step) = .ok (probePlan step) := by
  have ungated : takeFirst (isGated (probeConfig step))
      (step.tasks.map probeTask) = none := by
    rw [takeFirst_none_iff]
    intro task _
    simp [isGated, probeConfig]
  unfold planTasks
  simp only [probeInternal, reachableNodes, planReachable, bind, Except.bind,
    ungated]
  simp [probePlan, pure, Except.pure]

theorem fresh_probe : Fresh (probeInternal step) := by
  have tasks := step.freshTasks
  refine ⟨?_, ?_, ?_, ?_, rfl⟩
  · show ((step.tasks.map probeTask).map PlannedTask.taskId).Nodup
    rw [List.map_map]
    exact tasks.ids
  · intro task member
    obtain ⟨plain, listed, rfl⟩ := List.mem_map.mp member
    exact tasks.drawn plain listed
  · show ((step.tasks.map probeTask).map PlannedTask.origin).Nodup
    rw [List.map_map]
    exact tasks.origins
  · intro task member
    obtain ⟨plain, listed, rfl⟩ := List.mem_map.mp member
    exact tasks.known plain listed

def probeRound : StepRound (probeArgs step) where
  internal := probeInternal step
  store := []
  plan := probePlan step
  tasks := step.tasks.map probeTask
  fresh := fresh_probe step
  older := by
    intro tuple member
    cases member
  live := rfl
  below := rfl
  planned := planTasks_probe step
  result := rfl
  nonempty := by simpa using step.nonempty
  cloned := rfl

theorem mem_settleOrder_probe {count index : Nat} (bounded : index < count) :
    index ∈ RoundEnv.settleOrder
      { abortedInStep := true, settles := List.range count } count := by
  unfold RoundEnv.settleOrder
  simpa using bounded

theorem consumeAll_marked (nodeName : String) (taskId : TaskId)
    (writes : List ChannelWrite) (harvest : Harvest)
    (owned : ∀ write ∈ writes, write.taskId = taskId ∧ ∃ id, taskId = .task id)
    (numbered : writes.map ChannelWrite.index =
      List.range' harvest.writes.length writes.length) :
    (consumeAll nodeName taskId (writes.map fun write =>
        .writes [(write.channel, rowMark (rowOf write))]) harvest).writes =
      harvest.writes ++ writes.map (markWrite nodeName) := by
  induction writes generalizing harvest with
  | nil => simp [consumeAll]
  | cons write _ ih =>
    obtain ⟨own, id, named⟩ := owned write List.mem_cons_self
    simp only [List.map_cons, List.length_cons, List.range'_succ,
      List.cons.injEq] at numbered
    have defined : (rowMark (rowOf write)).isUndefined = false := by
      simp [rowMark, rowOf, own, named, JsValue.isUndefined]
    have here : (consume nodeName taskId (.writes [(write.channel,
        rowMark (rowOf write))]) harvest).writes =
          harvest.writes ++ [markWrite nodeName write] := by
      simp only [consume, List.foldl_cons, List.foldl_nil, Harvest.write,
        defined, Bool.false_eq_true, if_false, markWrite, own, numbered.1]
    rw [List.map_cons, consumeAll, ih]
    · rw [here]
      simp
    · exact fun other member => owned other (List.mem_cons_of_mem _ member)
    · rw [here]
      simpa using numbered.2

theorem completedWrites_owned {id : Id} {writes : List ChannelWrite}
    (found : completedWrites step.ran.outcomes id = some writes) :
    ∃ nodeName, OwnedWrites nodeName (.task id) writes := by
  unfold completedWrites at found
  split at found
  · rename_i outcome hit
    split at found
    · cases found
      have consistent := (mem_stepRun (List.mem_of_find?_eq_some hit)).1
      have same : outcome.task.taskId = id := by
        simpa using List.find?_some hit
      rw [← same]
      exact ⟨_, consistent.owned⟩
    · cases found
  · cases found

theorem runTaskBody_probe (internal : RunInternalState) (env : TaskEnv)
    (task : PlannedTask) :
    runTaskBody (probeConfig step) args.threadId internal env (probeTask task) =
      match completedWrites step.ran.outcomes task.taskId with
      | some writes =>
        ⟨.returned (.list (writes.map fun write =>
          .writes [(write.channel, rowMark (rowOf write))])), []⟩
      | none => ⟨.threw (.thrown "down"), []⟩ := by
  show NodeRun.replay 0 (match completedWrites step.ran.outcomes task.taskId with
    | some writes => _
    | none => _) [] [] = _
  cases completedWrites step.ran.outcomes task.taskId with
  | none => rfl
  | some => rfl

theorem taskOutcome_probe (env : RoundEnv) (internal : RunInternalState)
    (index seq : Nat) (task : PlannedTask) :
    (if (taskOutcome (probeArgs step) internal env index seq
        (probeTask task)).status = .completed then
      some (taskOutcome (probeArgs step) internal env index seq
        (probeTask task)).writes else none) =
      (completedWrites step.ran.outcomes task.taskId).map fun writes =>
        writes.map (markWrite "n") := by
  simp only [taskOutcome, show (probeArgs step).config = probeConfig step from rfl,
    show (probeArgs step).threadId = args.threadId from rfl, runTaskBody_probe step]
  cases found : completedWrites step.ran.outcomes task.taskId with
  | none => rfl
  | some writes =>
    obtain ⟨nodeName, owned⟩ := completedWrites_owned step found
    have marked := consumeAll_marked "n" (.task task.taskId) writes ⟨[], []⟩
      (fun write member => ⟨(owned.owner write member).2, _, rfl⟩)
      (by rw [owned.indices, List.range_eq_range']; rfl)
    show some (harvestNodeOutput "n" (.task task.taskId) (.list _)).writes = _
    rw [harvestNodeOutput, consume, marked]
    rfl

theorem completedWrites_probe {task : PlannedTask} (member : task ∈ step.tasks) :
    completedWrites (probeRound step).ran.outcomes task.taskId =
      (completedWrites step.ran.outcomes task.taskId).map fun writes =>
        writes.map (markWrite "n") := by
  obtain ⟨index, bounded, placed⟩ := List.mem_iff_getElem.mp member
  have present : (step.tasks.map probeTask)[index]? = some (probeTask task) := by
    rw [List.getElem?_map, List.getElem?_eq_getElem bounded, placed]
    rfl
  obtain ⟨outcome, settled, own⟩ : ∃ outcome ∈ (probeRound step).ran.outcomes,
      outcome.task = probeTask task := by
    refine runTasks_reaches ?_ present
    show index ∈ RoundEnv.settleOrder
      { abortedInStep := true, settles := List.range step.tasks.length }
      (step.tasks.map probeTask).length
    rw [List.length_map]
    exact mem_settleOrder_probe bounded
  have found := find?_outcome (probeRound step).ran_once settled
  obtain ⟨place, -, planned, seq, -, -, rfl⟩ := mem_runTasks settled
  rw [taskOutcome_task] at own
  subst own
  rw [taskOutcome_task] at found
  change (List.find? (fun other : TaskOutcome =>
    other.task.taskId == task.taskId) _) = _ at found
  unfold completedWrites
  rw [found]
  exact taskOutcome_probe step _ _ _ _ _

theorem writes_probe : writesOf (probeRound step).ordered =
    (writesOf step.ordered).map (markWrite "n") := by
  rw [StepRound.ordered, StepRound.ordered, writesOf_ordered,
    writesOf_ordered, List.map_flatMap]
  show (step.tasks.map probeTask).flatMap _ = _
  rw [List.flatMap_map]
  apply List.flatMap_congr
  intro task member
  show (completedWrites _ task.taskId).getD [] = _
  rw [completedWrites_probe step member]
  cases completedWrites step.ran.outcomes task.taskId <;> rfl

theorem rows_probe :
    (writesOf (probeRound step).ordered).map rowOf = step.rows.map markRow := by
  rw [writes_probe, FailedStep.rows, List.map_map, List.map_map]
  rfl

def probe : FailedStep (probeArgs step) where
  toStepRound := probeRound step
  failure := (nodeFailureOf (probeArgs step) (probeRound step).env
    (probeRound step).tasks (probeRound step).ran.outcomes).getD
      ⟨"n", .thrown "down"⟩
  raised := by
    have failed : (nodeFailureOf (probeArgs step) (probeRound step).env
        (probeRound step).tasks (probeRound step).ran.outcomes).isSome := by
      unfold nodeFailureOf
      split
      · rfl
      · rfl
    obtain ⟨failure, found⟩ := Option.isSome_iff_exists.mp failed
    rw [found]
    rfl

def probeOrder (order : RowOrder) : RowOrder where
  arrange rows :=
    if rows = step.rows.map markRow then (order.arrange step.rows).map markRow
    else rows
  keepsTask rows taskId := by
    split
    · rename_i same
      have through : ∀ rows : List PendingWrite,
          ((rows.map markRow).filter fun row => row.taskId = taskId) =
            (rows.filter fun row => row.taskId = taskId).map markRow := by
        intro rows
        rw [List.filter_map]
        rfl
      rw [same, through, through, order.keepsTask]
    · rfl

theorem sameLayout_probe (order : RowOrder) :
    SameLayout order (probeOrder step order) step (probe step) := by
  refine ⟨markRow, fun row => ⟨rfl, rfl, rfl⟩, rows_probe step, ?_⟩
  show (if (probe step).rows = _ then _ else _) = _
  exact if_pos (rows_probe step)

theorem admission_probe (order : RowOrder) {tuple : CheckpointTuple}
    (stored : (probe step).Stored tuple) (run : Nat) : admission (probeConfig step)
      { threadId := args.threadId, mode := .retry, run := run }
      (order.read tuple) = .ok () := by
  obtain ⟨-, sameMetadata⟩ := storedIn_own stored.listed stored.own
  have frontier : readFrontier (order.read tuple).metadata =
      (probe step).frontier := by
    show readFrontier tuple.metadata = _
    rw [sameMetadata, (probe step).exit_eq]
    rfl
  have failed : isResumable .retry (order.read tuple).metadata.status = true := by
    show isResumable .retry tuple.metadata.status = true
    rw [sameMetadata, (probe step).exit_eq]
    show isResumable .retry (if _ then _ else _) = true
    split <;> rfl
  have named : ∀ outcome ∈ (probe step).ordered,
      outcome.task.nodeName = "n" := by
    intro outcome member
    have inStep := (mem_stepRun (mem_orderedOutcomes member)).2
    obtain ⟨task, -, same⟩ := List.mem_map.mp inStep
    rw [← same]
    rfl
  have declared : missingNodes (probeConfig step) (probe step).frontier = [] := by
    unfold missingNodes
    rw [List.filter_eq_nil_iff.mpr]
    · rfl
    · intro nodeName member
      have same : nodeName = "n" := by
        rcases List.mem_append.mp member with others | inStep
        · rcases List.mem_append.mp others with others | none
          · rcases List.mem_append.mp others with paused | none
            · obtain ⟨record, listed, rfl⟩ := List.mem_map.mp paused
              obtain ⟨plain, raised, rfl⟩ := List.mem_map.mp listed
              obtain ⟨outcome, settled, made⟩ := List.mem_filterMap.mp raised
              obtain ⟨value, -, rfl⟩ := Option.map_eq_some_iff.mp made
              exact named outcome settled
            · cases none
          · cases none
        · obtain ⟨stepTask, listed, rfl⟩ := List.mem_map.mp inStep
          obtain ⟨plain, recorded, rfl⟩ := List.mem_map.mp listed
          obtain ⟨task, planned, rfl⟩ := List.mem_map.mp recorded
          obtain ⟨source, -, rfl⟩ := List.mem_map.mp planned
          rfl
      rw [same]
      simp [probeConfig, Record.has, Record.get?]
  unfold admission
  simp only [failed, frontier, Bool.true_eq_false, if_false]
  show admission.checkNodes _ _ _ = _
  unfold admission.checkNodes
  rw [declared]

theorem descriptorFor_probe {channel : String}
    (written : ∃ row ∈ step.rows, row.channel = channel) :
    descriptorFor (probeConfig step).channels channel =
        some (.listAggregate .undefined) ∨
      descriptorFor (probeConfig step).channels channel =
        some (.stream false .undefined) := by
  unfold descriptorFor
  split
  · exact .inr rfl
  · left
    show Record.get? (step.rows.map fun row =>
      (row.channel, Channel.listAggregate .undefined)) channel = _
    obtain ⟨row, member, rfl⟩ := written
    generalize step.rows = rows at member
    induction rows with
    | nil => cases member
    | cons head rest ih =>
      rw [List.map_cons, Record.get?_cons]
      split
      · rfl
      · rename_i other
        rcases List.mem_cons.mp member with rfl | later
        · exact absurd rfl other
        · exact ih later

theorem foldl_marks {writes : List ChannelWrite}
    (marks : ∀ write ∈ writes, writtenItems write.value = [write.value])
    (items : List JsValue) :
    writes.foldl (fun acc write => acc ++ writtenItems write.value) items =
      items ++ writes.map ChannelWrite.value := by
  induction writes generalizing items with
  | nil => simp
  | cons write _ ih =>
    rw [List.foldl_cons, marks write List.mem_cons_self, ih fun other member =>
      marks other (List.mem_cons_of_mem _ member)]
    simp

theorem applied_probe {writes : List ChannelWrite}
    (known : ∀ write ∈ writes, ∃ source ∈ writesOf step.ordered,
      write = markWrite "n" source) :
    ∃ applied,
      applyWrites [] [] (probeConfig step).channels writes = .ok applied ∧
      ∀ channel, Record.get? applied.state channel =
        if writesInto channel writes = [] then none
        else some (.arr ((writesInto channel writes).map ChannelWrite.value)) := by
  have merges : ∀ channel, writesInto channel writes ≠ [] →
      groupResult (probeConfig step).channels []
        (channel, writesInto channel writes) =
          .ok (.arr ((writesInto channel writes).map ChannelWrite.value)) ∧
      isEphemeralChannel (probeConfig step).channels channel = false := by
    intro channel nonempty
    obtain ⟨write, member⟩ := List.exists_mem_of_ne_nil _ nonempty
    obtain ⟨listed, own⟩ := List.mem_filter.mp member
    obtain ⟨source, written, rfl⟩ := known write listed
    have declared := @descriptorFor_probe _ step channel
      ⟨rowOf source, List.mem_map_of_mem written, of_decide_eq_true own⟩
    have marks : ∀ write ∈ writesInto channel writes,
        writtenItems write.value = [write.value] := by
      intro write member
      obtain ⟨source, -, rfl⟩ := known write (List.mem_filter.mp member).1
      show writtenItems (rowMark _) = [rowMark _]
      unfold rowMark
      split <;> rfl
    have folded := foldl_marks marks []
    unfold groupResult isEphemeralChannel
    rcases declared with descriptor | descriptor
    · rw [descriptor]
      refine ⟨?_, rfl⟩
      show Except.ok (JsValue.arr (List.foldl _ [] _)) = _
      rw [folded]
      rfl
    · rw [descriptor]
      refine ⟨?_, rfl⟩
      show Except.ok (JsValue.arr (List.foldl
        (fun acc (write : ChannelWrite) => acc ++ writtenItems write.value) []
        _)) = _
      rw [folded]
      rfl
  obtain ⟨applied, merged, applies⟩ := @applyWrites_ok
    (probeConfig step).channels [] [] writes (by
      intro channel result written
      unfold channelResult at written
      split at written
      · cases written
      · rename_i nonempty
        cases written
        exact ⟨_, (merges channel nonempty).1⟩)
  refine ⟨applied, merged, fun channel => ?_⟩
  rw [applies.values]
  unfold channelResult
  by_cases empty : writesInto channel writes = []
  · simp [empty]
  · obtain ⟨result, kept⟩ := merges channel empty
    simp [empty, result, kept, Except.toOption]

theorem arranged_sources (order : RowOrder) :
    ∃ sources : List ChannelWrite, order.arrange step.rows = sources.map rowOf ∧
      ∀ source ∈ sources, source ∈ writesOf step.ordered := by
  have walked : ∀ rows : List PendingWrite, (∀ row ∈ rows, row ∈ step.rows) →
      ∃ sources : List ChannelWrite, rows = sources.map rowOf ∧
        ∀ source ∈ sources, source ∈ writesOf step.ordered := by
    intro rows
    induction rows with
    | nil => exact fun _ => ⟨[], rfl, by simp⟩
    | cons row _ ih =>
      intro inside
      obtain ⟨sources, rfl, known⟩ := ih fun other member =>
        inside other (List.mem_cons_of_mem _ member)
      obtain ⟨source, written, rfl⟩ :=
        List.mem_map.mp (inside row List.mem_cons_self)
      exact ⟨source :: sources, rfl, by simpa using ⟨written, known⟩⟩
  apply walked
  intro row member
  exact order.mem_arrange.mp member

theorem marks_inj {first second : List ChannelWrite}
    (owned : ∀ write ∈ first ++ second, ∃ id, write.taskId = .task id)
    (same : (first.map fun write => rowMark (rowOf write)) =
      second.map fun write => rowMark (rowOf write)) :
    first.map rowOf = second.map rowOf := by
  induction first generalizing second with
  | nil =>
    cases second with
    | nil => rfl
    | cons => cases same
  | cons write _ ih =>
    cases second with
    | nil => cases same
    | cons other =>
      obtain ⟨here, later⟩ := List.cons.inj same
      obtain ⟨id, own⟩ := owned write (by simp)
      obtain ⟨id', own'⟩ := owned other (by simp)
      rw [List.map_cons, List.map_cons, rowMark_inj own own' here, ih _ later]
      intro write member
      apply owned
      rcases List.mem_append.mp member with left | right
      · exact List.mem_append_left _ (List.mem_cons_of_mem _ left)
      · exact List.mem_append_right _ (List.mem_cons_of_mem _ right)

theorem writesInto_marked (channel : String) (writes : List ChannelWrite) :
    writesInto channel (writes.map (markWrite "n")) =
      (writesInto channel writes).map (markWrite "n") := by
  unfold writesInto
  rw [List.filter_map]
  rfl

theorem filter_rowOf (channel : String) (writes : List ChannelWrite) :
    ((writes.map rowOf).filter fun row => row.channel = channel) =
      (writesInto channel writes).map rowOf := by
  rw [List.filter_map]
  rfl

theorem inPlannedOrder_of_probe {order : RowOrder}
    (rebuilds : (probe step).RetryRebuilds (probeOrder step order)) :
    step.InPlannedOrder order := by
  obtain ⟨tuple, stored⟩ := (probe step).stored_exists
  let restore : RestoreOptions :=
    { threadId := args.threadId, mode := .retry, run := 0 }
  have admitted := admission_probe step (probeOrder step order) stored 0
  have rebuilt := rebuilds restore tuple rfl rfl stored admitted
  have replayed := (probe step).restoreRun_replays rfl stored admitted
  obtain ⟨sources, arranged, known⟩ := arranged_sources step order
  have sourced : replayWrites (probe step).frontier
      ((probeOrder step order).arrange (probe step).rows) =
        sources.map (markWrite "n") := by
    have rows : (probeOrder step order).arrange (probe step).rows =
        (sources.map (markWrite "n")).map rowOf := by
      have kept : (probe step).rows = step.rows.map markRow := rows_probe step
      show (if (probe step).rows = _ then _ else _) = _
      rw [if_pos kept, arranged, List.map_map, List.map_map]
      rfl
    have back : ∀ write ∈ sources.map (markWrite "n"),
        (replayedWrite (probe step).frontier ∘ rowOf) write = some write := by
      intro write member
      apply (probe step).replayedWrite_rowOf
      show write ∈ writesOf (probeRound step).ordered
      rw [writes_probe]
      obtain ⟨source, listed, rfl⟩ := List.mem_map.mp member
      exact List.mem_map_of_mem (known source listed)
    rw [rows, replayWrites, List.filterMap_map, List.filterMap_congr back,
      List.filterMap_some]
  rw [sourced] at replayed
  have planned : (probe step).plannedMerge = applyWrites [] []
      (probeConfig step).channels ((writesOf step.ordered).map
        (markWrite "n")) := by
    rw [← writes_probe]
    rfl
  rw [planned] at rebuilt
  obtain ⟨left, merged, leftAt⟩ := @applied_probe _ step
    (sources.map (markWrite "n")) (by
      intro write member
      obtain ⟨source, listed, rfl⟩ := List.mem_map.mp member
      exact ⟨source, known source listed, rfl⟩)
  obtain ⟨right, merged', rightAt⟩ := @applied_probe _ step
    ((writesOf step.ordered).map (markWrite "n")) (by
      intro write member
      obtain ⟨source, listed, rfl⟩ := List.mem_map.mp member
      exact ⟨source, listed, rfl⟩)
  have replayed' : Rebuilt (applyWrites [] [] (probeConfig step).channels
      (sources.map (markWrite "n"))) (restoreRun (probeConfig step) restore
        ((probeOrder step order).read tuple)) := replayed
  have merges := FailedStep.Rebuilt.unique replayed' rebuilt
  rw [merged, merged'] at merges
  intro channel
  have same := merges.1 channel
  rw [leftAt, rightAt, writesInto_marked, writesInto_marked] at same
  rw [arranged, FailedStep.rows, filter_rowOf, filter_rowOf]
  apply marks_inj
  · intro write member
    rcases List.mem_append.mp member with left | right
    · exact writesOf_owned step.ordered_consistent write
        (known write (List.mem_filter.mp left).1)
    · exact writesOf_owned step.ordered_consistent write
        (List.mem_filter.mp right).1
  · simp only [List.map_eq_nil_iff, List.map_map] at same
    by_cases quiet : writesInto channel sources = []
    · by_cases still : writesInto channel (writesOf step.ordered) = []
      · rw [quiet, still]
      · simp [quiet, still] at same
    · by_cases still : writesInto channel (writesOf step.ordered) = []
      · simp [quiet, still] at same
      · simp only [quiet, still, if_false, Option.some.injEq,
          JsValue.arr.injEq] at same
        exact same

end Probe

/-- A store's order of rows rebuilds the planned merge, whatever is written and
however it merges, if and only if each channel's rows come back as planned. -/
theorem retry_rebuilds_iff {args : DriveRunArgs} (step : FailedStep args)
    (order : RowOrder) :
    (∀ (args' : DriveRunArgs) (step' : FailedStep args') (order' : RowOrder),
      SameLayout order order' step step' → step'.RetryRebuilds order') ↔
    step.InPlannedOrder order := by
  constructor
  · intro rebuilds
    exact inPlannedOrder_of_probe step
      (rebuilds _ (probe step) _ (sameLayout_probe step order))
  · intro planned args' step' order' layout
    exact step'.rebuilds_in_planned_order (layout.inPlannedOrder planned)

/-! Two tasks append to one list and a third fails; the store sorts the rows
of the second task first, as `ORDER BY task_id` does when its id is the
smaller one. -/

def RowOrder.leading (first : TaskId) : RowOrder where
  arrange rows := (rows.filter fun row => row.taskId = first) ++
    rows.filter fun row => row.taskId ≠ first
  keepsTask rows taskId := by
    rw [List.filter_append, List.filter_filter, List.filter_filter]
    by_cases same : taskId = first
    · subst same
      have others : (rows.filter fun row => decide (row.taskId = taskId) &&
          decide (row.taskId ≠ taskId)) = [] := by
        rw [List.filter_eq_nil_iff]
        intro row _
        simp
      rw [others, List.append_nil]
      apply List.filter_congr
      intro row _
      simp
    · have front : (rows.filter fun row => decide (row.taskId = taskId) &&
          decide (row.taskId = first)) = [] := by
        rw [List.filter_eq_nil_iff]
        intro row _
        by_cases owned : row.taskId = taskId
        · simp [owned, same]
        · simp [owned]
      rw [front, List.nil_append]
      apply List.filter_congr
      intro row _
      by_cases owned : row.taskId = taskId
      · simp [owned, same]
      · simp [owned]

def appends (text : String) : WorkflowNode where
  run := fun _ _ => .ret (.writes [("log", .arr [.str text])])

def logConfig : WorkflowConfig where
  name := "log"
  nodes := [("a", appends "a"), ("b", appends "b"),
    ("c", { run := fun _ _ => .throw (.thrown "down") })]
  edges := [⟨startNode, "a", none⟩, ⟨startNode, "b", none⟩,
    ⟨startNode, "c", none⟩]
  channels := [("log", .listAggregate .undefined)]

def logWorkflow : Workflow := ⟨logConfig, rfl⟩

def logArgs : DriveRunArgs := driveArgs logConfig "t" { run := 0 }

def logOrder : RowOrder := .leading (.task ⟨0, 1⟩)

theorem logTop : LoopTop logConfig "t" logOrder logArgs
    (initialInternal logConfig [] 0) [] :=
  .started { run := 0 } [] .unused

def logStep : FailedStep logArgs where
  toStepRound := logTop.step rfl rfl rfl rfl (List.cons_ne_nil _ _) rfl
  failure := ⟨"c", .thrown "down"⟩
  raised := rfl

def logged (merged : Except WorkflowError ApplyResult) : Option JsValue :=
  merged.toOption.bind fun applied => Record.get? applied.state "log"

theorem SameMerge.logged {first second : Except WorkflowError ApplyResult}
    (same : SameMerge first second) : logged first = logged second := by
  cases first with
  | error error =>
    cases second with
    | error => rfl
    | ok => exact same.elim
  | ok =>
    cases second with
    | error => exact same.elim
    | ok => exact same.1 "log"

theorem row_order_changes_retry :
    ¬ ∀ (workflow : Workflow) (threadId : String) (order : RowOrder)
      (args : DriveRunArgs) (step : FailedStep args),
      LoopTop workflow.config threadId order args step.internal step.store →
        step.RetryRebuilds order := by
  intro always
  obtain ⟨tuple, stored⟩ := logStep.stored_exists
  obtain ⟨-, sameMetadata⟩ := storedIn_own stored.listed stored.own
  have admitted : admission logConfig
      { threadId := "t", mode := .retry, run := 1 } (logOrder.read tuple) =
        .ok () := by
    have decided : admission logConfig
        { threadId := "t", mode := .retry, run := 1 }
        ⟨tuple.checkpoint, logStep.exit.request.metadata logArgs,
          (logOrder.read tuple).pendingWrites⟩ = .ok () := rfl
    rw [← sameMetadata] at decided
    exact decided
  have rebuilt := always logWorkflow "t" logOrder logArgs logStep logTop _
    tuple rfl rfl stored admitted
  have replayed := logStep.restoreRun_replays rfl stored admitted
  have merges := SameMerge.logged (FailedStep.Rebuilt.unique replayed rebuilt)
  revert merges
  decide

end Graphorin.Workflow
