import Graphorin.Workflow.Rounds

namespace Graphorin.Workflow

open Graphorin.Lib
open Graphorin.Js

/-! What the tasks of a step come to. -/

structure OwnedWrites (nodeName : String) (taskId : TaskId)
    (writes : List ChannelWrite) : Prop where
  owner : ∀ write ∈ writes, write.nodeName = nodeName ∧ write.taskId = taskId
  indices : writes.map ChannelWrite.index = List.range writes.length

theorem ownedWrites_nil (nodeName : String) (taskId : TaskId) :
    OwnedWrites nodeName taskId [] := ⟨by simp, rfl⟩

theorem OwnedWrites.write {nodeName : String} {taskId : TaskId}
    {harvest : Harvest} (owned : OwnedWrites nodeName taskId harvest.writes)
    (entry : String × JsValue) :
    OwnedWrites nodeName taskId (harvest.write nodeName taskId entry).writes := by
  unfold Harvest.write
  split
  · exact owned
  · constructor
    · intro write member
      rcases List.mem_append.mp member with earlier | added
      · exact owned.owner write earlier
      · rw [List.mem_singleton.mp added]
        exact ⟨rfl, rfl⟩
    · simp [owned.indices, List.range_succ]

mutual
theorem OwnedWrites.consume (owned : OwnedWrites nodeName taskId harvest.writes) :
    ∀ output, OwnedWrites nodeName taskId
      (consume nodeName taskId output harvest).writes
  | .nothing => by simpa [Workflow.consume] using owned
  | .dispatch target args => by simpa [Workflow.consume] using owned
  | .writes fields => by
      rw [Workflow.consume]
      induction fields generalizing harvest with
      | nil => exact owned
      | cons entry _ ih => exact ih (owned.write entry)
  | .list items => by
      rw [Workflow.consume]
      exact OwnedWrites.consumeAll owned items

theorem OwnedWrites.consumeAll (owned : OwnedWrites nodeName taskId harvest.writes) :
    ∀ items, OwnedWrites nodeName taskId
      (consumeAll nodeName taskId items harvest).writes
  | [] => by simpa [Workflow.consumeAll] using owned
  | item :: rest => by
      rw [Workflow.consumeAll]
      exact OwnedWrites.consumeAll (OwnedWrites.consume owned item) rest
end

/-- A status says which of the optional parts of an outcome are there. -/
structure TaskOutcome.Consistent (outcome : TaskOutcome) : Prop where
  failed : outcome.status = .failed ↔ outcome.failure.isSome
  paused : outcome.status = .paused ↔ outcome.paused.isSome
  idle : outcome.status ≠ .completed →
    outcome.writes = [] ∧ outcome.pendingDispatches = []
  owned : OwnedWrites outcome.task.nodeName (.task outcome.task.taskId)
    outcome.writes

theorem outcomeOf_task (threadId abortReason : String) (run nextId : Nat)
    (aborted : Bool) (task : PlannedTask) (replay : Replay) :
    (outcomeOf threadId abortReason run nextId aborted task replay).task =
      task := by
  unfold outcomeOf
  split <;> rfl

theorem outcomeOf_consistent (threadId abortReason : String)
    (run nextId : Nat) (aborted : Bool) (task : PlannedTask) (replay : Replay) :
    (outcomeOf threadId abortReason run nextId aborted task replay).Consistent := by
  have harvested : ∀ output, OwnedWrites task.nodeName (.task task.taskId)
      (harvestNodeOutput task.nodeName (.task task.taskId) output).writes :=
    fun output => OwnedWrites.consume (ownedWrites_nil _ _) output
  unfold outcomeOf
  split <;> constructor <;> simp [harvested, ownedWrites_nil]

def taskOutcome (args : DriveRunArgs) (internal : RunInternalState)
    (env : RoundEnv) (index seq : Nat) (task : PlannedTask) : TaskOutcome :=
  let aborted := env.abortedInStep && (env.task index).aborted
  outcomeOf args.threadId args.abortReason internal.run seq aborted task
    (runTaskBody args.config args.threadId internal
      { env.task index with aborted := aborted } task)

theorem taskOutcome_task (args : DriveRunArgs) (internal : RunInternalState)
    (env : RoundEnv) (index seq : Nat) (task : PlannedTask) :
    (taskOutcome args internal env index seq task).task = task :=
  outcomeOf_task _ _ _ _ _ _ _

theorem taskOutcome_consistent (args : DriveRunArgs)
    (internal : RunInternalState) (env : RoundEnv) (index seq : Nat)
    (task : PlannedTask) :
    (taskOutcome args internal env index seq task).Consistent :=
  outcomeOf_consistent _ _ _ _ _ _ _

section RunTasks

variable {args : DriveRunArgs} {internal : RunInternalState}
variable {env : RoundEnv} {tasks : List PlannedTask}

variable {index nextId : Nat}

variable {rest : List Nat}

theorem runTasks_cons_some (present : tasks[index]? = some task) :
    runTasks args internal env tasks (index :: rest) nextId =
      let outcome := taskOutcome args internal env index nextId task
      let others := runTasks args internal env tasks rest
        (nextId + outcome.pendingDispatches.length)
      ⟨outcomeActs args internal outcome ++ others.acts,
        outcome :: others.outcomes, others.nextId⟩ := by
  simp only [runTasks, present]
  rfl

theorem runTasks_cons_none (absent : tasks[index]? = none) :
    runTasks args internal env tasks (index :: rest) nextId =
      runTasks args internal env tasks rest nextId := by
  simp only [runTasks, absent]

theorem mem_runTasks_acts
    (member : act ∈ (runTasks args internal env tasks order nextId).acts) :
    ∃ outcome, act ∈ outcomeActs args internal outcome := by
  induction order generalizing nextId with
  | nil => cases member
  | cons index _ ih =>
    cases present : tasks[index]? with
    | none =>
      rw [runTasks_cons_none present] at member
      exact ih member
    | some =>
      rw [runTasks_cons_some present] at member
      rcases List.mem_append.mp member with here | later
      · exact ⟨_, here⟩
      · exact ih later

/-- The tasks of a step report, and journal that they are done. -/
theorem runTasks_acts (member : act ∈ (runTasks args internal env tasks order nextId).acts) :
    (∃ obs, act = .tell obs) ∨ ∃ outcome checkpointId,
      journalCheckpointId args.config internal = some checkpointId ∧
        act = doneAct outcome checkpointId := by
  obtain ⟨outcome, here⟩ := mem_runTasks_acts member
  simp only [outcomeActs, List.mem_append, List.mem_map, List.mem_singleton] at here
  rcases here with ((told | ⟨_, _, told⟩) | ⟨_, _, told⟩) | marked
  · exact .inl ⟨_, told⟩
  · exact .inl ⟨_, told.symm⟩
  · exact .inl ⟨_, told.symm⟩
  · split at marked
    · obtain ⟨checkpointId, target, done⟩ := List.mem_map.mp marked
      exact .inr ⟨outcome, checkpointId, Option.mem_toList.mp target, done.symm⟩
    · cases marked

theorem mem_runTasks
    (member : outcome ∈ (runTasks args internal env tasks order nextId).outcomes) :
    ∃ index ∈ order, ∃ task seq, tasks[index]? = some task ∧
      nextId ≤ seq ∧ outcome = taskOutcome args internal env index seq task := by
  induction order generalizing nextId with
  | nil => cases member
  | cons index _ ih =>
    cases present : tasks[index]? with
    | none =>
      rw [runTasks_cons_none present] at member
      obtain ⟨other, placed, found⟩ := ih member
      exact ⟨other, List.mem_cons_of_mem _ placed, found⟩
    | some task =>
      rw [runTasks_cons_some present] at member
      rcases List.mem_cons.mp member with rfl | member
      · exact ⟨index, by simp, task, nextId, present, by omega, rfl⟩
      · obtain ⟨other, placed, owner, seq, found, later, same⟩ := ih member
        exact ⟨other, List.mem_cons_of_mem _ placed, owner, seq, found,
          by omega, same⟩

theorem runTasks_reaches (placed : index ∈ order) (present : tasks[index]? = some task) :
    ∃ outcome ∈ (runTasks args internal env tasks order nextId).outcomes,
      outcome.task = task := by
  induction order generalizing nextId with
  | nil => cases placed
  | cons head _ ih =>
    cases found : tasks[head]? with
    | none =>
      rcases List.mem_cons.mp placed with rfl | placed
      · rw [found] at present
        cases present
      · rw [runTasks_cons_none found]
        exact ih placed
    | some =>
      rw [runTasks_cons_some found]
      rcases List.mem_cons.mp placed with rfl | placed
      · rw [found] at present
        cases present
        exact ⟨_, List.mem_cons_self, taskOutcome_task _ _ _ _ _ _⟩
      · obtain ⟨outcome, member, owned⟩ := ih placed
        exact ⟨outcome, List.mem_cons_of_mem _ member, owned⟩

theorem mem_settleOrder (live : env.abortedInStep = false) (bounded : index < count) :
    index ∈ env.settleOrder count := by
  unfold RoundEnv.settleOrder
  simp only [live, Bool.false_eq_true, if_false, List.mem_append]
  generalize (env.settles.filter fun index => index < count).eraseDups =
    settles
  by_cases settled : index ∈ settles
  · exact .inl settled
  · exact .inr (by simp [bounded, settled])

end RunTasks

section StepRun

variable {args : DriveRunArgs} {env : RoundEnv}
variable {internal : RunInternalState} {tasks : List PlannedTask}

theorem mem_stepRun {outcome : TaskOutcome}
    (member : outcome ∈ (stepRun args env internal tasks).outcomes) :
    outcome.Consistent ∧ outcome.task ∈ tasks := by
  obtain ⟨index, -, task, seq, present, -, rfl⟩ := mem_runTasks member
  exact ⟨taskOutcome_consistent _ _ _ _ _ _, by
    rw [taskOutcome_task]
    exact List.mem_of_getElem? present⟩

theorem stepRun_reaches (live : env.abortedInStep = false) (member : task ∈ tasks) :
    ∃ outcome ∈ (stepRun args env internal tasks).outcomes,
      outcome.task = task := by
  obtain ⟨index, bounded, found⟩ := List.mem_iff_getElem.mp member
  exact runTasks_reaches (mem_settleOrder live bounded)
    (by rw [List.getElem?_eq_getElem bounded, found])

variable {outcomes : List TaskOutcome}

theorem nodeFailureOf_none (clean : nodeFailureOf args env tasks outcomes = none) :
    env.abortedInStep = false ∧ ∀ outcome ∈ outcomes, outcome.failure = none := by
  unfold nodeFailureOf at clean
  split at clean
  · cases clean
  · rename_i unfailed
    constructor
    · cases aborted : env.abortedInStep with
      | false => rfl
      | true => simp [aborted] at clean
    · intro outcome member
      simpa using List.findSome?_eq_none_iff.mp unfailed outcome member

theorem mem_orderedOutcomes (member : outcome ∈ orderedOutcomes tasks outcomes) :
    outcome ∈ outcomes := by
  obtain ⟨task, -, found⟩ := List.mem_filterMap.mp member
  exact List.mem_of_find?_eq_some found

theorem pauseRecords_eq_nil (quiet : pauseRecords outcomes = []) :
    ∀ outcome ∈ outcomes, outcome.paused = none := by
  intro outcome member
  have none := (List.filterMap_eq_nil_iff.mp quiet) outcome member
  simpa using none

theorem stepPauses_eq_nil (quiet : stepPauses config ordered = []) :
    pauseRecords ordered = [] := by
  unfold stepPauses at quiet
  split at quiet
  · rename_i empty
    simpa using empty
  · exact quiet

/-- A step that settles as running completed each of its tasks. -/
theorem running_completes (clean : nodeFailureOf args env tasks
      (stepRun args env internal tasks).outcomes = none)
    (pauses : stepPauses args.config (orderedOutcomes tasks
      (stepRun args env internal tasks).outcomes) = []) :
    ∀ outcome ∈ orderedOutcomes tasks (stepRun args env internal tasks).outcomes,
      outcome.status = .completed := by
  intro outcome member
  have settled := mem_orderedOutcomes member
  have consistent := (mem_stepRun settled).1
  have unfailed := (nodeFailureOf_none clean).2 outcome settled
  have unpaused := pauseRecords_eq_nil (stepPauses_eq_nil pauses) outcome member
  cases status : outcome.status with
  | completed => rfl
  | paused => simpa [unpaused] using consistent.paused.mp status
  | failed => simpa [unfailed] using consistent.failed.mp status

end StepRun

end Graphorin.Workflow
