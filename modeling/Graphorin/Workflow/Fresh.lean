import Mathlib.Data.List.Nodup
import Graphorin.Workflow.Outcomes
import Graphorin.Workflow.Restored

namespace Graphorin.Workflow

open Graphorin.Lib
open Graphorin.Js

/-! Identifiers are drawn once.  Ids are ordered by the run that drew them and
their place there, and every task of a run state is older than its counter. -/

/-- Drawn before the counter of run `run` reached `next`. -/
def Id.Older (run next : Nat) (id : Id) : Prop :=
  id.run < run ∨ id.run = run ∧ id.seq < next

variable {run next : Nat}

theorem Id.Older.mono {later : Nat} {id : Id} (older : id.Older run next)
    (grows : next ≤ later) : id.Older run later := by
  rcases older with earlier | ⟨same, below⟩
  · exact .inl earlier
  · exact .inr ⟨same, by omega⟩

structure Fresh (internal : RunInternalState) : Prop where
  ids : (internal.pendingDynamicTasks.map PlannedTask.taskId).Nodup
  drawn : ∀ task ∈ internal.pendingDynamicTasks,
    task.taskId.run = internal.run ∧ task.taskId.seq < internal.nextId
  origins : (internal.pendingDynamicTasks.map PlannedTask.origin).Nodup
  known : ∀ task ∈ internal.pendingDynamicTasks,
    task.origin.Older internal.run internal.nextId
  unpaused : internal.pendingPauses = []

structure FreshTasks (run next : Nat) (tasks : List PlannedTask) : Prop where
  ids : (tasks.map PlannedTask.taskId).Nodup
  drawn : ∀ task ∈ tasks, task.taskId.run = run ∧ task.taskId.seq < next
  origins : (tasks.map PlannedTask.origin).Nodup
  known : ∀ task ∈ tasks, task.origin.Older run next

theorem idsFrom_nodup (run seq count : Nat) : (idsFrom run seq count).Nodup := by
  induction count generalizing seq with
  | zero => exact List.nodup_nil
  | succ _ ih =>
    rw [idsFrom, List.nodup_cons]
    refine ⟨fun member => ?_, ih (seq + 1)⟩
    have later := (mem_idsFrom.mp member).2.1
    simp only at later
    omega

theorem FreshTasks.append {older added : List PlannedTask}
    (fresh : FreshTasks run next older)
    (ids : added.map PlannedTask.taskId = idsFrom run next added.length)
    (own : ∀ task ∈ added, task.origin = task.taskId) :
    FreshTasks run (next + added.length) (older ++ added) := by
  have placed : ∀ task ∈ added, task.taskId ∈ idsFrom run next added.length := by
    intro task member
    rw [← ids]
    exact List.mem_map_of_mem member
  have originIds : added.map PlannedTask.origin =
      idsFrom run next added.length := by
    rw [← ids]
    exact List.map_congr_left own
  refine ⟨?_, ?_, ?_, ?_⟩
  · rw [List.map_append, List.nodup_append, ids]
    refine ⟨fresh.ids, idsFrom_nodup _ _ _, ?_⟩
    intro first inOlder second inAdded same
    obtain ⟨task, member, rfl⟩ := List.mem_map.mp inOlder
    have below := (fresh.drawn task member).2
    have above := (mem_idsFrom.mp inAdded).2.1
    rw [same] at below
    omega
  · intro task member
    rcases List.mem_append.mp member with inOlder | inAdded
    · obtain ⟨same, below⟩ := fresh.drawn task inOlder
      exact ⟨same, by omega⟩
    · obtain ⟨same, -, below⟩ := mem_idsFrom.mp (placed task inAdded)
      exact ⟨same, below⟩
  · rw [List.map_append, List.nodup_append, originIds]
    refine ⟨fresh.origins, idsFrom_nodup _ _ _, ?_⟩
    intro first inOlder second inAdded same
    obtain ⟨task, member, rfl⟩ := List.mem_map.mp inOlder
    obtain ⟨sameRun, above, -⟩ := mem_idsFrom.mp inAdded
    have older := fresh.known task member
    rw [same] at older
    rcases older with earlier | ⟨_, below⟩ <;> omega
  · intro task member
    rcases List.mem_append.mp member with inOlder | inAdded
    · exact (fresh.known task inOlder).mono (by omega)
    · obtain ⟨same, -, below⟩ := mem_idsFrom.mp (placed task inAdded)
      rw [own task inAdded]
      exact .inr ⟨same, below⟩

theorem Fresh.planned (fresh : Fresh internal)
    (planned : planTasks config internal = .ok plan) :
    FreshTasks internal.run plan.nextId plan.planned := by
  obtain ⟨-, added, appended, drawn, ids, edges⟩ := planTasks_planned planned
  rw [appended, drawn]
  refine FreshTasks.append ⟨fresh.ids, fresh.drawn, fresh.origins, fresh.known⟩
    ids fun task member => ?_
  have edge := edges task member
  obtain ⟨run, seq⟩ : ∃ run seq, task.taskId = ⟨run, seq⟩ := ⟨_, _, rfl⟩
  rw [edge]
  rfl

theorem dispatchTasks_ids (run seq : Nat) (dispatches : List (String × JsValue)) :
    (dispatchTasks run seq dispatches).map PlannedTask.taskId =
      idsFrom run seq dispatches.length := by
  induction dispatches generalizing seq with
  | nil => rfl
  | cons dispatch rest ih => simp [dispatchTasks, idsFrom, ih]

theorem dispatchTasks_own (run seq : Nat) (dispatches : List (String × JsValue)) :
    ∀ task ∈ dispatchTasks run seq dispatches, task.origin = task.taskId := by
  induction dispatches generalizing seq with
  | nil => simp [dispatchTasks]
  | cons dispatch rest ih =>
    intro task member
    rcases List.mem_cons.mp member with rfl | later
    · rfl
    · exact ih (seq + 1) task later

@[simp] theorem dispatchTasks_length (run seq : Nat)
    (dispatches : List (String × JsValue)) :
    (dispatchTasks run seq dispatches).length = dispatches.length := by
  induction dispatches generalizing seq with
  | nil => rfl
  | cons dispatch rest ih => simp [dispatchTasks, ih]

variable (args : DriveRunArgs)

theorem taskOutcome_dispatches (internal : RunInternalState) (env : RoundEnv)
    (index seq : Nat) (task : PlannedTask) : ∃ dispatches,
      (taskOutcome args internal env index seq task).pendingDispatches =
        dispatchTasks internal.run seq dispatches := by
  unfold taskOutcome outcomeOf
  simp only
  split
  · exact ⟨_, rfl⟩
  · exact ⟨[], rfl⟩
  · exact ⟨[], rfl⟩
  · exact ⟨[], rfl⟩
  · exact ⟨[], rfl⟩
  · exact ⟨[], rfl⟩

/-- In settling order the dispatches of a step bear consecutive ids. -/
theorem runTasks_dispatches (internal : RunInternalState) (env : RoundEnv)
    (tasks : List PlannedTask) (order : List Nat) (nextId : Nat) :
    let ran := runTasks args internal env tasks order nextId
    let dispatched := ran.outcomes.flatMap TaskOutcome.pendingDispatches
    dispatched.map PlannedTask.taskId =
        idsFrom internal.run nextId dispatched.length ∧
      ran.nextId = nextId + dispatched.length ∧
      ∀ task ∈ dispatched, task.origin = task.taskId := by
  induction order generalizing nextId with
  | nil => simp [runTasks, idsFrom]
  | cons index _ ih =>
    cases present : tasks[index]? with
    | none =>
      rw [runTasks_cons_none present]
      exact ih nextId
    | some task =>
      rw [runTasks_cons_some present]
      obtain ⟨dispatches, own⟩ := taskOutcome_dispatches args internal env
        index nextId task
      obtain ⟨ids, drawn, origins⟩ := ih (nextId +
        (taskOutcome args internal env index nextId
          task).pendingDispatches.length)
      simp only [own, dispatchTasks_length] at ids drawn origins ⊢
      simp only [List.flatMap_cons, own, List.map_append,
        List.length_append, dispatchTasks_ids, dispatchTasks_length]
      refine ⟨?_, by omega, ?_⟩
      · rw [ids, idsFrom_append]
      · intro dispatched member
        rcases List.mem_append.mp member with here | later
        · exact dispatchTasks_own _ _ _ dispatched here
        · exact origins dispatched later

theorem eraseDups_nodup [BEq α] [LawfulBEq α] (items : List α) :
    items.eraseDups.Nodup := by
  generalize size : items.length = bound
  induction bound using Nat.strongRecOn generalizing items with
  | ind _ ih =>
    cases items with
    | nil => exact List.nodup_nil
    | cons item rest =>
      rw [List.eraseDups_cons, List.nodup_cons]
      constructor
      · intro member
        rw [List.mem_eraseDups] at member
        simp at member
      · have shorter := List.length_filter_le (fun other => !other == item)
          rest
        rw [List.length_cons] at size
        exact ih _ (by omega) _ rfl

theorem settleOrder_nodup (env : RoundEnv) (count : Nat) :
    (env.settleOrder count).Nodup := by
  unfold RoundEnv.settleOrder
  have settled := eraseDups_nodup
    (env.settles.filter fun index => index < count)
  generalize (env.settles.filter fun index => index < count).eraseDups =
    settles at settled ⊢
  simp only
  split
  · exact settled
  · rw [List.nodup_append]
    refine ⟨settled, List.nodup_range.filter _, ?_⟩
    intro first inSettled second inRest same
    have unsettled := (List.mem_filter.mp inRest).2
    rw [← same] at unsettled
    simp [inSettled] at unsettled

theorem runTasks_tasks (internal : RunInternalState) (env : RoundEnv)
    (tasks : List PlannedTask) (order : List Nat) (nextId : Nat) :
    (runTasks args internal env tasks order nextId).outcomes.map
        TaskOutcome.task = order.filterMap fun index => tasks[index]? := by
  induction order generalizing nextId with
  | nil => rfl
  | cons index _ ih =>
    cases present : tasks[index]? with
    | none =>
      rw [runTasks_cons_none present, ih, List.filterMap_cons_none present]
    | some =>
      rw [runTasks_cons_some present, List.filterMap_cons_some present]
      simp only [List.map_cons, taskOutcome_task, ih]

variable {tasks : List PlannedTask}

theorem filterMap_getElem_nodup {order : List Nat}
    (distinct : (tasks.map PlannedTask.taskId).Nodup) (once : order.Nodup) :
    ((order.filterMap fun index => tasks[index]?).map
      PlannedTask.taskId).Nodup := by
  induction order with
  | nil => exact List.nodup_nil
  | cons index _ ih =>
    obtain ⟨unseen, once⟩ := List.nodup_cons.mp once
    cases present : tasks[index]? with
    | none =>
      rw [List.filterMap_cons_none present]
      exact ih once
    | some task =>
      rw [List.filterMap_cons_some present, List.map_cons, List.nodup_cons]
      refine ⟨fun member => unseen ?_, ih once⟩
      obtain ⟨other, reached, same⟩ := List.mem_map.mp member
      obtain ⟨place, placed, found⟩ := List.mem_filterMap.mp reached
      have first : (tasks.map PlannedTask.taskId)[index]? =
          some task.taskId := by
        rw [List.getElem?_map, present]
        rfl
      have second : (tasks.map PlannedTask.taskId)[place]? =
          some task.taskId := by
        rw [List.getElem?_map, found, ← same]
        rfl
      have bounded := (List.getElem?_eq_some_iff.mp first).1
      rw [(List.getElem?_inj bounded distinct).mp (first.trans second.symm)]
      exact placed

theorem stepRun_nodup {args : DriveRunArgs} {env : RoundEnv} {internal : RunInternalState}
    (distinct : (tasks.map PlannedTask.taskId).Nodup) :
    ((stepRun args env internal tasks).outcomes.map fun outcome =>
      outcome.task.taskId).Nodup := by
  have settled := filterMap_getElem_nodup distinct
    (settleOrder_nodup env tasks.length)
  rw [← runTasks_tasks args internal env tasks _ internal.nextId,
    List.map_map] at settled
  exact settled

variable {outcomes : List TaskOutcome}

theorem find?_outcome (once : (outcomes.map fun outcome => outcome.task.taskId).Nodup)
    (member : outcome ∈ outcomes) :
    (outcomes.find? fun other => other.task.taskId == outcome.task.taskId) =
      some outcome := by
  induction outcomes with
  | nil => cases member
  | cons head _ ih =>
    obtain ⟨unseen, once⟩ := List.nodup_cons.mp once
    rcases List.mem_cons.mp member with rfl | later
    · simp
    · have different : head.task.taskId ≠ outcome.task.taskId := by
        intro same
        exact unseen (List.mem_map.mpr ⟨outcome, later, same.symm⟩)
      rw [List.find?_cons_of_neg (by simpa using different)]
      exact ih once later

theorem orderedOutcomes_ids (tasks : List PlannedTask)
    (outcomes : List TaskOutcome) :
    ((orderedOutcomes tasks outcomes).map fun outcome =>
      outcome.task.taskId).Sublist (tasks.map PlannedTask.taskId) := by
  unfold orderedOutcomes
  induction tasks with
  | nil => exact List.Sublist.refl _
  | cons task _ ih =>
    cases found : outcomes.find? fun outcome =>
        outcome.task.taskId == task.taskId with
    | none =>
      simp only [List.filterMap_cons, found, List.map_cons]
      exact ih.cons _
    | some outcome =>
      have same : outcome.task.taskId = task.taskId := by
        simpa using List.find?_some found
      simp only [List.filterMap_cons, found, List.map_cons, same]
      exact ih.cons_cons _

/-- Planned order: the tasks of the outcomes stand as they were planned. -/
theorem orderedOutcomes_tasks (distinct : (tasks.map PlannedTask.taskId).Nodup)
    (owned : ∀ outcome ∈ outcomes, outcome.task ∈ tasks) :
    ((orderedOutcomes tasks outcomes).map TaskOutcome.task).Sublist tasks := by
  have walked : ∀ some : List PlannedTask, (∀ task ∈ some, task ∈ tasks) →
      ((orderedOutcomes some outcomes).map TaskOutcome.task).Sublist some := by
    intro some
    unfold orderedOutcomes
    induction some with
    | nil => exact fun _ => List.Sublist.refl _
    | cons task _ ih =>
      intro inside
      have later := ih fun other member =>
        inside other (List.mem_cons_of_mem _ member)
      cases found : outcomes.find? fun outcome =>
          outcome.task.taskId == task.taskId with
      | none =>
        simp only [List.filterMap_cons, found]
        exact later.cons _
      | some outcome =>
        have same : outcome.task = task :=
          List.inj_on_of_nodup_map distinct
            (owned outcome (List.mem_of_find?_eq_some found))
            (inside task List.mem_cons_self)
            (by simpa using List.find?_some found)
        simp only [List.filterMap_cons, found, List.map_cons, same]
        exact later.cons_cons _
  exact walked tasks fun _ member => member

theorem orderedOutcomes_perm (distinct : (tasks.map PlannedTask.taskId).Nodup)
    (once : (outcomes.map fun outcome => outcome.task.taskId).Nodup)
    (owned : ∀ outcome ∈ outcomes, outcome.task ∈ tasks) :
    (orderedOutcomes tasks outcomes).Perm outcomes := by
  have found : ∀ outcome, outcome ∈ orderedOutcomes tasks outcomes ↔
      outcome ∈ outcomes := by
    intro outcome
    refine ⟨mem_orderedOutcomes, fun member => ?_⟩
    exact List.mem_filterMap.mpr
      ⟨outcome.task, owned outcome member, find?_outcome once member⟩
  have ordered : (orderedOutcomes tasks outcomes).Nodup :=
    List.Nodup.of_map _ ((orderedOutcomes_ids tasks outcomes).nodup distinct)
  exact (List.perm_ext_iff_of_nodup ordered (List.Nodup.of_map _ once)).mpr found

structure FreshDispatches (run first next : Nat) (dispatched : List PlannedTask) :
    Prop where
  own : ∀ task ∈ dispatched, task.origin = task.taskId
  ids : (dispatched.map PlannedTask.taskId).Nodup
  drawn : ∀ task ∈ dispatched, task.taskId.run = run ∧
    first ≤ task.taskId.seq ∧ task.taskId.seq < next

theorem dispatchesOf_eq (consistent : ∀ outcome ∈ outcomes, outcome.Consistent) :
    dispatchesOf outcomes = outcomes.flatMap TaskOutcome.pendingDispatches := by
  unfold dispatchesOf completedOnly
  induction outcomes with
  | nil => rfl
  | cons outcome _ ih =>
    have later := ih fun other member =>
      consistent other (List.mem_cons_of_mem _ member)
    by_cases completed : outcome.status = .completed
    · simp [completed, later]
    · have idle := ((consistent outcome (by simp)).idle completed).2
      simp [completed, later, idle]

theorem stepRun_dispatches {args : DriveRunArgs} {env : RoundEnv}
    {internal : RunInternalState} {tasks : List PlannedTask}
    (distinct : (tasks.map PlannedTask.taskId).Nodup) :
    FreshDispatches internal.run internal.nextId
      (stepRun args env internal tasks).nextId (dispatchesOf (orderedOutcomes tasks
        (stepRun args env internal tasks).outcomes)) := by
  obtain ⟨ids, drawn, own⟩ := runTasks_dispatches args internal env tasks
    (env.settleOrder tasks.length) internal.nextId
  have rearranged : (orderedOutcomes tasks
      (stepRun args env internal tasks).outcomes).Perm
        (stepRun args env internal tasks).outcomes :=
    orderedOutcomes_perm distinct (stepRun_nodup distinct)
      fun outcome member => (mem_stepRun member).2
  rw [dispatchesOf_eq fun outcome member =>
    (mem_stepRun (mem_orderedOutcomes member)).1]
  have dispatched := rearranged.flatMap_right TaskOutcome.pendingDispatches
  refine ⟨?_, ?_, ?_⟩
  · intro task member
    exact own task (dispatched.mem_iff.mp member)
  · rw [(dispatched.map _).nodup_iff]
    show ((runTasks _ _ _ _ _ _).outcomes.flatMap _ |>.map _).Nodup
    rw [ids]
    exact idsFrom_nodup _ _ _
  · intro task member
    have placed : task.taskId ∈ idsFrom internal.run internal.nextId
        ((runTasks args internal env tasks (env.settleOrder tasks.length)
          internal.nextId).outcomes.flatMap
            TaskOutcome.pendingDispatches).length := by
      rw [← ids]
      exact List.mem_map_of_mem (dispatched.mem_iff.mp member)
    obtain ⟨sameRun, above, below⟩ := mem_idsFrom.mp placed
    refine ⟨sameRun, above, ?_⟩
    unfold stepRun
    omega

/-- A task that is older than the step is none of its dispatches. -/
theorem FreshDispatches.origin_ne (fresh : FreshDispatches run first next dispatched)
    (member : task ∈ dispatched) (older : origin.Older run first) :
    task.origin ≠ origin := by
  obtain ⟨sameRun, above, -⟩ := fresh.drawn task member
  rw [fresh.own task member]
  rintro rfl
  rcases older with earlier | ⟨_, below⟩ <;> omega

end Graphorin.Workflow
