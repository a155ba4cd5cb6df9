import Graphorin.Lib.Pieces
import Graphorin.Workflow.Types

namespace Graphorin.Workflow

open Graphorin.Lib
open Graphorin.Js

/-! One planning round: which tasks run next, or why none does. -/

/-- `edge.when === undefined || edge.when(state)`; a predicate may throw. -/
def edgeFires (state : State) (edge : WorkflowEdge) : Except Fault Bool :=
  match edge.when? with
  | none => .ok true
  | some predicate =>
    match predicate state with
    | .ok fired => .ok fired
    | .error message => .error (.thrown message)

/-- The targets the fired edges of one completed node reach, `__end__` left
out before its predicate is looked at. -/
def firedTargets (state : State) (nodeName : String) :
    List WorkflowEdge → Except Fault (List String)
  | [] => .ok []
  | edge :: rest =>
    if edge.source = nodeName ∧ edge.target ≠ endNode then do
      let fired ← edgeFires state edge
      let targets ← firedTargets state nodeName rest
      pure (if fired then edge.target :: targets else targets)
    else firedTargets state nodeName rest

def reachableNodes (config : WorkflowConfig) (state : State) :
    List String → Except Fault (List String)
  | [] => .ok []
  | nodeName :: rest => do
      let targets ← firedTargets state nodeName config.edges
      let others ← reachableNodes config state rest
      pure (targets ++ others)

/-- Join gate: a node fed by two or more writers of one barrier channel waits
until every writer of that barrier has an entry. -/
def barrierDefersNode (config : WorkflowConfig) (state : State)
    (nodeName : String) : Bool :=
  config.channels.any fun entry =>
    match entry.2 with
    | .barrier writers _ =>
      let joinSources :=
        ((config.edges.filter fun edge =>
          edge.target == nodeName && writers.contains edge.source).map
            WorkflowEdge.source).eraseDups
      let map := ((State.read state entry.1).fields?).getD []
      joinSources.length ≥ 2 && !(writers.all fun writer => Record.has map writer)
    | _ => false

def edgeTask (run seq : Nat) (nodeName : String) : PlannedTask where
  taskId := ⟨run, seq⟩
  origin := ⟨run, seq⟩
  nodeName := nodeName
  source := .edge

/-- Add a task for every reached node that is not planned yet and not held
back by a barrier. -/
def planReachable (config : WorkflowConfig) (state : State) (run : Nat) :
    List String → List PlannedTask → Nat → List PlannedTask × Nat
  | [], planned, nextId => (planned, nextId)
  | nodeName :: rest, planned, nextId =>
    if planned.any fun task => task.nodeName == nodeName then
      planReachable config state run rest planned nextId
    else if barrierDefersNode config state nodeName then
      planReachable config state run rest planned nextId
    else
      planReachable config state run rest
        (planned ++ [edgeTask run nextId nodeName]) (nextId + 1)

def isGated (config : WorkflowConfig) (task : PlannedTask) : Bool :=
  !(task.source == .resume || task.staticBefore) &&
    config.pauseAt.before.contains task.nodeName

/-- Some completed node has a satisfied edge to `__end__`. -/
def endEdgeFires (state : State) (nodeName : String) :
    List WorkflowEdge → Except Fault Bool
  | [] => .ok false
  | edge :: rest =>
    if edge.source = nodeName ∧ edge.target = endNode then do
      let fired ← edgeFires state edge
      if fired then pure true else endEdgeFires state nodeName rest
    else endEdgeFires state nodeName rest

def reachableEnd (config : WorkflowConfig) (state : State) :
    List String → Except Fault Bool
  | [] => .ok false
  | nodeName :: rest => do
      let fired ← endEdgeFires state nodeName config.edges
      if fired then pure true else reachableEnd config state rest

inductive PlanResult
  | tasks (tasks : List PlannedTask)
  | suspendBefore (gated : PlannedTask) (rest : List PlannedTask)
  | deadEnd (nodes : List String)

structure Plan where
  planned : List PlannedTask
  result : PlanResult
  nextId : Nat

def planTasks (config : WorkflowConfig) (internal : RunInternalState) :
    Except Fault Plan := do
  let reachable ← reachableNodes config internal.state internal.lastCompletedNodes
  let (planned, nextId) := planReachable config internal.state internal.run
    reachable internal.pendingDynamicTasks internal.nextId
  match takeFirst (isGated config) planned with
  | some (gated, rest) => pure ⟨planned, .suspendBefore gated rest, nextId⟩
  | none =>
    if planned.isEmpty && !internal.lastCompletedNodes.isEmpty then do
      let ended ← reachableEnd config internal.state internal.lastCompletedNodes
      if ended then pure ⟨planned, .tasks [], nextId⟩
      else pure ⟨planned, .deadEnd internal.lastCompletedNodes, nextId⟩
    else pure ⟨planned, .tasks planned, nextId⟩

def idsFrom (run : Nat) : Nat → Nat → List Id
  | _, 0 => []
  | seq, count + 1 => ⟨run, seq⟩ :: idsFrom run (seq + 1) count

theorem idsFrom_append (run seq first second : Nat) :
    idsFrom run seq (first + second) =
      idsFrom run seq first ++ idsFrom run (seq + first) second := by
  induction first generalizing seq with
  | zero => simp [idsFrom]
  | succ _ ih =>
    rw [Nat.succ_add, idsFrom, idsFrom, ih, List.cons_append,
      Nat.succ_add_eq_add_succ]

theorem mem_idsFrom {run seq count : Nat} {id : Id} : id ∈ idsFrom run seq count ↔
      id.run = run ∧ seq ≤ id.seq ∧ id.seq < seq + count := by
  induction count generalizing seq with
  | zero => simp [idsFrom]
  | succ _ ih =>
    obtain ⟨idRun, idSeq⟩ := id
    simp only [idsFrom, List.mem_cons, ih, Id.mk.injEq]
    omega

theorem planReachable_appends (config : WorkflowConfig) (state : State)
    (run : Nat) (reachable : List String) (planned : List PlannedTask)
    (nextId : Nat) :
    ∃ added, (planReachable config state run reachable planned nextId).1 =
        planned ++ added ∧
      (planReachable config state run reachable planned nextId).2 =
        nextId + added.length ∧
      added.map PlannedTask.taskId = idsFrom run nextId added.length ∧
      ∀ task ∈ added, task = edgeTask run task.taskId.seq task.nodeName := by
  induction reachable generalizing planned nextId with
  | nil => exact ⟨[], by simp [planReachable, idsFrom]⟩
  | cons nodeName _ ih =>
    unfold planReachable
    split
    · exact ih planned nextId
    · split
      · exact ih planned nextId
      · obtain ⟨added, appended, drawn, ids, edges⟩ :=
          ih (planned ++ [edgeTask run nextId nodeName]) (nextId + 1)
        refine ⟨edgeTask run nextId nodeName :: added, ?_, ?_, ?_, ?_⟩
        · rw [appended, List.append_assoc, List.singleton_append]
        · rw [drawn, List.length_cons]
          omega
        · rw [List.map_cons, ids, List.length_cons]
          rfl
        · intro task member
          rcases List.mem_cons.mp member with rfl | member
          · rfl
          · exact edges task member

inductive Planned (config : WorkflowConfig) (internal : RunInternalState) :
    Plan → Prop
  | gated (plan : Plan) (gated : PlannedTask) (rest : List PlannedTask)
      (found : takeFirst (isGated config) plan.planned = some (gated, rest))
      (result : plan.result = .suspendBefore gated rest) :
      Planned config internal plan
  | ended (plan : Plan)
      (idle : plan.planned = []) (completed : internal.lastCompletedNodes ≠ [])
      (earned : reachableEnd config internal.state
        internal.lastCompletedNodes = .ok true)
      (result : plan.result = .tasks []) :
      Planned config internal plan
  | deadEnd (plan : Plan)
      (idle : plan.planned = []) (completed : internal.lastCompletedNodes ≠ [])
      (stuck : reachableEnd config internal.state
        internal.lastCompletedNodes = .ok false)
      (result : plan.result = .deadEnd internal.lastCompletedNodes) :
      Planned config internal plan
  | tasks (plan : Plan)
      (ungated : ∀ task ∈ plan.planned, isGated config task = false)
      (work : plan.planned ≠ [] ∨ internal.lastCompletedNodes = [])
      (result : plan.result = .tasks plan.planned) :
      Planned config internal plan

variable {config : WorkflowConfig} {internal : RunInternalState} {plan : Plan}

theorem planTasks_planned (planned : planTasks config internal = .ok plan) :
    Planned config internal plan ∧
      ∃ added, plan.planned = internal.pendingDynamicTasks ++ added ∧
        plan.nextId = internal.nextId + added.length ∧
        added.map PlannedTask.taskId =
          idsFrom internal.run internal.nextId added.length ∧ ∀ task ∈ added,
          task = edgeTask internal.run task.taskId.seq task.nodeName := by
  unfold planTasks at planned
  cases reached : reachableNodes config internal.state
      internal.lastCompletedNodes with
  | error => simp [reached, bind, Except.bind] at planned
  | ok reachable =>
    obtain ⟨added, appended, drawn, ids, edges⟩ := planReachable_appends
      config internal.state internal.run reachable
      internal.pendingDynamicTasks internal.nextId
    simp only [reached, bind, Except.bind] at planned
    generalize planReachable config internal.state internal.run reachable
      internal.pendingDynamicTasks internal.nextId = walked at *
    obtain ⟨tasks, nextId⟩ := walked
    simp only at appended drawn planned
    cases found : takeFirst (isGated config) tasks with
    | some taken =>
      obtain ⟨gated, rest⟩ := taken
      simp only [found, pure, Except.pure, Except.ok.injEq] at planned
      subst planned
      exact ⟨.gated _ gated rest found rfl, added, appended, drawn, ids,
        edges⟩
    | none =>
      rw [takeFirst_none_iff] at found
      simp only [takeFirst_none_iff.mpr found] at planned
      split at planned
      · rename_i idle
        simp only [Bool.and_eq_true, List.isEmpty_iff, Bool.not_eq_true'] at idle
        have completed : internal.lastCompletedNodes ≠ [] := by
          simpa using idle.2
        cases ends : reachableEnd config internal.state
            internal.lastCompletedNodes with
        | error => simp [ends] at planned
        | ok ended =>
          cases ended with
          | true =>
            simp only [ends, if_true, pure, Except.pure, Except.ok.injEq] at planned
            subst planned
            exact ⟨.ended _ idle.1 completed ends rfl, added, appended,
              drawn, ids, edges⟩
          | false =>
            simp only [ends, Bool.false_eq_true, if_false, pure,
              Except.pure, Except.ok.injEq] at planned
            subst planned
            exact ⟨.deadEnd _ idle.1 completed ends rfl, added,
              appended, drawn, ids, edges⟩
      · rename_i busy
        simp only [pure, Except.pure, Except.ok.injEq] at planned
        subst planned
        refine ⟨.tasks _ found ?_ rfl, added, appended, drawn, ids, edges⟩
        by_cases idle : tasks = []
        · right
          simpa [idle] using busy
        · exact .inl idle

/-- A gate closes on the first gated task; everything else stays in order. -/
theorem planTasks_gated (planned : planTasks config internal = .ok plan)
    (result : plan.result = .suspendBefore gated rest) :
    ∃ before after, plan.planned = before ++ gated :: after ∧
      rest = before ++ after ∧ isGated config gated = true ∧
      ∀ other ∈ before, isGated config other = false := by
  obtain ⟨shape, -⟩ := planTasks_planned planned
  cases shape with
  | gated first others found other =>
    cases result.symm.trans other
    exact takeFirst_some_iff.mp found
  | ended idle completed earned other => cases result.symm.trans other
  | deadEnd idle completed stuck other => cases result.symm.trans other
  | tasks ungated work other => cases result.symm.trans other

/-- Tasks run only when none of them is gated. -/
theorem planTasks_tasks (planned : planTasks config internal = .ok plan)
    (result : plan.result = .tasks tasks) (nonempty : tasks ≠ []) :
    tasks = plan.planned ∧ ∀ task ∈ tasks, isGated config task = false := by
  obtain ⟨shape, -⟩ := planTasks_planned planned
  cases shape with
  | gated first others found other => cases result.symm.trans other
  | ended idle completed earned other =>
    exact absurd (PlanResult.tasks.inj (result.symm.trans other)) nonempty
  | deadEnd idle completed stuck other => cases result.symm.trans other
  | tasks ungated _ other =>
    cases PlanResult.tasks.inj (result.symm.trans other)
    exact ⟨rfl, ungated⟩

/-- `planTasks` takes the pending work out of the run state. -/
def RunInternalState.emptied (internal : RunInternalState) (nextId : Nat) :
    RunInternalState :=
  { internal with
    pendingDynamicTasks := []
    lastCompletedNodes := []
    nextId := nextId }

end Graphorin.Workflow
