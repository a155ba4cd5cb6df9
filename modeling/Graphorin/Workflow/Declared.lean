import Graphorin.Workflow.Outcomes
import Graphorin.Workflow.Resume

namespace Graphorin.Workflow

open Graphorin.Lib
open Graphorin.Js

/-! The nodes a run names.  The edges lead to declared nodes only, so a run that
starts from declared ones leaves them by a dispatch and in no other way. -/

def Declared (config : WorkflowConfig) (nodeName : String) : Prop :=
  nodeName = startNode ∨ Record.has config.nodes nodeName = true

variable {config : WorkflowConfig}

theorem missingNodes_eq_nil {frontier : FrontierEnvelope} :
    missingNodes config frontier = [] ↔
      ∀ node ∈ frontier.pauses.map PendingPauseRecord.nodeName ++
          frontier.dynamic.map DynamicEntry.nodeName ++ frontier.completed ++
          frontier.stepTasks.map StepTask.nodeName,
        Declared config node := by
  unfold missingNodes
  rw [List.eq_nil_iff_forall_not_mem]
  refine forall_congr' fun node => ?_
  rw [List.mem_eraseDups, List.mem_filter]
  constructor
  · intro known member
    by_contra unknown
    rw [Declared] at unknown
    push Not at unknown
    exact known ⟨member, by simpa using unknown⟩
  · rintro known ⟨member, unknown⟩
    simp only [decide_eq_true_eq] at unknown
    rcases known member with start | declared
    · exact unknown.1 start
    · rw [declared] at unknown
      cases unknown.2

theorem forM_ok {items : List α} {check : α → Except ε Unit}
    (passes : items.forM check = .ok ()) :
    ∀ item ∈ items, check item = .ok () := by
  induction items with
  | nil => rintro _ ⟨⟩
  | cons first rest ih =>
    rw [List.forM] at passes
    cases here : check first with
    | error => simp [here, bind, Except.bind] at passes
    | ok =>
      rw [here] at passes
      intro item member
      rcases List.mem_cons.mp member with rfl | later
      · exact here
      · exact ih passes item later

theorem validateConfig_edges (valid : validateConfig config = .ok ()) :
    ∀ edge ∈ config.edges, edge.target ≠ endNode →
      Record.has config.nodes edge.target = true := by
  have edges : config.edges.forM (validateEdge config.nodes) = .ok () := by
    cases edges : config.edges.forM (validateEdge config.nodes) with
    | ok => rfl
    | error =>
      unfold validateConfig at valid
      simp only [edges, bind, Except.bind] at valid
      repeat' split at valid
      all_goals cases valid
  intro edge member inner
  have passed := forM_ok edges edge member
  unfold validateEdge at passed
  split at passed
  · cases passed
  · split at passed
    · cases passed
    · rename_i known
      simpa [inner] using known

theorem mem_firedTargets (fired : firedTargets state nodeName edges = .ok targets)
    (member : target ∈ targets) :
    ∃ edge ∈ edges, edge.target = target ∧ target ≠ endNode := by
  induction edges generalizing targets with
  | nil => cases fired; cases member
  | cons edge rest ih =>
    rw [firedTargets] at fired
    split at fired
    · rename_i own
      cases fires : edgeFires state edge with
      | error => simp [fires, bind, Except.bind] at fired
      | ok chosen =>
        cases others : firedTargets state nodeName rest with
        | error => simp [fires, others, bind, Except.bind] at fired
        | ok later =>
          simp only [fires, others, bind, Except.bind, pure, Except.pure,
            Except.ok.injEq] at fired
          have among : target = edge.target ∨ target ∈ later := by
            subst fired
            split at member
            · exact List.mem_cons.mp member
            · exact .inr member
          rcases among with rfl | among
          · exact ⟨edge, List.mem_cons_self, rfl, own.2⟩
          · obtain ⟨other, listed, found⟩ := ih others among
            exact ⟨other, List.mem_cons_of_mem _ listed, found⟩
    · obtain ⟨other, listed, found⟩ := ih fired member
      exact ⟨other, List.mem_cons_of_mem _ listed, found⟩

theorem mem_reachableNodes (reaches : reachableNodes config state completed = .ok reachable)
    (member : target ∈ reachable) :
    ∃ edge ∈ config.edges, edge.target = target ∧ target ≠ endNode := by
  induction completed generalizing reachable with
  | nil => cases reaches; cases member
  | cons nodeName rest ih =>
    rw [reachableNodes] at reaches
    cases fired : firedTargets state nodeName config.edges with
    | error => simp [fired, bind, Except.bind] at reaches
    | ok targets =>
      cases others : reachableNodes config state rest with
      | error => simp [fired, others, bind, Except.bind] at reaches
      | ok later =>
        simp only [fired, others, bind, Except.bind, pure, Except.pure,
          Except.ok.injEq] at reaches
        subst reaches
        rcases List.mem_append.mp member with here | among
        · exact mem_firedTargets fired here
        · exact ih others among

theorem mem_planReachable
    (member : task ∈ (planReachable config state run reachable planned nextId).1) :
    task ∈ planned ∨ task.nodeName ∈ reachable := by
  induction reachable generalizing planned nextId with
  | nil => exact .inl member
  | cons nodeName rest ih =>
    rw [planReachable] at member
    split at member
    · exact (ih member).imp_right (List.mem_cons_of_mem _)
    · split at member
      · exact (ih member).imp_right (List.mem_cons_of_mem _)
      · rcases ih member with earlier | later
        · rcases List.mem_append.mp earlier with before | added
          · exact .inl before
          · rw [List.mem_singleton.mp added]
            exact .inr List.mem_cons_self
        · exact .inr (List.mem_cons_of_mem _ later)

theorem planTasks_walks (planned : planTasks config internal = .ok plan) :
    ∃ reachable, reachableNodes config internal.state internal.lastCompletedNodes =
        .ok reachable ∧
      plan.planned = (planReachable config internal.state internal.run reachable
        internal.pendingDynamicTasks internal.nextId).1 := by
  unfold planTasks at planned
  cases reaches : reachableNodes config internal.state internal.lastCompletedNodes with
  | error => simp [reaches, bind, Except.bind] at planned
  | ok reachable =>
    refine ⟨reachable, rfl, ?_⟩
    simp only [reaches, bind, Except.bind] at planned
    split at planned
    · cases planned
      rfl
    · split at planned
      · split at planned
        · cases planned
        · split at planned <;> cases planned <;> rfl
      · cases planned
        rfl

/-- The nodes a run state names. -/
structure Named (config : WorkflowConfig) (internal : RunInternalState) : Prop where
  pauses : ∀ record ∈ internal.pendingPauses, Declared config record.nodeName
  pending : ∀ task ∈ internal.pendingDynamicTasks, Declared config task.nodeName
  completed : ∀ nodeName ∈ internal.lastCompletedNodes, Declared config nodeName

theorem Named.planned (named : Named config internal)
    (valid : validateConfig config = .ok ())
    (planned : planTasks config internal = .ok plan) :
    ∀ task ∈ plan.planned, Declared config task.nodeName := by
  obtain ⟨reachable, reaches, walked⟩ := planTasks_walks planned
  intro task member
  rw [walked] at member
  rcases mem_planReachable member with before | reached
  · exact named.pending task before
  · obtain ⟨edge, listed, target, inner⟩ := mem_reachableNodes reaches reached
    rw [← target] at inner ⊢
    exact .inr (validateConfig_edges valid edge listed inner)

variable {args : DriveRunArgs} {internal : RunInternalState} {round : Round}

/-- The bodies of a pass dispatch to declared nodes, unless one of them fails. -/
def Dispatching (args : DriveRunArgs) (internal : RunInternalState) : Prop :=
  ∀ plan tasks, planTasks args.config internal = .ok plan →
    plan.result = .tasks tasks →
    let env := args.env internal.stepsThisInvocation
    let outcomes := (stepRun args env (internal.emptied plan.nextId) tasks).outcomes
    nodeFailureOf args env tasks outcomes = none →
      ∀ outcome ∈ outcomes, ∀ task ∈ outcome.pendingDispatches,
        Declared args.config task.nodeName

theorem Decided.named (decided : Decided args internal round)
    (valid : validateConfig args.config = .ok ()) (named : Named args.config internal)
    (dispatching : Dispatching args internal) (finished : round.finish = .ok exit)
    (loops : exit.next checkpointId = .loop next) : Named args.config next := by
  obtain ⟨plan, tasks, applied, -, planned, result, nonempty, clean, rfl⟩ :=
    decided.again finished loops
  cases loops
  refine ⟨named.pauses, fun task member => ?_, fun node member => ?_⟩
  · obtain ⟨outcome, ran, listed⟩ := List.mem_flatMap.mp member
    exact dispatching plan tasks planned result clean outcome
      (mem_orderedOutcomes (List.mem_filter.mp ran).1) task listed
  · obtain ⟨outcome, ran, rfl⟩ := List.mem_map.mp member
    have among := (mem_stepRun (mem_orderedOutcomes (List.mem_filter.mp ran).1)).2
    rw [(planTasks_tasks planned result nonempty).1] at among
    exact named.planned valid planned _ among

end Graphorin.Workflow
