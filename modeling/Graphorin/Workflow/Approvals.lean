import Graphorin.Workflow.Gates

namespace Graphorin.Workflow

open Graphorin.Lib
open Graphorin.Js

/-! A gate with nothing else gated behind it.  The approved task and everything
that waited with it run in the first step of the resume, and from then on the
run only knows activations of its own. -/

structure OwnWork (internal : RunInternalState) : Prop where
  own : ∀ task ∈ internal.pendingDynamicTasks, task.origin.run = internal.run
  unpaused : internal.pendingPauses = []

theorem dispatchTasks_origins (member : task ∈ dispatchTasks run seq dispatches) :
    task.origin.run = run := by
  rw [dispatchTasks_own _ _ _ task member]
  have placed : task.taskId ∈ idsFrom run seq dispatches.length := by
    rw [← dispatchTasks_ids]
    exact List.mem_map_of_mem member
  exact (mem_idsFrom.mp placed).1

theorem mem_dispatchesOf {args : DriveRunArgs} {env : RoundEnv}
    {internal : RunInternalState} {tasks : List PlannedTask} {task : PlannedTask}
    (member : task ∈ dispatchesOf (orderedOutcomes tasks
      (stepRun args env internal tasks).outcomes)) :
    task.origin.run = internal.run := by
  obtain ⟨outcome, completed, dispatched⟩ := List.mem_flatMap.mp member
  obtain ⟨index, -, owner, seq, -, -, rfl⟩ := mem_runTasks
    (mem_orderedOutcomes (List.mem_filter.mp completed).1)
  obtain ⟨dispatches, same⟩ := taskOutcome_dispatches args internal env index
    seq owner
  rw [same] at dispatched
  exact dispatchTasks_origins dispatched

section Passes

variable {args : DriveRunArgs} {internal : RunInternalState} {round : Round}

/-- Whatever a pass starts from, the next one is the run's own. -/
theorem Decided.ownWork (decided : Decided args internal round)
    (unpaused : internal.pendingPauses = []) (finished : round.finish = .ok exit)
    (loops : exit.next checkpointId = .loop next) : OwnWork next := by
  obtain ⟨plan, tasks, applied, -, -, -, -, -, rfl⟩ := decided.again finished loops
  cases loops
  exact ⟨fun task member => @mem_dispatchesOf args _ (internal.emptied plan.nextId) tasks
    task member, unpaused⟩

theorem Decided.gates (decided : Decided args internal round)
    (unpaused : internal.pendingPauses = []) (finished : round.finish = .ok exit)
    (member : record ∈ (exit.request.frontier.getD emptyFrontier).pauses)
    (gate : record.staticBefore = true) :
    ∃ plan gated rest, planTasks args.config internal = .ok plan ∧
      plan.result = .suspendBefore gated rest ∧ record.origin = gated.origin := by
  have programmatic : ∀ outcomes : List TaskOutcome,
      record ∈ pauseRecords outcomes → record.staticBefore = false := by
    intro outcomes raised
    obtain ⟨outcome, -, paused⟩ := List.mem_filterMap.mp raised
    obtain ⟨value, -, rfl⟩ := Option.map_eq_some_iff.mp paused
    rfl
  have none : record ∉ internal.pendingPauses := by
    rw [unpaused]
    exact List.not_mem_nil
  cases decided with
  | aborted =>
    cases finished
    exact absurd member none
  | capped =>
    cases finished
    exact absurd member none
  | unplanned => cases finished
  | deadEnd => cases finished; cases member
  | gated plan gated rest live below planned result =>
    cases finished
    rw [List.mem_singleton.mp member]
    exact ⟨plan, gated, rest, planned, result, rfl⟩
  | completed => cases finished; cases member
  | uncloneable =>
    cases finished
  | stepped plan tasks reports exit live below planned result nonempty cloned settled =>
    cases finished
    cases settled with
    | failed =>
      rw [programmatic _ member] at gate
      cases gate
    | unmerged =>
      exact absurd member none
    | invalid => cases member
    | suspended applied first others clean merged valid pauses =>
      change record ∈ first :: others at member
      rw [← pauses] at member
      unfold stepPauses at member
      split at member
      · obtain ⟨node, -, rfl⟩ := List.mem_map.mp member
        cases gate
      · rw [programmatic _ member] at gate
        cases gate
    | running =>
      exact absurd member none

/-- A pass over the run's own work plans nothing else. -/
theorem OwnWork.planned (work : OwnWork internal)
    (planned : planTasks args.config internal = .ok plan) (member : task ∈ plan.planned) :
    task.origin.run = internal.run := by
  obtain ⟨-, added, appended, -, -, edges⟩ := planTasks_planned planned
  rw [appended] at member
  rcases List.mem_append.mp member with pending | drawn
  · exact work.own task pending
  · rw [edges task drawn]
    rfl

theorem OwnWork.passRan (work : OwnWork internal) (ran : PassRan args internal outcomes) :
    ∀ outcome ∈ outcomes, outcome.task.origin.run = internal.run := by
  intro outcome member
  cases ran with
  | idle => cases member
  | step plan tasks planned result nonempty =>
    have placed := (mem_stepRun member).2
    rw [(planTasks_tasks planned result nonempty).1] at placed
    exact work.planned planned placed

end Passes

structure Open (args : DriveRunArgs) (start : RunInternalState) : Prop where
  first : start.stepsThisInvocation = 0
  idle : start.lastCompletedNodes = []
  unpaused : start.pendingPauses = []
  pending : start.pendingDynamicTasks ≠ []
  ungated : ∀ task ∈ start.pendingDynamicTasks,
    isGated args.config task = false
  below : capReached args.config start = none
  cloned : (start.state.all fun entry => entry.2.cloneable) = true

def RanThrough (start : RunInternalState) (past : List Obs) : Prop :=
  ∃ first later, ranOrigins past = first ++ later ∧
    first.Perm (start.pendingDynamicTasks.map PlannedTask.origin) ∧
    ∀ origin ∈ later, origin.run = start.run

def OwnGates (run : Nat) (store : CheckpointStore) : Prop :=
  store.Every fun checkpoint metadata => run ≤ checkpoint.id.run →
    ∀ record ∈ (readFrontier metadata).pauses, record.staticBefore = true →
      record.origin.run = run

section Runs

variable {order : RowOrder} {args : DriveRunArgs} {start : RunInternalState}

theorem Open.passRan {round : Round} (opens : Open args start)
    (live : (args.env 0).abortedAtTop = false ∧ (args.env 0).abortedInStep = false)
    (decided : Decided args start round) :
    ((executions (actsObs round.acts)).map fun outcome =>
        outcome.task.origin).Perm
      (start.pendingDynamicTasks.map PlannedTask.origin) ∧
      ∃ exit, round.finish = .ok exit := by
  have plans := @planTasks_idle args.config start opens.idle
  rw [takeFirst_none_iff.mpr opens.ungated] at plans
  cases decided with
  | aborted signal =>
    rw [opens.first] at signal
    exact absurd (live.1.symm.trans signal) (by decide)
  | capped error live cap => cases opens.below.symm.trans cap
  | unplanned fault live below thrown => cases plans.symm.trans thrown
  | deadEnd plan nodes live below planned result =>
    cases plans.symm.trans planned
    cases result
  | gated plan gated rest live below planned result =>
    cases plans.symm.trans planned
    cases result
  | completed plan live below planned result =>
    cases plans.symm.trans planned
    exact absurd (PlanResult.tasks.inj result) opens.pending
  | uncloneable plan tasks live below planned result nonempty thrown =>
    cases opens.cloned.symm.trans thrown
  | stepped plan tasks reports exit below' below planned result nonempty cloned settled =>
    cases plans.symm.trans planned
    cases result
    refine ⟨?_, _, rfl⟩
    rw [executions_stepActs (executions_settled settled).1, opens.first]
    have settles := (@stepRun_perm args (args.env 0)
      (start.emptied start.nextId) start.pendingDynamicTasks live.2).map
        PlannedTask.origin
    rw [List.map_map] at settles
    exact settles

structure Through (start internal : RunInternalState) (store : CheckpointStore)
    (past : List Obs) : Prop where
  own : internal.run = start.run
  unpaused : internal.pendingPauses = []
  gates : OwnGates start.run store
  place : internal = start ∧ executions past = [] ∨
    OwnWork internal ∧ RanThrough start past

variable {internal : RunInternalState} {store : CheckpointStore} {past : List Obs}

theorem Through.acted (through : Through start internal store past)
    (opens : Open args start)
    (live : (args.env 0).abortedAtTop = false ∧ (args.env 0).abortedInStep = false) :
    RanThrough start (past ++ actsObs (decideRound args internal).acts) := by
  have decided := decideRound_decided args internal
  rcases through.place with ⟨rfl, unseen⟩ | ⟨work, first, later, ran, once, own⟩
  · refine ⟨_, [], ?_, (opens.passRan live decided).1, by simp⟩
    simp [ranOrigins, unseen]
  · refine ⟨first, later ++ ranOrigins (actsObs (decideRound args internal).acts),
      ?_, once, ?_⟩
    · rw [ranOrigins_append, ran, List.append_assoc]
    · intro origin member
      rcases List.mem_append.mp member with earlier | now
      · exact own origin earlier
      · obtain ⟨outcome, seen, rfl⟩ := List.mem_map.mp now
        rw [← through.own]
        exact work.passRan decided.passRan outcome seen

theorem Through.ownGate (through : Through start internal store past)
    (opens : Open args start) (finished : (decideRound args internal).finish = .ok exit)
    (member : record ∈ (readFrontier (exit.request.metadata args)).pauses)
    (gate : record.staticBefore = true) : record.origin.run = start.run := by
  obtain ⟨original, carried, same, static⟩ : ∃ original : PendingPauseRecord,
      original ∈ (exit.request.frontier.getD emptyFrontier).pauses ∧
      original.origin = record.origin ∧ original.staticBefore = true := by
    unfold readFrontier PersistRequest.metadata at member
    cases frontier : exit.request.frontier with
    | none => simp [frontier, emptyFrontier] at member
    | some =>
      rw [frontier] at member
      obtain ⟨original, inside, rfl⟩ := List.mem_map.mp member
      exact ⟨original, inside, rfl, gate⟩
  obtain ⟨plan, gated, rest, planned, result, origin⟩ :=
    (decideRound_decided args internal).gates through.unpaused finished carried
      static
  rw [← same, origin]
  rcases through.place with ⟨rfl, -⟩ | ⟨work, -⟩
  · rw [planTasks_idle opens.idle, takeFirst_none_iff.mpr opens.ungated] at planned
    cases planned
    cases result
  · obtain ⟨before, after, split, -⟩ := planTasks_gated planned result
    rw [← through.own]
    exact work.planned planned (by rw [split]; simp)

theorem through_driveRound (through : Through start internal store past)
    (opens : Open args start)
    (unaborted : ∀ pass, (args.env pass).abortedAtTop = false ∧ (args.env pass).abortedInStep =
      false ∧ (args.env pass).abortedAfterStep = false) :
    (driveRound args internal).ensures (storeHandler order) (fun _ _ => True)
      (roundPost (Through start) fun _ store past =>
        OwnGates start.run store ∧ RanThrough start past) store past := by
  have decided := decideRound_decided args internal
  have acted := through.acted opens ⟨(unaborted 0).1, (unaborted 0).2.1⟩
  have gates : OwnGates start.run
      (actsStore args store (decideRound args internal).acts) :=
    through.gates.acts args _
  apply ensures_driveRound
  · intros
    trivial
  · exact fun fault _ => ⟨gates, acted⟩
  · intro exit finished
    have ends : ∀ checkpointId final, OwnGates start.run final →
        (afterStep args (args.env internal.stepsThisInvocation)
          (exit.next checkpointId)).ensures (storeHandler order)
          (fun _ _ => True)
          (roundPost (Through start) fun _ store past =>
            OwnGates start.run store ∧ RanThrough start past) final
          (past ++ actsObs (decideRound args internal).acts ++
            exit.report checkpointId) := by
      intro checkpointId final kept
      have reported : RanThrough start
          (past ++ actsObs (decideRound args internal).acts ++
            exit.report checkpointId) := by
        obtain ⟨first, later, ran, rest⟩ := acted
        refine ⟨first, later, ?_, rest⟩
        rw [ranOrigins_append, ran]
        simp [ranOrigins, decided.report_quiet finished]
      cases onward : exit.next checkpointId with
      | raise => exact ⟨kept, reported⟩
      | close => exact ⟨kept, reported⟩
      | loop =>
        have work := decided.ownWork through.unpaused finished onward
        have run := (decided.onward finished onward).2.2.2
        show Program.ensures _ _ _ (ite _ _ _) _ _
        rw [(unaborted _).2.2]
        exact ⟨run.trans through.own, work.unpaused, kept, .inr ⟨work, reported⟩⟩
    apply ensures_performExit trivial
    · exact fun error _ => ⟨gates, acted⟩
    · exact fun _ => ends none _ gates
    · intros
      trivial
    · intro _
      refine ends _ _ (gates.storedIn ?_)
      intro _ record member gate
      exact through.ownGate opens finished member gate

theorem through_driveReporting {store : CheckpointStore} {past : List Obs}
    (opens : Open args start) (older : OwnGates start.run store)
    (unseen : executions past = [])
    (unaborted : ∀ pass, (args.env pass).abortedAtTop = false ∧
      (args.env pass).abortedInStep = false ∧
      (args.env pass).abortedAfterStep = false) :
    (driveReporting args start).ensures (storeHandler order) (fun _ _ => True)
      (fun _ store past => OwnGates start.run store ∧ RanThrough start past)
      store past := by
  apply ensures_driveReporting
  have runs := @ensures_driveRun order (fun _ _ => True) args (Through start)
    (fun _ store past => OwnGates start.run store ∧ RanThrough start past)
    (fun internal store past through =>
      through_driveRound through opens unaborted)
    start store past ⟨rfl, opens.unpaused, older, .inl ⟨rfl, unseen⟩⟩
    opens.first
  refine Program.ensures_mono ?_ runs
  rintro result final seen ⟨gates, first, later, ran, rest⟩
  cases result with
  | ok => exact ⟨gates, first, later, ran, rest⟩
  | error =>
    refine ⟨gates, first, later, ?_, rest⟩
    rw [ranOrigins_append, ran]
    simp [ranOrigins]

end Runs

/-- A pass in which a static gate closed and whose pause the thread reports.
`log` is what its calls were seen to do up to there. -/
structure GateRound (config : WorkflowConfig) (threadId : String)
    (order : RowOrder) where
  args : DriveRunArgs
  internal : RunInternalState
  store : CheckpointStore
  plan : Plan
  gated : PlannedTask
  rest : List PlannedTask
  log : List (List Obs)
  top : LoopTop config threadId order args internal store
  live : (args.env internal.stepsThisInvocation).abortedAtTop = false
  below : capReached config internal = none
  planned : planTasks config internal = .ok plan
  result : plan.result = .suspendBefore gated rest
  logged : internal.run < log.length
  reported : ((driveRound args internal).run (storeHandler order)
    store).final.latestId threadId (namespaceFor config) =
      some ⟨internal.run, plan.nextId⟩

namespace GateRound

variable {config : WorkflowConfig} {threadId : String} {order : RowOrder}
variable (round : GateRound config threadId order)

/-- The planned tasks whose nodes are listed in `pauseAt.before`. -/
def gates : List PlannedTask :=
  round.plan.planned.filter fun task =>
    config.pauseAt.before.contains task.nodeName

def held : Thread :=
  ⟨round.log, ((driveRound round.args round.internal).run (storeHandler order)
    round.store).final⟩

def resumed (calls : List Call) : Thread :=
  calls.foldl (Thread.step config threadId order) round.held

/-- Each gated task runs exactly once, and no activation is gated again behind
a resume that answered its gate. -/
def Passed (calls : List Call) : Prop :=
  (∀ task ∈ round.gates,
    (ranOrigins ((round.resumed calls).log.drop
      round.log.length).flatten).count task.origin = 1) ∧
  ∀ before call after, calls = before ++ call :: after → ∀ tuple record,
    (round.resumed before).store.latest threadId (namespaceFor config) =
      some tuple →
    record ∈ (readFrontier tuple.metadata).pauses →
    record.staticBefore = true →
    (round.resumed calls).store.Every fun checkpoint metadata =>
      (round.resumed before).log.length ≤ checkpoint.id.run →
      ∀ other ∈ (readFrontier metadata).pauses, other.staticBefore = true →
        other.origin ≠ record.origin

/-- One task is gated, its thread can be resumed, and the lifetime cap leaves
room for the step that runs it. -/
def Passable : Prop :=
  round.gates.length = 1 ∧
  (∀ task ∈ round.plan.planned,
    task.nodeName = startNode ∨ Record.has config.nodes task.nodeName = true) ∧
  ∀ cap, config.maxTotalSteps = some cap → round.internal.stepNumber + 1 < cap

end GateRound

theorem LoopTop.args_eq (top : LoopTop config threadId order args internal store) :
    args.config = config ∧ args.threadId = threadId := by
  induction top with
  | started => exact ⟨rfl, rfl⟩
  | restored => exact ⟨rfl, rfl⟩
  | again top loops ih => exact ih

theorem decideRound_gated
    (live : (args.env internal.stepsThisInvocation).abortedAtTop = false)
    (below : capReached args.config internal = none)
    (planned : planTasks args.config internal = .ok plan)
    (result : plan.result = .suspendBefore gated rest) : decideRound args internal =
      ⟨[.tell (.planned internal plan.planned)],
        .ok (gateExit args (internal.emptied plan.nextId) gated rest)⟩ := by
  obtain ⟨steps, total⟩ := capReached_none _ _ below
  unfold decideRound
  simp only [live, Bool.false_eq_true, if_false, total, planned, result]
  rw [if_neg (by omega)]

theorem serializeState_cloneable (serialized : serializeState state = .ok safe) :
    (state.all fun entry => entry.2.cloneable) = true := by
  unfold serializeState at serialized
  cases checked : state.forM fun entry =>
      assertJsonSafe entry.1 entry.1 entry.2 with
  | error => simp [checked, bind, Except.bind] at serialized
  | ok _ =>
    clear serialized
    induction state with
    | nil => rfl
    | cons entry rest ih =>
      simp only [List.forM] at checked
      cases here : assertJsonSafe entry.1 entry.1 entry.2 with
      | error => simp [here, bind, Except.bind] at checked
      | ok _ =>
        simp only [here, bind, Except.bind] at checked
        unfold assertJsonSafe at here
        split at here
        · cases here
        · rename_i jsonSafe
          rw [List.all_cons, ih checked, JsValue.cloneable_of_jsonSafe _ _ jsonSafe]
          rfl

theorem requestVerdict_cloneable (verdict : requestVerdict request = .ok ()) :
    (request.internal.state.all fun entry => entry.2.cloneable) = true := by
  unfold requestVerdict at verdict
  cases safe : frontierSafe request with
  | error => simp [safe, bind, Except.bind] at verdict
  | ok =>
    cases serialized : serializeState request.internal.state with
    | error => simp [safe, serialized, bind, Except.bind] at verdict
    | ok => exact serializeState_cloneable serialized

namespace GateRound

variable {config : WorkflowConfig} {threadId : String} {order : RowOrder}
variable (round : GateRound config threadId order)

def exit : Exit :=
  gateExit round.args (round.internal.emptied round.plan.nextId) round.gated
    round.rest

def now : Nat := (round.args.env round.internal.stepsThisInvocation).now

theorem stored :
    persistVerdict round.args round.exit.request round.store = .ok true ∧
      round.held.store =
        round.exit.request.storedIn round.args round.now round.store := by
  obtain ⟨sameConfig, sameThread⟩ := round.top.args_eq
  have decided := decideRound_gated round.live
    (by rw [sameConfig]; exact round.below)
    (by rw [sameConfig]; exact round.planned) round.result
  have unused := round.top.fresh.stored.older
  have ends : (driveRound round.args round.internal).ensures
      (storeHandler order) (fun _ _ => True)
      (fun _ final _ => final = round.store ∨
        persistVerdict round.args round.exit.request round.store = .ok true ∧
        final = round.exit.request.storedIn round.args round.now round.store)
      round.store [] := by
    apply ensures_driveRound
    · intros
      trivial
    · intro fault finished
      rw [decided] at finished
      cases finished
    · intro exit finished
      rw [decided] at finished ⊢
      cases finished
      apply ensures_performExit trivial
      · exact fun error _ => .inl rfl
      · exact fun _ => .inl rfl
      · intros
        trivial
      · exact fun verdict => .inr ⟨verdict, rfl⟩
  rcases Program.run_of_ensures ends with untouched | stored
  · have reported := round.reported
    rw [untouched] at reported
    obtain ⟨tuple, latest, own⟩ := Option.map_eq_some_iff.mp reported
    have older : tuple.checkpoint.id.Older round.internal.run
        round.internal.nextId := unused tuple (CheckpointStore.latest_mem latest).1
    rw [own] at older
    have grows := Fresh.planned_le round.planned
    rcases older with earlier | ⟨-, below⟩
    · exact absurd earlier (Nat.lt_irrefl _)
    · exact absurd below (Nat.not_lt.mpr grows)
  · exact stored

def record : PendingPauseRecord := (staticBeforePause round.gated).throughJson

def entries : List DynamicEntry :=
  round.rest.map fun task => (DynamicEntry.ofTask task).throughJson

theorem split : ∃ before after,
    round.plan.planned = before ++ round.gated :: after ∧
      round.rest = before ++ after ∧ isGated config round.gated = true :=
  have ⟨before, after, planned, rest, closed, _⟩ :=
    planTasks_gated round.planned round.result
  ⟨before, after, planned, rest, closed⟩

theorem latest : ∃ tuple,
    round.held.store.latest threadId (namespaceFor config) = some tuple ∧
      tuple.checkpoint.stepNumber = round.internal.stepNumber ∧
      tuple.checkpoint.id.run = round.internal.run ∧
      HeldAt config round.record round.entries tuple := by
  obtain ⟨verdict, stored⟩ := round.stored
  obtain ⟨tuple, latest, own⟩ := Option.map_eq_some_iff.mp round.reported
  have member : tuple ∈ round.held.store := (CheckpointStore.latest_mem latest).1
  rw [stored] at member
  obtain ⟨checkpoint, metadata⟩ := storedIn_own member own
  obtain ⟨-, -, -, -, closed⟩ := round.split
  have held := @heldAt_gateExit round.args
    (round.internal.emptied round.plan.nextId) round.gated round.rest rfl
    (by rw [round.top.args_eq.1]; exact closed)
    (requestVerdict_cloneable (persistVerdict_stored verdict).1) round.now
    tuple.pendingWrites
  rw [round.top.args_eq.1] at held
  refine ⟨tuple, latest, by rw [checkpoint]; rfl, by rw [checkpoint]; rfl, ?_⟩
  rw [show tuple = ⟨round.exit.request.checkpoint round.args round.now,
    round.exit.request.metadata round.args, tuple.pendingWrites⟩ by
      rw [← checkpoint, ← metadata]]
  exact held

theorem older : round.held.store.Every fun checkpoint _ =>
    checkpoint.id.run < round.log.length := by
  rw [round.stored.2]
  refine CheckpointStore.Every.storedIn ?_ round.logged
  refine round.top.fresh.stored.older.mono fun checkpoint _ known => ?_
  have logged := round.logged
  rcases known with earlier | ⟨same, -⟩ <;> omega

variable {tuple : CheckpointTuple}

theorem missing_iff (held : HeldAt config round.record round.entries tuple) :
    missingNodes config (readFrontier tuple.metadata) = [] ↔
      ∀ task ∈ round.plan.planned, task.nodeName = startNode ∨
        Record.has config.nodes task.nodeName = true := by
  obtain ⟨before, after, planned, rest, -⟩ := round.split
  have nodes : ∀ node, (node = round.record.nodeName ∨
      node ∈ round.entries.map DynamicEntry.nodeName) ↔
      node ∈ round.plan.planned.map PlannedTask.nodeName := by
    intro node
    rw [planned, entries, rest]
    simp only [record, PendingPauseRecord.throughJson, staticBeforePause,
      List.map_map, List.map_append, List.map_cons, List.mem_append, List.mem_cons]
    show _ ∨ (node ∈ before.map PlannedTask.nodeName ∨
      node ∈ after.map PlannedTask.nodeName) ↔ _
    tauto
  rw [held.frontier, missingNodes_eq_nil]
  simp only [List.map_cons, List.map_nil, List.append_nil, List.singleton_append,
    List.mem_cons]
  constructor
  · intro known task member
    exact known _ ((nodes _).mpr (List.mem_map_of_mem member))
  · intro known node member
    obtain ⟨task, inside, rfl⟩ := List.mem_map.mp ((nodes node).mp member)
    exact known task inside

theorem gated_listed : round.gated ∈ round.gates := by
  obtain ⟨before, after, planned, -, closed⟩ := round.split
  refine List.mem_filter.mpr ⟨by rw [planned]; simp, ?_⟩
  simpa using (isGated_listed closed).2

/-- Nothing else is gated exactly when no dynamic entry will be. -/
theorem single_iff : round.gates.length = 1 ↔
    ∀ entry ∈ round.entries, entry.nodeName ∉ config.pauseAt.before := by
  obtain ⟨before, after, planned, rest, closed⟩ := round.split
  have listed := (isGated_listed closed).2
  have counted : round.gates.length = (round.rest.filter fun task =>
      config.pauseAt.before.contains task.nodeName).length + 1 := by
    rw [gates, planned, rest, List.filter_append, List.filter_append,
      List.filter_cons_of_pos (by simpa using listed), List.length_append,
      List.length_append, List.length_cons]
    omega
  rw [counted, Nat.add_eq_right, List.length_eq_zero_iff, List.filter_eq_nil_iff]
  constructor
  · intro ungated entry member
    obtain ⟨task, inside, rfl⟩ := List.mem_map.mp member
    show task.nodeName ∉ config.pauseAt.before
    simpa using ungated task inside
  · intro ungated task member
    have entry : task.nodeName ∉ config.pauseAt.before :=
      ungated _ (List.mem_map_of_mem member)
    simpa using entry

theorem blocked (closed : ¬ round.Passable) :
    BlockedThread config threadId round.log.length round.held.store := by
  obtain ⟨tuple, latest, steps, -, held⟩ := round.latest
  refine ⟨round.older, tuple, latest, ?_⟩
  by_cases single : round.gates.length = 1
  · by_cases known : ∀ task ∈ round.plan.planned, task.nodeName = startNode ∨
        Record.has config.nodes task.nodeName = true
    · have spent : ∃ cap, config.maxTotalSteps = some cap ∧
          cap ≤ round.internal.stepNumber + 1 := by
        by_contra unspent
        refine closed ⟨single, known, fun cap total => ?_⟩
        exact Nat.lt_of_not_le fun reached => unspent ⟨cap, total, reached⟩
      obtain ⟨cap, total, reached⟩ := spent
      exact .spent held cap total (by rw [steps]; exact reached)
    · exact .missing held fun none => known ((round.missing_iff held).mp none)
  · rw [single_iff] at single
    push Not at single
    obtain ⟨entry, member, listed⟩ := single
    exact .gated held entry member listed

theorem opens (passable : round.Passable)
    (steps : tuple.checkpoint.stepNumber = round.internal.stepNumber)
    (held : HeldAt config round.record round.entries tuple) (options : InvocationOptions)
    (run : Nat) (resume : JsValue) : Open (driveArgs config threadId options)
      (restoredGate run resume round.record round.entries tuple.checkpoint) where
  first := rfl
  idle := rfl
  unpaused := rfl
  pending := by simp [restoredGate]
  ungated := by
    intro task member
    rcases List.mem_append.mp member with waiting | approved
    · obtain ⟨placed, inside, rfl⟩ := List.mem_map.mp waiting
      have entry : placed.1 ∈ round.entries := by
        rw [← List.zipIdx_map_fst 0 round.entries]
        exact List.mem_map_of_mem inside
      have unlisted := round.single_iff.mp passable.1 placed.1 entry
      simp [isGated, dynamicTask, driveArgs, unlisted]
    · rw [List.mem_singleton.mp approved]
      rfl
  below := by
    have room := (capReached_none _ _ round.below).1
    have unspent : config.maxTotalSteps.filter (fun cap =>
        decide (tuple.checkpoint.stepNumber + 1 ≥ cap)) = none := by
      rw [Option.filter_eq_none_iff]
      intro cap total
      have below := passable.2.2 cap total
      rw [steps]
      simpa using below
    show (if 0 ≥ config.stepCap then _ else _) = none
    rw [if_neg (by omega)]
    exact Option.map_eq_none_iff.mpr unspent
  cloned := held.cloned

theorem pending_origins (run : Nat) (resume : JsValue) :
    (restoredGate run resume round.record round.entries
        tuple.checkpoint).pendingDynamicTasks.map PlannedTask.origin =
      round.rest.map PlannedTask.origin ++ [round.gated.origin] := by
  have dynamic := dynamicTasks_origins run { dynamic := round.entries }
  unfold dynamicTasks at dynamic
  rw [restoredGate, List.map_append, dynamic, entries, List.map_map]
  rfl

/-- The activation was planned before any of the resumes, and once. -/
theorem gated_once :
    (round.rest.map PlannedTask.origin ++ [round.gated.origin]).count
        round.gated.origin = 1 ∧ round.gated.origin.run < round.log.length := by
  obtain ⟨before, after, planned, rest, -⟩ := round.split
  have fresh := round.top.fresh.tasks.planned round.planned
  have member : round.gated ∈ round.plan.planned := by rw [planned]; simp
  have logged := round.logged
  constructor
  · have once := fresh.origins
    have moved : (round.rest.map PlannedTask.origin ++
        [round.gated.origin]).Perm
          (round.plan.planned.map PlannedTask.origin) := by
      rw [planned, rest, ← List.map_singleton (f := PlannedTask.origin),
        ← List.map_append]
      refine List.Perm.map _ ?_
      rw [List.append_assoc]
      exact (List.perm_append_comm).append_left before
    rw [moved.count_eq]
    exact List.count_eq_one_of_mem once (List.mem_map_of_mem member)
  · rcases fresh.known round.gated member with earlier | ⟨same, -⟩ <;> omega

theorem passes (passable : round.Passable) (plain : call.PlainResume directive) :
    round.Passed [call] := by
  obtain ⟨tuple, latest, steps, -, held⟩ := round.latest
  obtain ⟨once, earlier⟩ := round.gated_once
  have known := (round.missing_iff held).mpr passable.2.1
  let start := restoredGate round.log.length directive.resume round.record
    round.entries tuple.checkpoint
  have restores : restoreRun config
      { baseRestore threadId (call.optionsAt round.log.length) with
        directive := directive } (order.read tuple) = .ok start := by
    rw [held.restoreRun plain.straight plain.silent, known]
    rfl
  have unowned : OwnGates start.run round.held.store :=
    round.older.mono fun checkpoint _ below above =>
      absurd below (Nat.not_lt.mpr above)
  have opens := round.opens passable steps held
    (call.optionsAt round.log.length) round.log.length directive.resume
  obtain ⟨gates, first, later, ran, waited, own⟩ := plain.play
    (ensures_resumed trivial plain.checked latest restores
      (@through_driveReporting order _ start _ _ opens unowned rfl
        plain.unaborted))
  have logged : (round.resumed [call]).log = round.log ++
      [(call.play config threadId order round.log.length
        round.held.store).1] := rfl
  constructor
  · intro task member
    obtain ⟨only, single⟩ := List.length_eq_one_iff.mp passable.1
    have same : task = round.gated := by
      have listed := round.gated_listed
      rw [single, List.mem_singleton] at member listed
      rw [member, listed]
    have unlater : later.count round.gated.origin = 0 := by
      refine List.count_eq_zero.mpr fun member => ?_
      have runs : round.gated.origin.run = round.log.length := own _ member
      omega
    rw [logged, List.drop_left, List.flatten_cons, List.flatten_nil,
      List.append_nil, ran, List.count_append, same, unlater, waited.count_eq,
      round.pending_origins, once]
  · intro before other after split seen record found member static
    obtain ⟨rfl, rfl⟩ : before = [] ∧ after = [] := by
      cases before with
      | nil => simpa using (List.cons.inj split).2
      | cons => simp at split
    cases latest.symm.trans found
    have answered : record = round.record := by
      rw [held.frontier] at member
      exact List.mem_singleton.mp member
    refine CheckpointStore.Every.mono gates ?_
    intro checkpoint metadata owned above later inside gate same
    have ran := owned above later inside gate
    rw [same, answered] at ran
    exact absurd ran (Nat.ne_of_lt earlier)

end GateRound

/-- Plain resumes get every gated task of a round to run exactly once if and
only if no other task was gated beside the first, the thread can be resumed at
all and its lifetime cap leaves a step. -/
theorem gates_pass_iff {config : WorkflowConfig} {threadId : String}
    {order : RowOrder} (round : GateRound config threadId order) {calls : List Call}
    (plain : ∀ call ∈ calls, ∃ directive, call.PlainResume directive)
    (each : calls.length = round.gates.length) :
    round.Passed calls ↔ round.Passable := by
  constructor
  · intro passed
    by_contra closed
    obtain ⟨seen, logged, silent⟩ := @stuck_resumes config threadId order calls
      plain round.held (round.blocked closed)
    have once := passed.1 round.gated round.gated_listed
    rw [GateRound.resumed, logged, show round.held.log = round.log from rfl,
      List.drop_left, ranOrigins, silent] at once
    cases once
  · intro passable
    obtain ⟨call, rfl⟩ := List.length_eq_one_iff.mp (each.trans passable.1)
    obtain ⟨directive, first⟩ := plain call List.mem_cons_self
    exact round.passes passable first

def gateConfig (nodes : List String) : WorkflowConfig where
  name := "gate"
  nodes := nodes.map fun node => (node, { run := fun _ _ => .ret .nothing })
  edges := nodes.flatMap fun node =>
    [⟨startNode, node, none⟩, ⟨node, endNode, none⟩]
  channels := []
  pauseAt := { before := nodes }

def plainCall : Call where
  invocation := .resume {}
  options := { run := 0 }

theorem plainCall_plain : plainCall.PlainResume {} :=
  ⟨rfl, rfl, rfl, rfl, rfl, fun _ => ⟨rfl, rfl, rfl⟩⟩

def singleGate : GateRound (gateConfig ["a"]) "t" .inserted where
  args := driveArgs (gateConfig ["a"]) "t" { run := 0 }
  internal := initialInternal (gateConfig ["a"]) [] 0
  store := []
  plan := ⟨[edgeTask 0 0 "a"], .suspendBefore (edgeTask 0 0 "a") [], 1⟩
  gated := edgeTask 0 0 "a"
  rest := []
  log := [[]]
  top := .started { run := 0 } [] .unused
  live := rfl
  below := rfl
  planned := rfl
  result := rfl
  logged := by decide
  reported := rfl

theorem single_gate_passes : singleGate.Passed [plainCall] := by
  refine (gates_pass_iff singleGate ?_ rfl).mpr ⟨rfl, ?_, ?_⟩
  · intro call member
    rw [List.mem_singleton.mp member]
    exact ⟨{}, plainCall_plain⟩
  · intro task member
    rw [List.mem_singleton.mp member]
    exact .inr rfl
  · rintro cap ⟨⟩

def doubleGate : GateRound (gateConfig ["a", "b"]) "t" .inserted where
  args := driveArgs (gateConfig ["a", "b"]) "t" { run := 0 }
  internal := initialInternal (gateConfig ["a", "b"]) [] 0
  store := []
  plan := ⟨[edgeTask 0 0 "a", edgeTask 0 1 "b"],
    .suspendBefore (edgeTask 0 0 "a") [edgeTask 0 1 "b"], 2⟩
  gated := edgeTask 0 0 "a"
  rest := [edgeTask 0 1 "b"]
  log := [[]]
  top := .started { run := 0 } [] .unused
  live := rfl
  below := rfl
  planned := rfl
  result := rfl
  logged := by decide
  reported := rfl

theorem double_gate_stays_closed :
    ¬ ∀ (config : WorkflowConfig) (threadId : String) (order : RowOrder)
      (round : GateRound config threadId order) (calls : List Call),
      validateConfig config = .ok () →
      (∀ call ∈ calls, ∃ directive, call.PlainResume directive) →
      calls.length = round.gates.length → round.Passed calls := by
  intro always
  have passed := always _ _ _ doubleGate [plainCall, plainCall] rfl (by
    intro call member
    have same : call = plainCall := by simpa using member
    rw [same]
    exact ⟨{}, plainCall_plain⟩) rfl
  have ran : (ranOrigins ((doubleGate.resumed [plainCall, plainCall]).log.drop
      doubleGate.log.length).flatten).count doubleGate.gated.origin = 0 := rfl
  have once := passed.1 doubleGate.gated doubleGate.gated_listed
  rw [ran] at once
  cases once

end Graphorin.Workflow
