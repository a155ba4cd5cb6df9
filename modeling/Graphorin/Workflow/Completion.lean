import Graphorin.Workflow.History
import Graphorin.Workflow.Reports
import Graphorin.Workflow.Restored

namespace Graphorin.Workflow

open Graphorin.Lib
open Graphorin.Js

/-! Completion is earned: a thread completes only in a round where a completed
node has a satisfied edge to `__end__`, as long as no retry starts from a
failed checkpoint that restores to nothing. -/

/-- Some of `nodes` has an edge to `__end__` that fires in `state`. -/
def EndEdge (config : WorkflowConfig) (state : State) (nodes : List String) :
    Prop :=
  ∃ nodeName ∈ nodes, ∃ edge ∈ config.edges,
    edge.source = nodeName ∧ edge.target = endNode ∧
      edgeFires state edge = .ok true

theorem endEdgeFires_sound (fires : endEdgeFires state nodeName edges = .ok true) :
    ∃ edge ∈ edges, edge.source = nodeName ∧ edge.target = endNode ∧
      edgeFires state edge = .ok true := by
  induction edges with
  | nil => cases fires
  | cons edge rest ih =>
    unfold endEdgeFires at fires
    split at fires
    · rename_i ends
      cases looked : edgeFires state edge with
      | error => simp [looked, bind, Except.bind] at fires
      | ok fired =>
        cases fired with
        | true => exact ⟨edge, by simp, ends.1, ends.2, looked⟩
        | false =>
          simp only [looked, bind, Except.bind, Bool.false_eq_true,
            if_false] at fires
          obtain ⟨found, member, sound⟩ := ih fires
          exact ⟨found, List.mem_cons_of_mem _ member, sound⟩
    · obtain ⟨found, member, sound⟩ := ih fires
      exact ⟨found, List.mem_cons_of_mem _ member, sound⟩

variable {config : WorkflowConfig}

theorem reachableEnd_sound (ends : reachableEnd config state nodes = .ok true) :
    EndEdge config state nodes := by
  induction nodes with
  | nil => cases ends
  | cons nodeName _ ih =>
    unfold reachableEnd at ends
    cases looked : endEdgeFires state nodeName config.edges with
    | error => simp [looked, bind, Except.bind] at ends
    | ok fired =>
      cases fired with
      | true =>
        obtain ⟨edge, member, sound⟩ := endEdgeFires_sound looked
        exact ⟨nodeName, by simp, edge, member, sound⟩
      | false =>
        simp only [looked, bind, Except.bind, Bool.false_eq_true, if_false] at ends
        obtain ⟨found, member, edge, sound⟩ := ih ends
        exact ⟨found, List.mem_cons_of_mem _ member, edge, sound⟩

def lastPlan (last : Option (RunInternalState × List PlannedTask)) :
    List Obs → Option (RunInternalState × List PlannedTask)
  | [] => last
  | .planned internal tasks :: rest => lastPlan (some (internal, tasks)) rest
  | .event _ :: rest => lastPlan last rest
  | .ran _ :: rest => lastPlan last rest

/-- The round behind a completion: it planned nothing and an edge to `__end__`
was satisfied. -/
structure EarnedIn (config : WorkflowConfig) (internal : RunInternalState)
    (tasks : List PlannedTask) : Prop where
  idle : tasks = []
  ends : EndEdge config internal.state internal.lastCompletedNodes

/-- Each `workflow.end` of a log stands in a round that earned it. -/
def EndsEarned (config : WorkflowConfig) :
    Option (RunInternalState × List PlannedTask) → List Obs → Prop
  | _, [] => True
  | _, .planned internal tasks :: rest =>
    EndsEarned config (some (internal, tasks)) rest
  | last, .event (.ended _ state) :: rest =>
    (∃ internal tasks, last = some (internal, tasks) ∧
      internal.state = state ∧ EarnedIn config internal tasks) ∧
    EndsEarned config last rest
  | last, _ :: rest => EndsEarned config last rest

/-- Neither a plan nor a `workflow.end`. -/
def Obs.quiet : Obs → Bool
  | .planned _ _ => false
  | .event (.ended _ _) => false
  | _ => true

theorem EndsEarned.append (first : EndsEarned config last before)
    (second : EndsEarned config (lastPlan last before) after) :
    EndsEarned config last (before ++ after) := by
  induction before generalizing last with
  | nil => exact second
  | cons obs _ ih =>
    cases obs with
    | planned => exact ih first second
    | ran => exact ih first second
    | event event =>
      cases event with
      | ended => exact ⟨first.1, ih first.2 second⟩
      | _ => exact ih first second

theorem EndsEarned.quiet (calm : ∀ obs ∈ observations, obs.quiet = true)
    (last : Option (RunInternalState × List PlannedTask)) :
    EndsEarned config last observations := by
  induction observations with
  | nil => trivial
  | cons obs _ ih =>
    have later := ih fun obs member => calm obs (List.mem_cons_of_mem _ member)
    have here := calm obs (by simp)
    cases obs with
    | planned => cases here
    | ran => exact later
    | event event =>
      cases event with
      | ended => cases here
      | _ => exact later

theorem EndsEarned.left (both : EndsEarned config last (before ++ after)) :
    EndsEarned config last before := by
  induction before generalizing last with
  | nil => trivial
  | cons obs _ ih =>
    cases obs with
    | planned => exact ih both
    | ran => exact ih both
    | event event =>
      cases event with
      | ended => exact ⟨both.1, ih both.2⟩
      | _ => exact ih both

theorem lastPlan_append (last : Option (RunInternalState × List PlannedTask))
    (before after : List Obs) :
    lastPlan last (before ++ after) = lastPlan (lastPlan last before) after := by
  induction before generalizing last with
  | nil => rfl
  | cons obs _ ih => cases obs <;> exact ih _

theorem lastPlan_quiet (calm : ∀ obs ∈ observations, obs.quiet = true)
    (last : Option (RunInternalState × List PlannedTask)) :
    lastPlan last observations = last := by
  induction observations with
  | nil => rfl
  | cons obs _ ih =>
    have later := ih fun obs member => calm obs (List.mem_cons_of_mem _ member)
    have here := calm obs (by simp)
    cases obs with
    | planned => cases here
    | ran => exact later
    | event => exact later

def FrontierEnvelope.hasWork (frontier : FrontierEnvelope) : Prop :=
  frontier.pauses ≠ [] ∨ frontier.dynamic ≠ [] ∨ frontier.completed ≠ []

def Restorable (metadata : CheckpointMetadata) : Prop :=
  (readFrontier metadata).hasWork ∨
    ((metadata.status = .failed ∨ metadata.status = .aborted) ∧
      (readFrontier metadata).stepTasks ≠ [])

def CompletedIn (config : WorkflowConfig) (log : List Obs)
    (checkpoint : Checkpoint) : Prop :=
  ∃ internal tasks, .planned internal tasks ∈ log ∧
    internal.state = checkpoint.state ∧
    internal.stepNumber = checkpoint.stepNumber ∧
    EarnedIn config internal tasks

structure Sound (config : WorkflowConfig) (logs : List (List Obs))
    (checkpoint : Checkpoint) (metadata : CheckpointMetadata) : Prop where
  open_restorable : metadata.status = .running ∨ metadata.status = .suspended ∨
    metadata.status = .aborted → Restorable metadata
  completed_earned : metadata.status = .completed →
    ∃ log, logs[checkpoint.id.run]? = some log ∧
      CompletedIn config log checkpoint

/-- A retry is not started from a failed checkpoint that restores to
nothing. -/
def RetryRestores (config : WorkflowConfig) (threadId : String)
    (thread : Thread) (call : Call) : Prop :=
  call.invocation = .retry → ∀ tuple,
    thread.store.latest threadId (namespaceFor config) = some tuple →
    tuple.metadata.status = .failed → Restorable tuple.metadata

theorem quiet_inStep {obs : Obs} (inside : obs.inStep = true) :
    obs.quiet = true := by
  cases obs with
  | planned => cases inside
  | ran => rfl
  | event event =>
    cases event with
    | ended => cases inside
    | _ => rfl

theorem quiet_reportIf {wanted : Bool} (calm : (Obs.event event).quiet = true) :
    ∀ obs ∈ reportIf wanted event, obs.quiet = true := by
  intro obs member
  unfold reportIf at member
  split at member
  · rw [List.mem_singleton.mp member]
    exact calm
  · cases member

theorem quiet_checkpointReport (args : DriveRunArgs)
    (internal : RunInternalState) (checkpointId : Option Id) :
    ∀ obs ∈ args.checkpointReport internal checkpointId, obs.quiet = true := by
  cases checkpointId with
  | none => simp [DriveRunArgs.checkpointReport]
  | some => exact quiet_reportIf rfl

structure Earning (config : WorkflowConfig) (logs : List (List Obs))
    (store : CheckpointStore) (past : List Obs) : Prop where
  every : store.Every (Sound config (logs ++ [past]))
  emitted : EndsEarned config none past

theorem Sound.extend {config : WorkflowConfig} {logs : List (List Obs)}
    {past : List Obs} (more : List Obs) {checkpoint : Checkpoint}
    {metadata : CheckpointMetadata}
    (sound : Sound config (logs ++ [past]) checkpoint metadata) :
    Sound config (logs ++ [past ++ more]) checkpoint metadata where
  open_restorable := sound.open_restorable
  completed_earned := by
    intro completed
    obtain ⟨log, found, internal, tasks, member, known⟩ :=
      sound.completed_earned completed
    by_cases earlier : checkpoint.id.run < logs.length
    · rw [List.getElem?_append_left earlier] at found
      exact ⟨log, by rw [List.getElem?_append_left earlier, found], internal,
        tasks, member, known⟩
    · rw [List.getElem?_append_right (by omega)] at found
      obtain ⟨here, rfl⟩ : checkpoint.id.run - logs.length = 0 ∧ past = log := by
        cases distance : checkpoint.id.run - logs.length with
        | zero => simpa [distance] using found
        | succ => simp [distance] at found
      refine ⟨past ++ more, ?_, internal, tasks,
        List.mem_append_left _ member, known⟩
      rw [List.getElem?_append_right (by omega), here]
      rfl

theorem Earning.extend {config : WorkflowConfig} {logs : List (List Obs)}
    {store : CheckpointStore} {past more : List Obs}
    (earning : Earning config logs store past)
    (later : EndsEarned config (lastPlan none past) more) :
    Earning config logs store (past ++ more) where
  every := earning.every.mono fun _ _ sound => sound.extend more
  emitted := earning.emitted.append later

variable {logs : List (List Obs)} {store : CheckpointStore}

theorem Earning.quiet (earning : Earning config logs store past)
    (calm : ∀ obs ∈ more, obs.quiet = true) :
    Earning config logs store (past ++ more) :=
  earning.extend (EndsEarned.quiet calm _)

theorem Earning.first (earning : Earning config logs store []) (calm : obs.quiet = true) :
    Earning config logs store [obs] :=
  Earning.extend earning (EndsEarned.quiet (by simpa using calm) _)

theorem Earning.acts (earning : Earning config logs store past) (args : DriveRunArgs)
    (acts : List Act) : Earning config logs (actsStore args store acts) past  where
  every := earning.every.acts args acts
  emitted := earning.emitted

section Round

variable {args : DriveRunArgs} {logs : List (List Obs)} {order : RowOrder}

variable {exit : Exit}

theorem earning_performExit (earning : Earning args.config logs store past)
    (sound : Sound args.config (logs ++ [past]) (exit.request.checkpoint args now)
      (exit.request.metadata args))
    (reports : ∀ checkpointId, EndsEarned args.config (lastPlan none past)
      (exit.report checkpointId)) :
    (performExit args now exit).ensures (storeHandler order)
      (Earning args.config logs)
      (fun result store past => Earning args.config logs store past ∧
        ∀ next, result = .ok next →
          ∃ checkpointId, next = exit.next checkpointId) store past := by
  apply ensures_performExit earning
  · intro error _
    exact ⟨earning, by rintro _ ⟨⟩⟩
  · intro _
    refine ⟨earning.extend (reports _), ?_⟩
    rintro _ ⟨⟩
    exact ⟨_, rfl⟩
  · intro _ before after _
    exact ⟨(earning.every.insert sound).putAll _ _ _, earning.emitted⟩
  · intro _
    refine ⟨?_, ?_⟩
    · exact Earning.extend ⟨earning.every.storedIn sound, earning.emitted⟩
        (reports _)
    · rintro _ ⟨⟩
      exact ⟨_, rfl⟩

def RunInternalState.hasWork (internal : RunInternalState) : Prop :=
  internal.pendingDynamicTasks ≠ [] ∨ internal.lastCompletedNodes ≠ []

structure Driving (config : WorkflowConfig) (logs : List (List Obs))
    (internal : RunInternalState) (store : CheckpointStore)
    (past : List Obs) : Prop where
  work : internal.hasWork
  run : internal.run = logs.length
  earning : Earning config logs store past

variable {config : WorkflowConfig}

variable {checkpoint : Checkpoint}

theorem Sound.failed (failed : metadata.status = .failed) :
    Sound config logs checkpoint metadata where
  open_restorable := by simp [failed]
  completed_earned := by simp [failed]

theorem Sound.restorable (unfinished : metadata.status ≠ .completed)
    (restorable : Restorable metadata) : Sound config logs checkpoint metadata where
  open_restorable := fun _ => restorable
  completed_earned := fun completed => absurd completed unfinished

theorem restorable_of_frontier {request : PersistRequest}
    {frontier : FrontierEnvelope} (written : request.frontier = some frontier)
    (work : frontier.hasWork) : Restorable (request.metadata args) := by
  left
  simpa [readFrontier, PersistRequest.metadata, written, encodeFrontier,
    FrontierEnvelope.hasWork] using work

variable {internal : RunInternalState}

theorem frontierFromInternal_hasWork (work : internal.hasWork) :
    (frontierFromInternal config internal).hasWork := by
  right
  simpa [frontierFromInternal, RunInternalState.hasWork] using work

/-- The step that sends the loop on leaves its completed nodes behind. -/
theorem running_work (nonempty : tasks ≠ [])
    (clean : nodeFailureOf args env tasks (stepRun args env internal tasks).outcomes = none)
    (pauses : stepPauses args.config
      (orderedOutcomes tasks (stepRun args env internal tasks).outcomes) = []) :
    completedNodesOf (orderedOutcomes tasks
      (stepRun args env internal tasks).outcomes) ≠ [] := by
  obtain ⟨task, others, rfl⟩ := List.exists_cons_of_ne_nil nonempty
  have reached : ∃ outcome ∈
      (stepRun args env internal (task :: others)).outcomes,
        outcome.task = task :=
    stepRun_reaches (nodeFailureOf_none clean).1 List.mem_cons_self
  obtain ⟨outcome, member, owned⟩ := reached
  cases found : (stepRun args env internal (task :: others)).outcomes.find?
      fun outcome => outcome.task.taskId == task.taskId with
  | none =>
    have missed := List.find?_eq_none.mp found outcome member
    simp [owned] at missed
  | some settled =>
    have ordered : settled ∈ orderedOutcomes (task :: others)
        (stepRun args env internal (task :: others)).outcomes :=
      List.mem_filterMap.mpr ⟨task, by simp, found⟩
    have completed := running_completes clean pauses settled ordered
    have kept : settled ∈ completedOnly (orderedOutcomes (task :: others)
        (stepRun args env internal (task :: others)).outcomes) :=
      List.mem_filter.mpr ⟨ordered, by simp [completed]⟩
    intro empty
    rw [completedNodesOf, List.map_eq_nil_iff] at empty
    rw [empty] at kept
    cases kept

/-- The acts of a round plan at most once and never end the thread. -/
theorem Decided.acts_earned {round : Round} (decided : Decided args internal round)
    (last : Option (RunInternalState × List PlannedTask)) :
    EndsEarned args.config last (actsObs round.acts) := by
  rcases decided.acts_inStep with empty | ⟨tasks, rest, acts, inside⟩
  · rw [empty]
    trivial
  · rw [acts]
    exact EndsEarned.quiet (fun obs member => quiet_inStep (inside obs member)) _

structure ExitEarned (config : WorkflowConfig) (args : DriveRunArgs)
    (logs : List (List Obs)) (past : List Obs) (now run : Nat)
    (exit : Exit) : Prop where
  sound : Sound config (logs ++ [past]) (exit.request.checkpoint args now)
    (exit.request.metadata args)
  reports : ∀ checkpointId,
    EndsEarned config (lastPlan none past) (exit.report checkpointId)
  next : ∀ checkpointId internal, exit.next checkpointId = .loop internal →
    internal.lastCompletedNodes ≠ [] ∧ internal.run = run

theorem Settled.earned {env : RoundEnv} {tasks : List PlannedTask} {reports : List Obs}
    (nonempty : tasks ≠ [])
    (settled : Settled args env (stepInternal args env internal tasks) tasks
      (stepRun args env internal tasks).outcomes (reports, exit))
    (past : List Obs) (now : Nat) :
    ExitEarned args.config args logs past now internal.run exit := by
  cases settled with
  | failed =>
    refine ⟨?_, fun id => EndsEarned.quiet (quiet_checkpointReport _ _ id) _,
      by rintro _ _ ⟨⟩⟩
    refine Sound.restorable ?_ (.inr ⟨?_, ?_⟩)
    · show (if _ then CheckpointStatus.aborted else .failed) ≠ .completed
      split <;> simp
    · show (if _ then CheckpointStatus.aborted else .failed) = .failed ∨
        (if _ then CheckpointStatus.aborted else .failed) = .aborted
      split <;> simp
    · simpa [readFrontier, PersistRequest.metadata, failureExit,
        terminalExit, encodeFrontier, stepTasksOf] using nonempty
  | unmerged =>
    exact ⟨Sound.failed rfl,
      fun id => EndsEarned.quiet (quiet_checkpointReport _ _ id) _,
      by rintro _ _ ⟨⟩⟩
  | invalid =>
    exact ⟨Sound.failed rfl,
      fun id => EndsEarned.quiet (quiet_checkpointReport _ _ id) _,
      by rintro _ _ ⟨⟩⟩
  | suspended =>
    refine ⟨?_, fun id => EndsEarned.quiet ?_ _, by rintro _ _ ⟨⟩⟩
    · refine Sound.restorable (by simp [suspendedExit,
        PersistRequest.metadata]) (restorable_of_frontier rfl (.inl ?_))
      simp [frontierFromInternal]
    · intro obs member
      rcases List.mem_append.mp member with member | closing
      · rcases List.mem_append.mp member with stepped | stored
        · exact quiet_reportIf rfl obs stepped
        · exact quiet_checkpointReport _ _ _ obs stored
      · rw [List.mem_singleton.mp closing]
        rfl
  | running applied clean merged valid pauses =>
    have work := running_work nonempty clean pauses
    refine ⟨?_, fun id => EndsEarned.quiet ?_ _, ?_⟩
    · refine Sound.restorable (by simp [runningExit,
        PersistRequest.metadata]) (restorable_of_frontier rfl
          (frontierFromInternal_hasWork (.inr work)))
    · intro obs member
      rcases List.mem_append.mp member with stepped | stored
      · exact quiet_reportIf rfl obs stepped
      · exact quiet_checkpointReport _ _ _ obs stored
    · rintro _ _ ⟨⟩
      exact ⟨work, rfl⟩

theorem Decided.earned {round : Round}
    (decided : Decided args internal round) (work : internal.hasWork)
    (run : internal.run = logs.length) (finished : round.finish = .ok exit)
    (past : List Obs) (now : Nat) :
    ExitEarned args.config args logs (past ++ actsObs round.acts) now
      logs.length exit := by
  cases decided with
  | aborted =>
    cases finished
    refine ⟨?_, fun _ => trivial, by rintro _ _ ⟨⟩⟩
    exact Sound.restorable (by simp [abortExit, terminalExit,
      PersistRequest.metadata]) (restorable_of_frontier rfl
        (frontierFromInternal_hasWork work))
  | capped =>
    cases finished
    exact ⟨Sound.failed rfl, fun _ => trivial, by rintro _ _ ⟨⟩⟩
  | unplanned => cases finished
  | deadEnd =>
    cases finished
    exact ⟨Sound.failed rfl,
      fun id => EndsEarned.quiet (quiet_checkpointReport _ _ id) _,
      by rintro _ _ ⟨⟩⟩
  | gated =>
    cases finished
    refine ⟨?_, fun id => EndsEarned.quiet ?_ _, by rintro _ _ ⟨⟩⟩
    · refine Sound.restorable (by simp [gateExit, PersistRequest.metadata])
        (restorable_of_frontier rfl (.inl ?_))
      simp [frontierFromInternal]
    · intro obs member
      rcases List.mem_append.mp member with stored | closing
      · exact quiet_checkpointReport _ _ _ obs stored
      · rw [List.mem_singleton.mp closing]
        rfl
  | completed plan live below planned result =>
    cases finished
    have earned : EarnedIn args.config internal plan.planned := by
      obtain ⟨outcome, added, appended, -⟩ := planTasks_planned planned
      cases outcome with
      | gated gated rest found other => cases result.symm.trans other
      | ended idle _ ends =>
        exact ⟨idle, reachableEnd_sound ends⟩
      | deadEnd idle completed stuck other => cases result.symm.trans other
      | tasks _ busy other =>
        have idle : plan.planned = [] :=
          (PlanResult.tasks.inj (result.symm.trans other)).symm
        rw [idle] at appended
        obtain ⟨unpending, -⟩ := List.append_eq_nil_iff.mp appended.symm
        have uncompleted := busy.resolve_left (not_not_intro idle)
        exact absurd work (by
          simp [RunInternalState.hasWork, unpending, uncompleted])
    refine ⟨⟨by simp [completedExit, PersistRequest.metadata], ?_⟩, ?_,
      by rintro _ _ ⟨⟩⟩
    · intro _
      refine ⟨past ++ [.planned internal plan.planned], ?_, internal,
        plan.planned, by simp, rfl, rfl, earned⟩
      show (logs ++ _)[internal.run]? = _
      rw [run, List.getElem?_append_right (by omega), Nat.sub_self]
      rfl
    · intro id
      refine EndsEarned.append (EndsEarned.quiet
        (quiet_checkpointReport _ _ id) _) ⟨⟨internal, plan.planned, ?_, rfl,
          earned⟩, trivial⟩
      rw [lastPlan_quiet (quiet_checkpointReport _ _ id), lastPlan_append]
      rfl
  | uncloneable =>
    cases finished
  | stepped plan tasks reports exit live below planned result nonempty cloned settled =>
    cases finished
    rw [← run]
    exact settled.earned nonempty _ now

theorem driving_round {internal : RunInternalState} {store : CheckpointStore}
    {past : List Obs} (driving : Driving args.config logs internal store past) :
    (driveRound args internal).ensures (storeHandler order)
      (Earning args.config logs) (roundPost (Driving args.config logs)
        (reporting args.threadId fun _ => Earning args.config logs))
      store past := by
  have decided := decideRound_decided args internal
  have acted : Earning args.config logs
      (actsStore args store (decideRound args internal).acts)
      (past ++ actsObs (decideRound args internal).acts) :=
    (driving.earning.acts args _).extend (decided.acts_earned _)
  apply ensures_driveRound
  · intro before after split
    refine (driving.earning.acts args before).extend ?_
    have earned := decided.acts_earned (lastPlan none past)
    rw [split, actsObs_append] at earned
    exact earned.left
  · intro fault _
    exact acted.quiet (by simp [emitError, Obs.quiet])
  · intro exit finished
    have earned := decided.earned driving.work driving.run finished past
      (args.env internal.stepsThisInvocation).now
    refine Program.ensures_mono ?_
      (earning_performExit acted earned.sound earned.reports)
    rintro result store past ⟨earning, known⟩
    have quietError : ∀ fault, Earning args.config logs store
        (past ++ [emitError args.threadId fault]) := fun fault =>
      earning.quiet (by simp [emitError, Obs.quiet])
    match result with
    | .error fault => exact quietError fault
    | .ok (.raise fault) => exact quietError fault
    | .ok .close => exact earning
    | .ok (.loop again) =>
      obtain ⟨checkpointId, reached⟩ := known _ rfl
      obtain ⟨work, run⟩ := earned.next _ _ reached.symm
      have driving : Driving args.config logs again store past :=
        ⟨.inr work, run, earning⟩
      show Program.ensures _ _ _ (ite _ _ _) _ _
      split
      · have aborts : ExitEarned args.config args logs past
            (args.env internal.stepsThisInvocation).now logs.length
            (abortExit args again) := by
          refine ⟨?_, fun _ => trivial, by rintro _ _ ⟨⟩⟩
          exact Sound.restorable (by simp [abortExit, terminalExit,
            PersistRequest.metadata]) (restorable_of_frontier rfl
              (frontierFromInternal_hasWork driving.work))
        refine Program.ensures_mono ?_
          (earning_performExit earning aborts.sound aborts.reports)
        rintro result store past ⟨earning, known⟩
        have quietError : ∀ fault, Earning args.config logs store
            (past ++ [emitError args.threadId fault]) := fun fault =>
          earning.quiet (by simp [emitError, Obs.quiet])
        match result with
        | .error fault => exact quietError fault
        | .ok (.raise fault) => exact quietError fault
        | .ok .close => exact earning
        | .ok (.loop third) =>
          obtain ⟨checkpointId, reached⟩ := known _ rfl
          cases reached
      · exact driving

end Round

theorem fanOutRecord_hasWork (internal : RunInternalState)
    (record : PendingPauseRecord) (fresh : Option JsValue) :
    (fanOutRecord internal record fresh).hasWork := by
  unfold fanOutRecord
  split
  · right
    show (if _ then _ else _) ≠ _
    split
    · rename_i present
      intro empty
      simp [empty] at present
    · simp
  · left
    simp

variable {internal : RunInternalState}

theorem fanOut_hasWork {resume : JsValue} (work : internal.hasWork ∨ pauses ≠ []) :
    (fanOut internal resume pauses).hasWork := by
  cases pauses with
  | nil => exact work.resolve_right (by simp)
  | cons primary rest =>
    have first := fanOutRecord_hasWork internal primary (some resume)
    rw [fanOut]
    clear work
    generalize fanOutRecord internal primary (some resume) = start at first ⊢
    induction rest generalizing start with
    | nil => exact first
    | cons record _ ih => exact ih _ (fanOutRecord_hasWork start record none)

variable {options : RestoreOptions}

theorem orderPauses_nonempty (orders : orderPauses options stored = .ok ordered)
    (nonempty : stored ≠ []) : ordered ≠ [] := by
  unfold orderPauses at orders
  split at orders
  · cases orders
    exact nonempty
  · split at orders
    · cases orders
      simp
    · cases orders

theorem partition_nonempty (p : α → Bool) (nonempty : tasks ≠ []) :
    tasks.filter p ≠ [] ∨ (tasks.filter fun task => !p task) ≠ [] := by
  obtain ⟨task, rest, rfl⟩ := List.exists_cons_of_ne_nil nonempty
  by_cases hit : p task
  · exact .inl (by simp [hit])
  · exact .inr (by simp [hit])

variable {config : WorkflowConfig}

theorem Restored.hasWork (restored : Restored config options tuple internal)
    (restorable : Restorable tuple.metadata) : internal.hasWork := by
  cases restored with
  | failedStep replayed status tasks =>
    rcases partition_nonempty (fun task : StepTask =>
        task.status == .completed) tasks with completed | rerun
    · right
      simpa [completedStepTasks] using completed
    · left
      simpa [rerunStepTasks] using rerun
  | journal journal replayed status journals found replays =>
    unfold readStepJournal at found
    split at found
    · cases found
    · rename_i stepNumber tasks _
      split at found
      · cases found
      · rename_i expected
        cases found
        have nonempty : tasks ≠ [] := fun empty => expected (.inr empty)
        rcases partition_nonempty (fun task : StepIntentTask =>
            isDone tuple.pendingWrites task.taskId) nonempty with done | open'
        · right
          simpa using done
        · left
          simpa using open'
  | goto =>
    left
    simp
  | pauses pauses whole unjournaled onward ordered =>
    apply fanOut_hasWork
    rcases restorable with (paused | dynamic | completed) | step
    · exact .inr (orderPauses_nonempty ordered paused)
    · left; left
      simpa [restoreDynamic] using dynamic
    · exact .inl (.inr completed)
    · exact absurd step whole

theorem restoreRun_hasWork (restores : restoreRun config options tuple = .ok internal)
    (restorable : Restorable tuple.metadata) : internal.hasWork := by
  obtain ⟨-, restored, shape, -, updates⟩ := restoreRun_ok restores
  obtain ⟨_, _, rfl⟩ := applyUpdate_ok updates
  exact shape.hasWork restorable

structure Soundness (config : WorkflowConfig) (thread : Thread) : Prop where
  every : thread.store.Every (Sound config thread.log)
  emitted : ∀ log ∈ thread.log, EndsEarned config none log

theorem Soundness.opens (sound : Soundness config thread) :
    Earning config thread.log thread.store [] where
  every := by
    refine sound.every.mono fun checkpoint metadata known => ?_
    refine ⟨known.open_restorable, fun completed => ?_⟩
    obtain ⟨log, found, earned⟩ := known.completed_earned completed
    refine ⟨log, ?_, earned⟩
    have earlier := (List.getElem?_eq_some_iff.mp found).1
    rw [List.getElem?_append_left earlier, found]
  emitted := trivial

theorem driving_reported {threadId : String} {options : InvocationOptions}
    {order : RowOrder} (driving : Driving config logs internal store past)
    (fresh : internal.stepsThisInvocation = 0) :
    (driveReporting (driveArgs config threadId options) internal).ensures
      (storeHandler order) (Earning config logs)
      (fun _ => Earning config logs) store past := by
  apply ensures_driveReporting
  refine ensures_driveRun (fun internal store past driving => ?_) driving fresh
  exact @driving_round (driveArgs config threadId options) logs order internal
    store past driving

theorem Soundness.step {config : WorkflowConfig} {threadId : String}
    {order : RowOrder} {thread : Thread} (sound : Soundness config thread)
    {call : Call} (admitted : RetryRestores config threadId thread call) :
    Soundness config (thread.step config threadId order call) := by
  have played : Earning config thread.log
      (call.play config threadId order thread.log.length thread.store).2
      (call.play config threadId order thread.log.length thread.store).1 := by
    apply Call.play_of_ensures
    have earning := sound.opens
    refine ensures_invocation earning (fun error => ?_) ?_ ?_
    · exact earning.first rfl
    · intro input _
      refine driving_reported ⟨?_, rfl, ?_⟩ rfl
      · exact .inr (by simp [initialInternal])
      · exact earning.first rfl
    · intro restore tuple internal restores latest restored
      have place := restoreRun_at restored
      have stored := sound.every tuple (CheckpointStore.latest_mem latest).1
      have resumable := admission_resumable (restoreRun_ok restored).1
      have restorable : Restorable tuple.metadata := by
        cases status : tuple.metadata.status with
        | running => exact stored.open_restorable (by simp [status])
        | suspended => exact stored.open_restorable (by simp [status])
        | aborted => exact stored.open_restorable (by simp [status])
        | completed =>
          cases mode : restore.mode <;>
            simp [isResumable, RowOrder.read, status, mode] at resumable
        | failed =>
          cases mode : restore.mode with
          | resume =>
            simp [isResumable, RowOrder.read, status, mode] at resumable
          | retry =>
            exact admitted (Invocation.restores_retry restores mode) tuple latest
              status
      refine driving_reported ⟨?_, ?_, ?_⟩ place.steps
      · exact restoreRun_hasWork restored restorable
      · rw [place.run, Invocation.restores_run restores]
        rfl
      · exact earning.first rfl
  refine ⟨played.every, fun log member => ?_⟩
  rcases List.mem_append.mp member with earlier | here
  · exact sound.emitted log earlier
  · rw [List.mem_singleton.mp here]
    exact played.emitted

/-- A body that returns `output` and never pauses. -/
def returns (output : NodeOutput) : WorkflowNode where
  run := fun _ _ => .ret output

/-- The only edge of `a` leads to `__end__` and never fires. -/
def stalledConfig : WorkflowConfig where
  name := "stalled"
  nodes := [("a", returns .nothing)]
  edges := [⟨startNode, "a", none⟩, ⟨"a", endNode, some fun _ => .ok false⟩]
  channels := []

def stalled : Workflow := ⟨stalledConfig, rfl⟩

end Graphorin.Workflow
