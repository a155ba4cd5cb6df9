import Graphorin.Workflow.Executions
import Graphorin.Workflow.Failures

namespace Graphorin.Workflow

open Graphorin.Lib
open Graphorin.Js

/-! Static gates.  A gate closes on one task of a plan and stores the others by
node and arguments alone, so a resume brings them back as if nobody had ever
looked at them: the next one with a gate of its own closes it again. -/

structure HeldAt (config : WorkflowConfig) (record : PendingPauseRecord)
    (entries : List DynamicEntry) (tuple : CheckpointTuple) : Prop where
  status : tuple.metadata.status = .suspended
  frontier : readFrontier tuple.metadata =
    { version := config.version, pauses := [record], dynamic := entries }
  gate : record.staticBefore = true ∧ record.staticAfter = false
  listed : record.nodeName ∈ config.pauseAt.before
  cloned : (tuple.checkpoint.state.all fun entry => entry.2.cloneable) = true

def restoredGate (run : Nat) (resume : JsValue) (record : PendingPauseRecord)
    (entries : List DynamicEntry) (checkpoint : Checkpoint) :
    RunInternalState where
  state := checkpoint.state
  versions := checkpoint.channelVersions
  pendingDynamicTasks :=
    (entries.zipIdx.map fun entry => dynamicTask ⟨run, entry.2⟩ entry.1) ++
      [resumeTask ⟨run, entries.length⟩ record (some resume)]
  lastCompletedNodes := []
  stepNumber := checkpoint.stepNumber + 1
  stepsThisInvocation := 0
  parentCheckpointId := some checkpoint.id
  pendingPauses := []
  run := run
  nextId := entries.length + 1

/-- A resume that answers a pause and asks for nothing else, in a process that
is neither killed nor told to stop. -/
structure Call.PlainResume (call : Call) (directive : Directive) : Prop where
  resumes : call.invocation = .resume directive
  straight : directive.goto? = none
  silent : directive.update = none
  checked : checkDirective directive = .ok ()
  survives : call.crash = none
  unaborted : ∀ pass, (call.options.env pass).abortedAtTop = false ∧
    (call.options.env pass).abortedInStep = false ∧
    (call.options.env pass).abortedAfterStep = false

variable {config : WorkflowConfig}

theorem HeldAt.restoreRun (held : HeldAt config record entries tuple)
    (straight : directive.goto? = none) (silent : directive.update = none)
    (order : RowOrder) (threadId : String) (options : InvocationOptions) :
    Workflow.restoreRun config
        { baseRestore threadId options with directive := directive }
        (order.read tuple) =
      match missingNodes config (readFrontier tuple.metadata) with
      | [] => .ok (restoredGate options.run directive.resume record entries
          tuple.checkpoint)
      | missing => .error (.reported (.divergence threadId missing)) := by
  have admitted : admission config
      { baseRestore threadId options with directive := directive }
      (order.read tuple) =
      match missingNodes config (readFrontier tuple.metadata) with
      | [] => .ok ()
      | missing => .error (.reported (.divergence threadId missing)) := by
    unfold admission
    rw [show (order.read tuple).metadata = tuple.metadata from rfl, held.status,
      if_neg (by simp [isResumable, baseRestore])]
    rw [show (readFrontier tuple.metadata).version = config.version by
      rw [held.frontier]]
    cases config.version with
    | none => rfl
    | some =>
      simp only [ne_eq, not_true_eq_false, and_false, if_false]
      rfl
  unfold Workflow.restoreRun
  rw [admitted]
  cases missing : missingNodes config (readFrontier tuple.metadata) with
  | cons => rfl
  | nil =>
    have worked : restoreWork config
        { baseRestore threadId options with directive := directive }
        (order.read tuple) =
        .ok (restoredGate options.run directive.resume record entries
          tuple.checkpoint) := by
      unfold restoreWork
      rw [show (order.read tuple).metadata = tuple.metadata from rfl,
        held.frontier, held.status]
      simp [restoreFrontier, straight, orderPauses, baseRestore, fanOut,
        fanOutRecord, held.gate, restoreDynamic, restoredBase, restoredGate,
        bind, Except.bind, pure, Except.pure, RowOrder.read]
    simp only [bind, Except.bind, worked, applyUpdate, silent]

theorem planTasks_idle {config : WorkflowConfig} {internal : RunInternalState}
    (idle : internal.lastCompletedNodes = []) :
    planTasks config internal = .ok
      ⟨internal.pendingDynamicTasks,
        match takeFirst (isGated config) internal.pendingDynamicTasks with
        | some (gated, rest) => .suspendBefore gated rest
        | none => .tasks internal.pendingDynamicTasks,
        internal.nextId⟩ := by
  unfold planTasks
  simp only [idle, reachableNodes, planReachable, bind, Except.bind]
  cases takeFirst (isGated config) internal.pendingDynamicTasks with
  | some => rfl
  | none => simp [pure, Except.pure]

theorem isGated_listed (gated : isGated config task = true) :
    task.source ≠ .resume ∧ task.nodeName ∈ config.pauseAt.before := by
  simp only [isGated, Bool.and_eq_true, Bool.not_eq_true', Bool.or_eq_false_iff,
    beq_eq_false_iff_ne, List.contains_iff_mem] at gated
  exact ⟨gated.1.1, gated.2⟩

theorem heldAt_gateExit {args : DriveRunArgs} {internal : RunInternalState}
    {gated : PlannedTask} {rest : List PlannedTask}
    (idle : internal.lastCompletedNodes = [])
    (closed : isGated args.config gated = true)
    (cloned : (internal.state.all fun entry => entry.2.cloneable) = true)
    (now : Nat) (rows : List PendingWrite) :
    HeldAt args.config (staticBeforePause gated).throughJson
      (rest.map fun task => (DynamicEntry.ofTask task).throughJson)
      ⟨(gateExit args internal gated rest).request.checkpoint args now,
        (gateExit args internal gated rest).request.metadata args, rows⟩ where
  status := rfl
  frontier := by
    simp [readFrontier, PersistRequest.metadata, gateExit, frontierFromInternal,
      encodeFrontier, idle, Function.comp_def]
  gate := ⟨rfl, rfl⟩
  listed := (isGated_listed closed).2
  cloned := cloned

inductive Blocked (config : WorkflowConfig) (tuple : CheckpointTuple) : Prop
  | failed (status : tuple.metadata.status = .failed)
  | missing {record : PendingPauseRecord} {entries : List DynamicEntry}
      (held : HeldAt config record entries tuple)
      (unknown : missingNodes config (readFrontier tuple.metadata) ≠ [])
  | spent {record : PendingPauseRecord} {entries : List DynamicEntry}
      (held : HeldAt config record entries tuple) (cap : Nat)
      (total : config.maxTotalSteps = some cap)
      (reached : cap ≤ tuple.checkpoint.stepNumber + 1)
  | gated {record : PendingPauseRecord} {entries : List DynamicEntry}
      (held : HeldAt config record entries tuple) (entry : DynamicEntry)
      (member : entry ∈ entries) (listed : entry.nodeName ∈ config.pauseAt.before)

structure BlockingExit (args : DriveRunArgs) (exit : Exit) : Prop where
  ends : ∀ checkpointId next, exit.next checkpointId ≠ .loop next
  quiet : ∀ checkpointId, executions (exit.report checkpointId) = []
  kept : exit.request.status ≠ .running
  blocked : ∀ now rows, Blocked args.config
    ⟨exit.request.checkpoint args now, exit.request.metadata args, rows⟩

theorem blocking_capExit (args : DriveRunArgs) (internal : RunInternalState)
    (error : WorkflowError) : BlockingExit args (capExit args internal error) where
  ends := by rintro _ _ ⟨⟩
  quiet _ := rfl
  kept := by rintro ⟨⟩
  blocked _ _ := .failed rfl

section Restored

variable {args : DriveRunArgs} {run : Nat} {resume : JsValue}
variable {record : PendingPauseRecord} {entries : List DynamicEntry}
variable {tuple : CheckpointTuple}

theorem blocking_gateExit (held : HeldAt args.config record entries tuple) (nextId : Nat)
    (found : takeFirst (isGated args.config)
      (restoredGate run resume record entries tuple.checkpoint).pendingDynamicTasks =
        some (gated, rest)) :
    BlockingExit args (gateExit args ((restoredGate run resume record entries
        tuple.checkpoint).emptied nextId) gated rest) where
  ends := by rintro _ _ ⟨⟩
  quiet _ := by simp [gateExit]
  kept := by rintro ⟨⟩
  blocked now rows := by
    obtain ⟨before, after, split, rfl, closed, -⟩ := takeFirst_some_iff.mp found
    have approved : resumeTask ⟨run, entries.length⟩ record (some resume) ∈
        before ++ gated :: after := by
      rw [← split]
      simp [restoredGate]
    have kept : resumeTask ⟨run, entries.length⟩ record (some resume) ∈
        before ++ after := by
      rcases List.mem_append.mp approved with earlier | here
      · exact List.mem_append_left _ earlier
      · rcases List.mem_cons.mp here with same | later
        · exact absurd (congrArg PlannedTask.source same.symm)
            (isGated_listed closed).1
        · exact List.mem_append_right _ later
    refine .gated (heldAt_gateExit rfl closed held.cloned now rows) _
      (List.mem_map_of_mem kept) ?_
    exact held.listed

theorem Decided.blocked {round : Round}
    (decided : Decided args (restoredGate run resume record entries tuple.checkpoint) round)
    (held : HeldAt args.config record entries tuple)
    (live : (args.env 0).abortedAtTop = false)
    (obstacle : (∃ cap, args.config.maxTotalSteps = some cap ∧ cap ≤
      tuple.checkpoint.stepNumber + 1) ∨ ∃ entry ∈ entries, entry.nodeName ∈
        args.config.pauseAt.before) :
    Told round.acts ∧ executions (actsObs round.acts) = [] ∧
      ∃ exit, round.finish = .ok exit ∧ BlockingExit args exit := by
  -- a plan is only made below the caps, so some entry meets its gate
  have gates : ∀ plan, capReached args.config
      (restoredGate run resume record entries tuple.checkpoint) = none →
      planTasks args.config
        (restoredGate run resume record entries tuple.checkpoint) = .ok plan →
      ∃ gated rest, plan.result = .suspendBefore gated rest ∧
        takeFirst (isGated args.config) (restoredGate run resume record entries
          tuple.checkpoint).pendingDynamicTasks = some (gated, rest) := by
    intro plan below planned
    rw [planTasks_idle rfl] at planned
    cases planned
    cases found : takeFirst (isGated args.config)
        (restoredGate run resume record entries
          tuple.checkpoint).pendingDynamicTasks with
    | some taken => exact ⟨taken.1, taken.2, rfl, rfl⟩
    | none =>
      rcases obstacle with ⟨cap, total, reached⟩ | ⟨entry, member, listed⟩
      · have unspent := (capReached_none _ _ below).2
        rw [total, Option.filter_eq_none_iff] at unspent
        exact absurd reached (by simpa [restoredGate] using unspent cap)
      · rw [← List.zipIdx_map_fst 0 entries] at member
        obtain ⟨placed, inside, rfl⟩ := List.mem_map.mp member
        have ungated := takeFirst_none_iff.mp found
          (dynamicTask ⟨run, placed.2⟩ placed.1)
          (List.mem_append_left _ (List.mem_map_of_mem inside))
        simp [isGated, dynamicTask, listed] at ungated
  cases decided with
  | aborted signal => exact absurd (live.symm.trans signal) (by decide)
  | capped =>
    exact ⟨told_map [], rfl, _, rfl, blocking_capExit _ _ _⟩
  | unplanned fault live below thrown =>
    rw [planTasks_idle rfl] at thrown
    cases thrown
  | deadEnd plan nodes live below planned result =>
    obtain ⟨_, _, closed, -⟩ := gates plan below planned
    cases result.symm.trans closed
  | gated plan gated rest live below planned result =>
    obtain ⟨_, _, closed, found⟩ := gates plan below planned
    cases result.symm.trans closed
    exact ⟨told_map [_], rfl, _, rfl, blocking_gateExit held _ found⟩
  | completed plan _ below planned result =>
    obtain ⟨_, _, closed, -⟩ := gates plan below planned
    cases result.symm.trans closed
  | uncloneable plan tasks live below planned result =>
    obtain ⟨_, _, closed, -⟩ := gates plan below planned
    cases result.symm.trans closed
  | stepped plan tasks reports exit live below planned result =>
    obtain ⟨_, _, closed, -⟩ := gates plan below planned
    cases result.symm.trans closed

end Restored

/-- A thread that is blocked before call number `run`. -/
structure BlockedThread (config : WorkflowConfig) (threadId : String)
    (run : Nat) (store : CheckpointStore) : Prop where
  older : store.Every fun checkpoint _ => checkpoint.id.run < run
  blocked : ∃ tuple, store.latest threadId (namespaceFor config) = some tuple ∧
    Blocked config tuple

section Blocked

variable {config : WorkflowConfig} {threadId : String} {order : RowOrder}
variable {run : Nat} {store : CheckpointStore}

theorem BlockedThread.later (blocked : BlockedThread config threadId run store) :
    BlockedThread config threadId (run + 1) store :=
  ⟨blocked.older.mono fun _ _ => Nat.lt_succ_of_lt, blocked.blocked⟩

theorem seated_restoredGate {args : DriveRunArgs} {resume : JsValue}
    {record : PendingPauseRecord} {entries : List DynamicEntry}
    {tuple : CheckpointTuple}
    (older : store.Every fun checkpoint _ => checkpoint.id.run < run)
    (latest : store.latest args.threadId (namespaceFor args.config) = some tuple) :
    Seated args (restoredGate run resume record entries tuple.checkpoint)
      store := by
  constructor
  · refine older.mono fun checkpoint _ below own => ?_
    exact absurd own (Nat.ne_of_lt below)
  · intro old found _
    cases latest.symm.trans found
    exact Nat.lt_succ_self _

def Stuck (config : WorkflowConfig) (threadId : String) (run : Nat)
    (store : CheckpointStore) (past : List Obs) : Prop :=
  BlockedThread config threadId run store ∧ executions past = []

theorem stuck_driveRound {resume : JsValue}
    (blocked : BlockedThread args.config args.threadId run store)
    (latest : store.latest args.threadId (namespaceFor args.config) = some tuple)
    (held : HeldAt args.config record entries tuple)
    (live : (args.env 0).abortedAtTop = false)
    (obstacle : (∃ cap, args.config.maxTotalSteps = some cap ∧ cap ≤
      tuple.checkpoint.stepNumber + 1) ∨ ∃ entry ∈ entries, entry.nodeName ∈
        args.config.pauseAt.before)
    (unseen : executions past = []) :
    (driveRound args (restoredGate run resume record entries
      tuple.checkpoint)).ensures (storeHandler order) (fun _ _ => True)
      (roundPost (fun _ _ _ => False) fun _ =>
        Stuck args.config args.threadId (run + 1)) store past := by
  have decided := decideRound_decided args
    (restoredGate run resume record entries tuple.checkpoint)
  obtain ⟨told, silent, exit, finished, blocks⟩ :=
    decided.blocked held live obstacle
  have seated := @seated_restoredGate run store args resume record entries tuple
    blocked.older latest
  obtain ⟨parent, own, steps⟩ := decided.parent finished
  have asked := seated.onward own parent (decided.drawn finished)
    (Nat.le_of_eq steps.symm)
  apply ensures_driveRound
  · intros
    trivial
  · intro fault other
    cases finished.symm.trans other
  · intro same other
    cases finished.symm.trans other
    have seen : executions (past ++ actsObs (decideRound args (restoredGate run
        resume record entries tuple.checkpoint)).acts) = [] := by
      rw [executions_append, unseen, silent]
      rfl
    rw [told.store args store]
    have stops : ∀ checkpointId (final : CheckpointStore) (past : List Obs),
        Stuck args.config args.threadId (run + 1) final past →
        (afterStep args (args.env 0) (exit.next checkpointId)).ensures
          (storeHandler order) (fun _ _ => True)
          (roundPost (fun _ _ _ => False) fun _ =>
            Stuck args.config args.threadId (run + 1)) final past := by
      intro checkpointId final past stuck
      cases onward : exit.next checkpointId with
      | raise => exact stuck
      | close => exact stuck
      | loop => exact absurd onward (blocks.ends _ _)
    apply ensures_performExit trivial
    · intro error _
      exact ⟨blocked.later, seen⟩
    · intro verdict
      have skips := (persistVerdict_skipped verdict).1
      simp [PersistRequest.skips, blocks.kept] at skips
    · intros
      trivial
    · intro verdict
      apply stops
      refine ⟨⟨?_, _, asked.latest_stored verdict ?_, blocks.blocked _ _⟩, ?_⟩
      · refine blocked.later.older.storedIn ?_
        show exit.request.internal.run < run + 1
        rw [own]
        exact Nat.lt_succ_self _
      · intro parentless
        cases parent.symm.trans parentless
      · rw [executions_append, seen, blocks.quiet]
        rfl

theorem stuck_driveReporting {args : DriveRunArgs} {resume : JsValue}
    {record : PendingPauseRecord} {entries : List DynamicEntry}
    {tuple : CheckpointTuple} {past : List Obs}
    (blocked : BlockedThread args.config args.threadId run store)
    (latest : store.latest args.threadId (namespaceFor args.config) = some tuple)
    (held : HeldAt args.config record entries tuple)
    (live : (args.env 0).abortedAtTop = false)
    (obstacle : (∃ cap, args.config.maxTotalSteps = some cap ∧
        cap ≤ tuple.checkpoint.stepNumber + 1) ∨
      ∃ entry ∈ entries, entry.nodeName ∈ args.config.pauseAt.before)
    (unseen : executions past = []) :
    (driveReporting args (restoredGate run resume record entries
      tuple.checkpoint)).ensures (storeHandler order) (fun _ _ => True)
      (fun _ => Stuck args.config args.threadId (run + 1)) store past := by
  apply ensures_driveReporting
  apply @ensures_driveRun order _ args
    (fun internal current seen => internal = restoredGate run resume record
      entries tuple.checkpoint ∧ current = store ∧ seen = past) _ _ _ _ _
    ⟨rfl, rfl, rfl⟩ rfl
  rintro internal current seen ⟨rfl, rfl, rfl⟩
  refine Program.ensures_mono ?_ (stuck_driveRound blocked latest held live
    obstacle unseen)
  intro result final seen stuck
  match result with
  | .error fault => exact ⟨stuck.1, by rw [executions_append, stuck.2]; rfl⟩
  | .ok (.raise fault) =>
    exact ⟨stuck.1, by rw [executions_append, stuck.2]; rfl⟩
  | .ok .close => exact stuck
  | .ok (.loop next) => exact absurd stuck id

theorem Call.PlainResume.play {call : Call} {directive : Directive}
    (plain : call.PlainResume directive) {post : CheckpointStore → List Obs → Prop}
    (resumes : (resumeEngine config threadId (call.optionsAt run)
      { baseRestore threadId (call.optionsAt run) with
        directive := directive }).ensures (storeHandler order)
      (fun _ _ => True) (fun _ => post) store []) :
    post (call.play config threadId order run store).2
      (call.play config threadId order run store).1 := by
  unfold Call.play
  rw [plain.survives]
  have played := Program.run_of_ensures resumes
  rw [List.nil_append] at played
  simp only [Call.program, plain.resumes]
  exact played

/-- From a blocked thread a plain resume runs nothing and leaves it blocked. -/
theorem stuck_resume {call : Call} {directive : Directive}
    (plain : call.PlainResume directive)
    (blocked : BlockedThread config threadId run store) :
    Stuck config threadId (run + 1) (call.play config threadId order run store).2
      (call.play config threadId order run store).1 := by
  apply plain.play
  apply ensures_resumeEngine trivial
  · exact fun error => ⟨blocked.later, rfl⟩
  · exact fun error => ⟨blocked.later, rfl⟩
  · intro tuple internal latest restores
    obtain ⟨same, found, obstacle⟩ := blocked.blocked
    cases latest.symm.trans found
    have resumed : ∀ {record : PendingPauseRecord}
        {entries : List DynamicEntry}, HeldAt config record entries tuple →
        missingNodes config (readFrontier tuple.metadata) = [] ∧
          internal = restoredGate run directive.resume record entries
            tuple.checkpoint := by
      intro record entries held
      rw [held.restoreRun plain.straight plain.silent order threadId] at restores
      cases missing : missingNodes config (readFrontier tuple.metadata) with
      | cons =>
        rw [missing] at restores
        cases restores
      | nil =>
        rw [missing] at restores
        exact ⟨rfl, (Except.ok.inj restores).symm⟩
    have stuck : ∀ {record : PendingPauseRecord} {entries : List DynamicEntry},
        HeldAt config record entries tuple →
        ((∃ cap, config.maxTotalSteps = some cap ∧
            cap ≤ tuple.checkpoint.stepNumber + 1) ∨
          ∃ entry ∈ entries, entry.nodeName ∈ config.pauseAt.before) →
        (driveReporting (driveArgs config threadId (call.optionsAt run))
          internal).ensures (storeHandler order) (fun _ _ => True)
          (fun _ => Stuck config threadId (run + 1)) store
          [.event (.resumed threadId internal.stepNumber internal.state)] := by
      intro record entries held obstacle
      rw [(resumed held).2]
      exact @stuck_driveReporting order run store
        (driveArgs config threadId (call.optionsAt run)) directive.resume record
        entries tuple _ blocked latest held (plain.unaborted 0).1 obstacle rfl
    cases obstacle with
    | failed status =>
      have resumable := admission_resumable (restoreRun_ok restores).1
      change isResumable .resume tuple.metadata.status = true at resumable
      rw [status] at resumable
      cases resumable
    | missing held unknown => exact absurd (resumed held).1 unknown
    | spent held cap total reached =>
      exact stuck held (.inl ⟨cap, total, reached⟩)
    | gated held entry member listed =>
      exact stuck held (.inr ⟨entry, member, listed⟩)

/-- However often it is resumed. -/
theorem stuck_resumes {calls : List Call}
    (plain : ∀ call ∈ calls, ∃ directive, call.PlainResume directive)
    {thread : Thread}
    (blocked : BlockedThread config threadId thread.log.length thread.store) :
    ∃ seen, (calls.foldl (Thread.step config threadId order) thread).log =
        thread.log ++ seen ∧ executions seen.flatten = [] := by
  induction calls generalizing thread with
  | nil => exact ⟨[], by simp, rfl⟩
  | cons call _ ih =>
    obtain ⟨directive, first⟩ := plain call List.mem_cons_self
    have stuck := @stuck_resume config threadId order thread.log.length
      thread.store call directive first blocked
    have grown : (thread.step config threadId order call).log.length =
        thread.log.length + 1 := by simp [Thread.step]
    obtain ⟨seen, logged, silent⟩ := @ih
      (fun other member => plain other (List.mem_cons_of_mem _ member))
      (thread.step config threadId order call) (by rw [grown]; exact stuck.1)
    refine ⟨(call.play config threadId order thread.log.length
      thread.store).1 :: seen, ?_, ?_⟩
    · rw [List.foldl_cons, logged, Thread.step, List.append_assoc]
      rfl
    · rw [List.flatten_cons, executions_append, stuck.2, silent]
      rfl

end Blocked

end Graphorin.Workflow
