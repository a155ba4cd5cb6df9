import Graphorin.Workflow.Resume

namespace Graphorin.Workflow

open Graphorin.Lib
open Graphorin.Js

/-! What a restored run state can be. -/

structure RestoredAt (options : RestoreOptions) (tuple : CheckpointTuple)
    (internal : RunInternalState) : Prop where
  stepNumber : internal.stepNumber = tuple.checkpoint.stepNumber + 1
  steps : internal.stepsThisInvocation = 0
  parent : internal.parentCheckpointId = some tuple.checkpoint.id
  pauses : internal.pendingPauses = []
  run : internal.run = options.run

variable {config : WorkflowConfig} {internal : RunInternalState}

/-- Replaying writes touches the state and the versions only. -/
theorem replayInto_ok (replays : replayInto config internal writes = .ok replayed) :
    ∃ state versions, replayed =
      { internal with state := state, versions := versions } := by
  unfold replayInto at replays
  split at replays
  · cases replays
    exact ⟨internal.state, internal.versions, rfl⟩
  · split at replays
    · cases replays
    · cases replays
      exact ⟨_, _, rfl⟩

theorem applyUpdate_ok (applies : applyUpdate config directive internal = .ok updated) :
    ∃ state versions, updated =
      { internal with state := state, versions := versions } := by
  unfold applyUpdate at applies
  split at applies
  · cases applies
    exact ⟨internal.state, internal.versions, rfl⟩
  · split at applies
    · cases applies
    · cases applies
      exact ⟨_, _, rfl⟩

/-- A record fanned out adds a completed node or one task. -/
theorem fanOutRecord_kept (internal : RunInternalState)
    (record : PendingPauseRecord) (fresh : Option JsValue) :
    ∃ completed pending nextId, fanOutRecord internal record fresh =
      { internal with
        lastCompletedNodes := completed
        pendingDynamicTasks := pending
        nextId := nextId } := by
  unfold fanOutRecord
  split
  · exact ⟨_, internal.pendingDynamicTasks, internal.nextId, rfl⟩
  · exact ⟨internal.lastCompletedNodes, _, _, rfl⟩

/-- Which pause gets the directive's value. -/
def answered (resume : JsValue) :
    List PendingPauseRecord → List (PendingPauseRecord × Option JsValue)
  | [] => []
  | primary :: others =>
    (primary, some resume) :: others.map fun record => (record, none)

theorem fanOut_answered (internal : RunInternalState) (resume : JsValue)
    (pauses : List PendingPauseRecord) : fanOut internal resume pauses =
      (answered resume pauses).foldl (fun acc entry => fanOutRecord acc entry.1 entry.2)
        internal := by
  cases pauses with
  | nil => rfl
  | cons =>
    rw [answered, List.foldl_cons, List.foldl_map]
    rfl

theorem fanOut_kept (internal : RunInternalState) (resume : JsValue)
    (pauses : List PendingPauseRecord) :
    ∃ completed pending nextId, fanOut internal resume pauses =
      { internal with
        lastCompletedNodes := completed
        pendingDynamicTasks := pending
        nextId := nextId } := by
  rw [fanOut_answered]
  generalize answered resume pauses = entries
  induction entries generalizing internal with
  | nil => exact ⟨_, _, _, rfl⟩
  | cons entry _ ih =>
    obtain ⟨_, _, _, here⟩ := fanOutRecord_kept internal entry.1 entry.2
    obtain ⟨completed, pending, nextId, later⟩ := ih (fanOutRecord internal entry.1 entry.2)
    refine ⟨completed, pending, nextId, ?_⟩
    rw [List.foldl_cons, later, here]

/-- The ways `restoreWork` rebuilds the pending work. -/
inductive Restored (config : WorkflowConfig) (options : RestoreOptions)
    (tuple : CheckpointTuple) : RunInternalState → Prop
  | failedStep (replayed : RunInternalState)
      (status : tuple.metadata.status = .failed ∨
        tuple.metadata.status = .aborted)
      (tasks : (readFrontier tuple.metadata).stepTasks ≠ [])
      (replays : replayInto config (restoredBase options tuple)
        (replayWrites (readFrontier tuple.metadata) tuple.pendingWrites) =
          .ok replayed) :
      Restored config options tuple
        { replayed with
          lastCompletedNodes :=
            (completedStepTasks (readFrontier tuple.metadata)).map
              StepTask.nodeName
          pendingDynamicTasks :=
            rerunStepTasks options.run (readFrontier tuple.metadata)
          nextId :=
            (rerunStepTasks options.run (readFrontier tuple.metadata)).length }
  | journal (journal : StepJournal) (replayed : RunInternalState)
      (status : tuple.metadata.status = .running)
      (journals : config.journalSteps = true)
      (found : readStepJournal options.run tuple.pendingWrites
        (tuple.checkpoint.stepNumber + 1) = some journal)
      (replays : replayInto config
        (restoreDynamic (readFrontier tuple.metadata)
          (restoredBase options tuple)) journal.replayWrites = .ok replayed) :
      Restored config options tuple
        { replayed with
          lastCompletedNodes := journal.completedNodes
          pendingDynamicTasks := journal.rerunTasks
          nextId := journal.rerunTasks.length }
  | goto (nodeName : String)
      (target : options.directive.goto? = some nodeName)
      (named : nodeName ≠ "") :
      Restored config options tuple
        { restoreDynamic (readFrontier tuple.metadata)
            (restoredBase options tuple) with
          pendingDynamicTasks :=
            [gotoTask ⟨options.run,
              (readFrontier tuple.metadata).dynamic.length⟩ nodeName]
          lastCompletedNodes := []
          nextId := (readFrontier tuple.metadata).dynamic.length + 1 }
  | pauses (pauses : List PendingPauseRecord)
      (whole : ¬((tuple.metadata.status = .failed ∨
        tuple.metadata.status = .aborted) ∧
          (readFrontier tuple.metadata).stepTasks ≠ []))
      (unjournaled : ¬(tuple.metadata.status = .running ∧
        config.journalSteps = true ∧
        (readStepJournal options.run tuple.pendingWrites
          (tuple.checkpoint.stepNumber + 1)).isSome))
      (onward : options.directive.goto?.filter (· ≠ "") = none)
      (ordered : orderPauses options (readFrontier tuple.metadata).pauses =
        .ok pauses) :
      Restored config options tuple
        (fanOut
          (restoreDynamic (readFrontier tuple.metadata)
            (restoredBase options tuple))
          options.directive.resume pauses)

variable {options : RestoreOptions} {tuple : CheckpointTuple}

theorem restoreWork_restored (restores : restoreWork config options tuple = .ok internal) :
    Restored config options tuple internal := by
  unfold restoreWork at restores
  simp only at restores
  split at restores
  · rename_i step
    unfold restoreFailedStep at restores
    cases replays : replayInto config (restoredBase options tuple)
        (replayWrites (readFrontier tuple.metadata) tuple.pendingWrites) with
    | error => simp [replays, bind, Except.bind] at restores
    | ok replayed =>
      simp only [replays, bind, Except.bind, pure, Except.pure,
        Except.ok.injEq] at restores
      subst restores
      exact .failedStep replayed step.1 step.2 replays
  · rename_i whole
    unfold restoreFrontier at restores
    simp only at restores
    split at restores
    · rename_i journal found
      split at found
      · rename_i consulted
        cases replays : replayInto config
            (restoreDynamic (readFrontier tuple.metadata)
              (restoredBase options tuple)) journal.replayWrites with
        | error => simp [replays, bind, Except.bind] at restores
        | ok replayed =>
          simp only [replays, bind, Except.bind, pure, Except.pure,
            Except.ok.injEq] at restores
          subst restores
          exact .journal journal replayed consulted.1 consulted.2 found
            replays
      · cases found
    · rename_i missing
      have unjournaled : ¬(tuple.metadata.status = .running ∧
          config.journalSteps = true ∧
          (readStepJournal options.run tuple.pendingWrites
            (tuple.checkpoint.stepNumber + 1)).isSome) := by
        rintro ⟨running, journals, some⟩
        rw [if_pos ⟨running, journals⟩] at missing
        rw [show readStepJournal options.run tuple.pendingWrites
          (tuple.checkpoint.stepNumber + 1) = none from missing] at some
        cases some
      split at restores
      · rename_i nodeName target
        cases restores
        obtain ⟨found, named⟩ := Option.filter_eq_some_iff.mp target
        exact .goto nodeName found (by simpa using named)
      · rename_i onward
        cases ordered : orderPauses options
            (readFrontier tuple.metadata).pauses with
        | error => simp [ordered, bind, Except.bind] at restores
        | ok pauses =>
          simp only [ordered, bind, Except.bind, pure, Except.pure,
            Except.ok.injEq] at restores
          subst restores
          exact .pauses pauses whole unjournaled onward ordered

theorem Restored.at (restored : Restored config options tuple internal) :
    RestoredAt options tuple internal := by
  cases restored with
  | failedStep replayed status tasks replays =>
    obtain ⟨_, _, rfl⟩ := replayInto_ok replays
    exact ⟨rfl, rfl, rfl, rfl, rfl⟩
  | journal journal replayed status journals found replays =>
    obtain ⟨_, _, rfl⟩ := replayInto_ok replays
    exact ⟨rfl, rfl, rfl, rfl, rfl⟩
  | goto => exact ⟨rfl, rfl, rfl, rfl, rfl⟩
  | pauses pauses =>
    obtain ⟨_, _, _, kept⟩ := fanOut_kept
      (restoreDynamic (readFrontier tuple.metadata)
        (restoredBase options tuple)) options.directive.resume pauses
    rw [kept]
    exact ⟨rfl, rfl, rfl, rfl, rfl⟩

/-- An invocation is admitted, its work restored, its update applied. -/
theorem restoreRun_ok (restores : restoreRun config options tuple = .ok internal) :
    admission config options tuple = .ok () ∧
      ∃ restored, Restored config options tuple restored ∧
        restoreWork config options tuple = .ok restored ∧
        applyUpdate config options.directive restored = .ok internal := by
  unfold restoreRun at restores
  cases admitted : admission config options tuple with
  | error => simp [admitted, bind, Except.bind] at restores
  | ok =>
    cases work : restoreWork config options tuple with
    | error => simp [admitted, work, bind, Except.bind] at restores
    | ok restored =>
      simp only [admitted, work, bind, Except.bind] at restores
      exact ⟨rfl, restored, restoreWork_restored work, rfl, restores⟩

theorem restoreRun_at (restores : restoreRun config options tuple = .ok internal) :
    RestoredAt options tuple internal := by
  obtain ⟨-, restored, shape, -, updates⟩ := restoreRun_ok restores
  obtain ⟨_, _, rfl⟩ := applyUpdate_ok updates
  have place := shape.at
  exact ⟨place.stepNumber, place.steps, place.parent, place.pauses, place.run⟩

theorem admission_resumable (admitted : admission config options tuple = .ok ()) :
    isResumable options.mode tuple.metadata.status = true := by
  cases resumable : isResumable options.mode tuple.metadata.status with
  | true => rfl
  | false => simp [admission, resumable] at admitted

def fanTasks (run : Nat) :
    Nat → List (PendingPauseRecord × Option JsValue) → List PlannedTask
  | _, [] => []
  | seq, (record, fresh) :: rest =>
    if record.staticAfter then fanTasks run seq rest
    else resumeTask ⟨run, seq⟩ record fresh :: fanTasks run (seq + 1) rest

theorem fanOut_pending (internal : RunInternalState) (resume : JsValue)
    (pauses : List PendingPauseRecord) :
    (fanOut internal resume pauses).pendingDynamicTasks =
      internal.pendingDynamicTasks ++
        fanTasks internal.run internal.nextId (answered resume pauses) := by
  rw [fanOut_answered]
  generalize answered resume pauses = entries
  induction entries generalizing internal with
  | nil => simp [fanTasks]
  | cons entry _ ih =>
    obtain ⟨record, fresh⟩ := entry
    rw [List.foldl_cons, ih]
    by_cases static : record.staticAfter
    · simp [fanOutRecord, fanTasks, static]
    · simp [fanOutRecord, fanTasks, static]

theorem fanTasks_origins (run seq : Nat)
    (entries : List (PendingPauseRecord × Option JsValue)) :
    (fanTasks run seq entries).map PlannedTask.origin =
      ((entries.map Prod.fst).filter fun record =>
        !record.staticAfter).map PendingPauseRecord.origin := by
  induction entries generalizing seq with
  | nil => rfl
  | cons entry _ ih =>
    obtain ⟨record, fresh⟩ := entry
    by_cases static : record.staticAfter
    · simp [fanTasks, static, ih]
    · simp [fanTasks, static, ih, resumeTask]

theorem answered_records (resume : JsValue) (pauses : List PendingPauseRecord) :
    (answered resume pauses).map Prod.fst = pauses := by
  cases pauses with
  | nil => rfl
  | cons => simp [answered, Function.comp_def]

theorem orderPauses_perm (orders : orderPauses options stored = .ok ordered) :
    ordered.Perm stored := by
  unfold orderPauses at orders
  split at orders
  · cases orders
    exact List.Perm.refl _
  · split at orders
    · rename_i target others taken
      cases orders
      obtain ⟨before, after, rfl, rfl, -, -⟩ := takeFirst_some_iff.mp taken
      exact List.perm_middle.symm
    · cases orders

def dynamicTasks (run : Nat) (frontier : FrontierEnvelope) : List PlannedTask :=
  frontier.dynamic.zipIdx.map fun entry => dynamicTask ⟨run, entry.2⟩ entry.1

theorem dynamicTasks_origins (run : Nat) (frontier : FrontierEnvelope) :
    (dynamicTasks run frontier).map PlannedTask.origin =
      frontier.dynamic.map DynamicEntry.origin := by
  unfold dynamicTasks
  rw [List.map_map]
  show frontier.dynamic.zipIdx.map (DynamicEntry.origin ∘ Prod.fst) = _
  rw [← List.map_map, List.zipIdx_map_fst]

theorem encodeFrontier_dynamic (frontier : FrontierEnvelope) :
    (encodeFrontier frontier).dynamic.map DynamicEntry.origin =
      frontier.dynamic.map DynamicEntry.origin := by
  simp [encodeFrontier, DynamicEntry.throughJson, Function.comp_def]

theorem frontierFromInternal_dynamic (config : WorkflowConfig)
    (internal : RunInternalState) :
    (frontierFromInternal config internal).dynamic.map DynamicEntry.origin =
      internal.pendingDynamicTasks.map PlannedTask.origin := by
  simp [frontierFromInternal, DynamicEntry.ofTask, Function.comp_def]

theorem rerunStepTasks_origins (run : Nat) (frontier : FrontierEnvelope) :
    (rerunStepTasks run frontier).map PlannedTask.origin =
      (frontier.stepTasks.filter fun task =>
        !(task.status == .completed)).map StepTask.origin := by
  unfold rerunStepTasks
  generalize (frontier.stepTasks.filter fun task =>
    !(task.status == .completed)) = rerun
  rw [List.map_map]
  have own : ∀ entry : StepTask × Nat,
      (PlannedTask.origin ∘ fun entry =>
        rerunStepTask frontier ⟨run, entry.2⟩ entry.1) entry =
        (StepTask.origin ∘ Prod.fst) entry := by
    intro entry
    show (rerunStepTask frontier _ entry.1).origin = entry.1.origin
    unfold rerunStepTask
    split <;> rfl
  rw [List.map_congr_left fun entry _ => own entry, ← List.map_map,
    List.zipIdx_map_fst]

end Graphorin.Workflow
