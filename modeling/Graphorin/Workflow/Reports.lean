import Graphorin.Workflow.Loop
import Graphorin.Workflow.Outcomes

namespace Graphorin.Workflow

open Graphorin.Lib
open Graphorin.Js

/-! What a pass is seen to do before its exit. -/

def Told (acts : List Act) : Prop := ∀ act ∈ acts, ∃ obs, act = .tell obs

theorem told_map (observations : List Obs) : Told (observations.map Act.tell) := by
  intro act member
  obtain ⟨obs, -, rfl⟩ := List.mem_map.mp member
  exact ⟨obs, rfl⟩

theorem Told.append (first : Told before) (second : Told after) :
    Told (before ++ after) :=
  List.forall_mem_append.mpr ⟨first, second⟩

theorem Told.store (told : Told acts) (args : DriveRunArgs) (store : CheckpointStore) :
    actsStore args store acts = store := by
  induction acts with
  | nil => rfl
  | cons act _ ih =>
    obtain ⟨obs, rfl⟩ := told act List.mem_cons_self
    exact ih fun other member => told other (List.mem_cons_of_mem _ member)

def Obs.inStep : Obs → Bool
  | .ran _ => true
  | .event (.stepStart _ _) => true
  | .event (.taskStart _ _ _) => true
  | .event (.taskEnd _ _ _ _) => true
  | .event (.channelUpdate _ _ _ _) => true
  | .event (.error _ _ _) => true
  | _ => false

theorem inStep_reportIf {wanted : Bool} (inside : (Obs.event event).inStep = true) :
    ∀ obs ∈ reportIf wanted event, obs.inStep = true := by
  intro obs member
  unfold reportIf at member
  split at member
  · rw [List.mem_singleton.mp member]
    exact inside
  · cases member

theorem actsObs_told (obs : Obs) (acts : List Act) :
    actsObs (.tell obs :: acts) = obs :: actsObs acts := rfl

theorem actsObs_tell (observations : List Obs) :
    actsObs (observations.map Act.tell) = observations := by
  induction observations with
  | nil => rfl
  | cons obs rest ih => simp [Act.obs, ih]

theorem inStep_outcomeActs (args : DriveRunArgs) (internal : RunInternalState)
    (outcome : TaskOutcome) :
    ∀ obs ∈ actsObs (outcomeActs args internal outcome), obs.inStep = true := by
  intro obs member
  simp only [outcomeActs, actsObs_append, List.mem_append] at member
  rcases member with ((ran | noticed) | ended) | journaled
  · simp only [actsObs_cons, Act.obs, actsObs_nil, List.append_nil,
      List.mem_singleton] at ran
    rw [ran]
    rfl
  · cases noticed' : outcome.notice with
    | none => simp [noticed'] at noticed
    | some =>
      simp only [noticed', Option.toList_some, List.map_cons, List.map_nil,
        actsObs_cons, Act.obs, actsObs_nil, List.append_nil,
        List.mem_singleton] at noticed
      rw [noticed]
      rfl
  · rw [actsObs_tell] at ended
    exact inStep_reportIf rfl obs ended
  · split at journaled
    · cases target : journalCheckpointId args.config internal with
      | none => simp [target] at journaled
      | some =>
        simp [target, doneAct, Act.obs] at journaled
    · cases journaled

theorem inStep_runTasks (args : DriveRunArgs) (internal : RunInternalState)
    (env : RoundEnv) (tasks : List PlannedTask) (order : List Nat) (nextId : Nat) :
    ∀ obs ∈ actsObs (runTasks args internal env tasks order nextId).acts,
      obs.inStep = true := by
  intro obs member
  obtain ⟨act, listed, seen⟩ := List.mem_flatMap.mp member
  obtain ⟨outcome, here⟩ := mem_runTasks_acts listed
  exact inStep_outcomeActs _ _ outcome obs (List.mem_flatMap.mpr ⟨act, here, seen⟩)

theorem inStep_stepOpening (args : DriveRunArgs) (internal : RunInternalState)
    (tasks : List PlannedTask) :
    ∀ obs ∈ actsObs (stepOpening args internal tasks), obs.inStep = true := by
  intro obs member
  simp only [stepOpening, actsObs_append, List.mem_append] at member
  rcases member with (started | journaled) | launched
  · rw [actsObs_tell] at started
    exact inStep_reportIf rfl obs started
  · cases target : journalCheckpointId args.config internal with
    | none => simp [target] at journaled
    | some => simp [target, intentAct, Act.obs] at journaled
  · simp only [actsObs, List.mem_flatMap] at launched
    obtain ⟨act, ⟨task, -, reported⟩, seen⟩ := launched
    obtain ⟨report, told, rfl⟩ := List.mem_map.mp reported
    rw [Act.obs, List.mem_singleton] at seen
    exact inStep_reportIf rfl obs (seen ▸ told)

theorem inStep_channelReports (args : DriveRunArgs)
    (internal : RunInternalState) (applied : ApplyResult) :
    ∀ obs ∈ channelReports args internal applied, obs.inStep = true := by
  intro obs member
  obtain ⟨channel, -, reported⟩ := List.mem_flatMap.mp member
  exact inStep_reportIf rfl obs reported

/-- The acts of a round plan at most once; what follows belongs to the step. -/
theorem Decided.acts_inStep {round : Round} (decided : Decided args internal round) :
    actsObs round.acts = [] ∨ ∃ tasks rest,
      actsObs round.acts = .planned internal tasks :: rest ∧
        ∀ obs ∈ rest, obs.inStep = true := by
  cases decided with
  | aborted => exact .inl rfl
  | capped => exact .inl rfl
  | unplanned => exact .inl rfl
  | deadEnd plan =>
    exact .inr ⟨plan.planned, [], rfl, by simp⟩
  | gated plan =>
    exact .inr ⟨plan.planned, [], rfl, by simp⟩
  | completed plan =>
    exact .inr ⟨plan.planned, [], rfl, by simp⟩
  | uncloneable plan =>
    refine .inr ⟨plan.planned, _, actsObs_told _ _, ?_⟩
    rw [actsObs_tell]
    exact inStep_reportIf rfl
  | stepped plan tasks reports exit live below planned result nonempty cloned settled =>
    refine .inr ⟨plan.planned, _, actsObs_told _ _, fun obs member => ?_⟩
    rw [actsObs_append, actsObs_append, actsObs_tell] at member
    rcases List.mem_append.mp member with member | reported
    · rcases List.mem_append.mp member with opened | acted
      · exact inStep_stepOpening _ _ _ obs opened
      · exact inStep_runTasks _ _ _ _ _ _ obs acted
    · cases settled with
      | failed => cases reported
      | unmerged => cases reported
      | invalid => cases reported
      | suspended =>
        exact inStep_channelReports _ _ _ obs reported
      | running =>
        exact inStep_channelReports _ _ _ obs reported

end Graphorin.Workflow
