import Graphorin.Workflow.Reach
import Graphorin.Workflow.Reports

namespace Graphorin.Workflow

open Graphorin.Lib
open Graphorin.Js

/-! A fresh run over a thread that has ended.  Until its first `put` such a run
cannot tell the thread from an unused one; from then on everything hangs on
whether its checkpoint is the newer one. -/

def firstPut (args : DriveRunArgs) :
    Nat → RunInternalState → Option (PersistRequest × Nat)
  | 0, _ => none
  | fuel + 1, internal =>
    let env := args.env internal.stepsThisInvocation
    match (decideRound args internal).finish with
    | .error _ => none
    | .ok exit =>
      match requestVerdict exit.request with
      | .error _ => none
      | .ok () =>
        if exit.request.skips args then
          match exit.next none with
          | .loop next =>
            if env.abortedAfterStep then
              match requestVerdict (abortExit args next).request with
              | .error _ => none
              | .ok () => some ((abortExit args next).request, env.now)
            else firstPut args fuel next
          | _ => none
        else some (exit.request, env.now)

def OpenTo (args : DriveRunArgs) (store : CheckpointStore) : Prop :=
  ∀ tuple, store.latest args.threadId (namespaceFor args.config) = some tuple →
    tuple.metadata.status ≠ .running ∧ tuple.metadata.status ≠ .suspended

theorem persistVerdict_open (unguarded : OpenTo args store)
    (parentless : request.internal.parentCheckpointId = none) :
    persistVerdict args request store =
      (requestVerdict request).map fun _ => !request.skips args := by
  have prechecked : precheck args.threadId request.internal
      (store.latest args.threadId (namespaceFor args.config)) = .ok () := by
    cases found : store.latest args.threadId (namespaceFor args.config) with
    | none => rfl
    | some tuple =>
      obtain ⟨notRunning, notSuspended⟩ := unguarded tuple found
      simp [precheck, parentless, notRunning, notSuspended]
  have accepted : guardVerdict args request store =
      (serializeState request.internal.state).map fun _ => () := by
    unfold guardVerdict
    rw [prechecked, parentless]
    simp only [bind, Except.bind]
    cases serializeState request.internal.state <;> rfl
  unfold persistVerdict requestVerdict
  rw [accepted]
  cases frontierSafe request with
  | error => rfl
  | ok =>
    cases skips : request.skips args with
    | true =>
      simp only [bind, Except.bind, if_true]
      cases serializeState request.internal.state <;> rfl
    | false =>
      simp only [bind, Except.bind, Bool.false_eq_true, if_false]
      cases serializeState request.internal.state <;> rfl

def afterPut (args : DriveRunArgs) (store : CheckpointStore) :
    Option (PersistRequest × Nat) → CheckpointStore
  | none => store
  | some (request, now) => request.storedIn args now store

section Unjournaled

variable {args : DriveRunArgs} {internal : RunInternalState}
variable (unjournaled : journalCheckpointId args.config internal = none)

include unjournaled

theorem told_runTasks (env : RoundEnv) (tasks : List PlannedTask)
    (order : List Nat) (nextId : Nat) :
    Told (runTasks args internal env tasks order nextId).acts := by
  intro act member
  rcases runTasks_acts member with told | ⟨_, _, target, -⟩
  · exact told
  · rw [unjournaled] at target
    cases target

theorem told_stepOpening (tasks : List PlannedTask) :
    Told (stepOpening args internal tasks) := by
  unfold stepOpening
  rw [unjournaled]
  refine ((told_map _).append (told_map [])).append ?_
  intro act member
  obtain ⟨task, -, reported⟩ := List.mem_flatMap.mp member
  exact told_map _ act reported

end Unjournaled

variable {args : DriveRunArgs}

theorem Decided.told {round : Round} (decided : Decided args internal round)
    (parentless : internal.parentCheckpointId = none) : Told round.acts := by
  have single : ∀ obs : Obs, Told [.tell obs] := fun obs => told_map [obs]
  cases decided with
  | aborted => exact told_map []
  | capped => exact told_map []
  | unplanned => exact told_map []
  | deadEnd => exact single _
  | gated => exact single _
  | completed => exact single _
  | uncloneable =>
    exact (single _).append (told_map _)
  | stepped plan tasks =>
    have unjournaled : journalCheckpointId args.config
        (internal.emptied plan.nextId) = none := by
      unfold journalCheckpointId
      split
      · exact parentless
      · rfl
    exact (single _).append (((told_stepOpening unjournaled tasks).append
      (told_runTasks unjournaled _ _ _ _)).append (told_map _))

def RunsAs (args : DriveRunArgs) (program : EngineM Unit)
    (put : Option (PersistRequest × Nat)) : Prop :=
  ∃ result observations, ∀ order store past, OpenTo args store →
    program.ensures (storeHandler order) (fun _ _ => True)
      (fun reached final seen => reached = result ∧
        seen = past ++ observations ∧ final = afterPut args store put)
      store past

theorem performExit_open (parentless : exit.request.internal.parentCheckpointId = none)
    {order : RowOrder} (unguarded : OpenTo args store)
    (refused : ∀ error, requestVerdict exit.request = .error error →
      post (.error (.workflow error)) store past)
    (skipped : requestVerdict exit.request = .ok () → exit.request.skips args = true →
      post (.ok (exit.next none)) store (past ++ exit.report none))
    (stored : requestVerdict exit.request = .ok () → exit.request.skips args = false →
      post (.ok (exit.next (some (exit.request.checkpoint args now).id)))
        (exit.request.storedIn args now store)
          (past ++ exit.report (some (exit.request.checkpoint args now).id))) :
    (performExit args now exit).ensures (storeHandler order) (fun _ _ => True)
      post store past := by
  have verdict := persistVerdict_open unguarded parentless
  cases requested : requestVerdict exit.request with
  | error error =>
    rw [requested] at verdict
    apply ensures_performExit trivial
    · intro raised same
      cases verdict.symm.trans same
      exact refused error requested
    · intro same
      cases verdict.symm.trans same
    · intros
      trivial
    · intro same
      cases verdict.symm.trans same
  | ok =>
    rw [requested] at verdict
    apply ensures_performExit trivial
    · intro raised same
      cases verdict.symm.trans same
    · intro same
      have skips := Except.ok.inj (verdict.symm.trans same)
      exact skipped requested (by simpa using skips)
    · intros
      trivial
    · intro same
      have skips := Except.ok.inj (verdict.symm.trans same)
      exact stored requested (by simpa using skips)

def continueWith (args : DriveRunArgs) (fuel : Nat) : Next → EngineM Unit
  | .raise fault => Program.fail fault
  | .close => pure ()
  | .loop next => driveLoop args fuel next

theorem driveLoop_exit (told : Told (decideRound args internal).acts)
    (finished : (decideRound args internal).finish = .ok exit)
    (exits : (performExit args (args.env internal.stepsThisInvocation).now exit).ensures
      (storeHandler order) (fun _ _ => True)
        (Program.followed (fun _ _ => True) (storeHandler order)
          (afterStep args (args.env internal.stepsThisInvocation))
            (Program.followed (fun _ _ => True) (storeHandler order) (continueWith args fuel)
              post)) store (past ++ actsObs (decideRound args internal).acts)) :
    (driveLoop args (fuel + 1) internal).ensures (storeHandler order)
      (fun _ _ => True) post store past := by
  rw [driveLoop, Program.bind_eq, Program.ensures_bind]
  apply ensures_driveRound
  · intros
    trivial
  · intro fault same
    cases finished.symm.trans same
  · intro other same
    cases finished.symm.trans same
    rw [told.store]
    refine Program.ensures_mono ?_ exits
    intro result final seen reached
    cases result with
    | error => exact reached
    | ok next =>
      refine Program.ensures_mono ?_ reached
      intro result final seen reached
      cases result with
      | error => exact reached
      | ok next => cases next <;> exact reached

section Ends

variable {args : DriveRunArgs} {fuel : Nat} {internal : RunInternalState}
variable {exit : Exit}
variable (decided : Decided args internal (decideRound args internal))
variable (told : Told (decideRound args internal).acts)
variable (finished : (decideRound args internal).finish = .ok exit)
variable (parent : exit.request.internal.parentCheckpointId = none)
variable (requested : requestVerdict exit.request = .ok ())

include decided told finished parent requested

/-- Under `exit` durability the first stored checkpoint is the last. -/
theorem stored_runsAs (skips : exit.request.skips args = false)
    (exiting : args.durability = .exit) :
    RunsAs args (driveLoop args (fuel + 1) internal)
      (some (exit.request, (args.env internal.stepsThisInvocation).now)) := by
  let id := (exit.request.checkpoint args
    (args.env internal.stepsThisInvocation).now).id
  have ends : ∀ next, exit.next (some id) ≠ .loop next := by
    intro next loops
    have running := (decided.onward finished loops).1
    simp [PersistRequest.skips, exiting, running] at skips
  obtain ⟨ended, reached⟩ : ∃ ended : Except Fault Unit,
      (∃ fault, exit.next (some id) = .raise fault ∧ ended = .error fault) ∨
        exit.next (some id) = .close ∧ ended = .ok () := by
    cases reached : exit.next (some id) with
    | raise fault => exact ⟨_, .inl ⟨fault, rfl, rfl⟩⟩
    | close => exact ⟨_, .inr ⟨rfl, rfl⟩⟩
    | loop next => exact absurd reached (ends next)
  refine ⟨ended, actsObs (decideRound args internal).acts ++ exit.report (some id),
    fun order store past unguarded => ?_⟩
  refine driveLoop_exit told finished (performExit_open parent unguarded ?_ ?_ ?_)
  · intro error same
    cases requested.symm.trans same
  · intro _ same
    cases skips.symm.trans same
  · intro _ _
    show Program.ensures _ _ _ (afterStep args _ (exit.next (some id))) _ _
    rcases reached with ⟨fault, reached, rfl⟩ | ⟨reached, rfl⟩ <;> rw [reached]
    · exact ⟨rfl, by simp [id], rfl⟩
    · exact ⟨rfl, by simp [id], rfl⟩

theorem skipped_runsAs (skips : exit.request.skips args = true)
    (later : ∀ next, exit.next none = .loop next →
      (args.durability = .exit ∨ firstPut args fuel next = none) →
      RunsAs args (driveLoop args fuel next) (firstPut args fuel next)) :
    RunsAs args (driveLoop args (fuel + 1) internal)
      (firstPut args (fuel + 1) internal) := by
  have exiting : args.durability = .exit := (of_decide_eq_true skips).1
  let seen := actsObs (decideRound args internal).acts ++ exit.report none
  -- Whatever follows, the store is as the pass found it.
  have passes : ∀ {order store past post}, OpenTo args store →
      ((afterStep args (args.env internal.stepsThisInvocation)
        (exit.next none)).ensures (storeHandler order) (fun _ _ => True)
        (Program.followed (fun _ _ => True) (storeHandler order)
          (continueWith args fuel) post) store (past ++ seen)) →
      (driveLoop args (fuel + 1) internal).ensures (storeHandler order)
        (fun _ _ => True) post store past := by
    intro order store past post unguarded follows
    refine driveLoop_exit told finished
      (performExit_open parent unguarded ?_ ?_ ?_)
    · intro error same
      cases requested.symm.trans same
    · intro _ _
      rw [List.append_assoc]
      exact follows
    · intro _ same
      cases skips.symm.trans same
  cases reached : exit.next none with
  | raise fault =>
    have unput : firstPut args (fuel + 1) internal = none := by
      simp [firstPut, finished, requested, skips, reached]
    rw [unput]
    refine ⟨.error fault, seen, fun order store past unguarded => ?_⟩
    refine passes unguarded ?_
    rw [reached]
    exact ⟨rfl, rfl, rfl⟩
  | close =>
    have unput : firstPut args (fuel + 1) internal = none := by
      simp [firstPut, finished, requested, skips, reached]
    rw [unput]
    refine ⟨.ok (), seen, fun order store past unguarded => ?_⟩
    refine passes unguarded ?_
    rw [reached]
    exact ⟨rfl, rfl, rfl⟩
  | loop next =>
    cases signal : (args.env internal.stepsThisInvocation).abortedAfterStep with
    | false =>
      have same : firstPut args (fuel + 1) internal =
          firstPut args fuel next := by
        conv_lhs => unfold firstPut
        simp [finished, requested, skips, reached, signal]
      rw [same]
      obtain ⟨result, observations, rest⟩ := later next reached (.inl exiting)
      refine ⟨result, seen ++ observations,
        fun order store past unguarded => ?_⟩
      refine passes unguarded ?_
      rw [reached]
      show Program.ensures _ _ _ (ite _ _ _) _ _
      rw [if_neg (by simp [signal])]
      have goes := rest order store (past ++ seen) unguarded
      rw [List.append_assoc] at goes
      exact goes
    | true =>
      have parentless : next.parentCheckpointId = none := by
        rw [(decided.onward finished reached).2.1,
          ← (decided.parent finished).1, parent]
        rfl
      have stores : (abortExit args next).request.skips args = false := by
        simp [PersistRequest.skips, abortExit, terminalExit]
      cases aborts : requestVerdict (abortExit args next).request with
      | error error =>
        have unput : firstPut args (fuel + 1) internal = none := by
          simp [firstPut, finished, requested, skips, reached, signal, aborts]
        rw [unput]
        refine ⟨.error (.workflow error), seen,
          fun order store past unguarded => ?_⟩
        refine passes unguarded ?_
        rw [reached]
        show Program.ensures _ _ _ (ite _ _ _) _ _
        rw [if_pos signal]
        refine performExit_open parentless unguarded ?_ ?_ ?_
        · intro raised same
          cases aborts.symm.trans same
          exact ⟨rfl, rfl, rfl⟩
        · intro same
          cases aborts.symm.trans same
        · intro same
          cases aborts.symm.trans same
      | ok _ =>
        have put : firstPut args (fuel + 1) internal =
            some ((abortExit args next).request,
              (args.env internal.stepsThisInvocation).now) := by
          simp [firstPut, finished, requested, skips, reached, signal, aborts]
        rw [put]
        refine ⟨.error (.workflow (.aborted args.threadId
          args.abortReason)), seen, fun order store past unguarded => ?_⟩
        refine passes unguarded ?_
        rw [reached]
        show Program.ensures _ _ _ (ite _ _ _) _ _
        rw [if_pos signal]
        refine performExit_open parentless unguarded ?_ ?_ ?_
        · intro raised same
          cases aborts.symm.trans same
        · intro _ same
          cases stores.symm.trans same
        · intro _ _
          exact ⟨rfl, by simp [abortExit, terminalExit], rfl⟩

end Ends

variable {args : DriveRunArgs}

theorem driveLoop_runsAs (fuel : Nat) (parentless : internal.parentCheckpointId = none)
    (once : args.durability = .exit ∨ firstPut args fuel internal = none) :
    RunsAs args (driveLoop args fuel internal) (firstPut args fuel internal) := by
  induction fuel generalizing internal with
  | zero =>
    refine ⟨.ok (), [], fun order store past _ => ?_⟩
    exact ⟨rfl, by simp, rfl⟩
  | succ fuel ih =>
    have decided := decideRound_decided args internal
    have told := decided.told parentless
    cases finished : (decideRound args internal).finish with
    | error fault =>
      refine ⟨.error fault, actsObs (decideRound args internal).acts,
        fun order store past _ => ?_⟩
      rw [driveLoop, Program.bind_eq, Program.ensures_bind]
      apply ensures_driveRound
      · intros
        trivial
      · intro raised same
        cases finished.symm.trans same
        refine ⟨rfl, rfl, ?_⟩
        rw [told.store]
        simp [firstPut, finished, afterPut]
      · intro exit same
        cases finished.symm.trans same
    | ok exit =>
      have parent := (decided.parent finished).1.trans parentless
      cases requested : requestVerdict exit.request with
      | error error =>
        have unput : firstPut args (fuel + 1) internal = none := by
          simp [firstPut, finished, requested]
        rw [unput]
        refine ⟨.error (.workflow error),
          actsObs (decideRound args internal).acts,
          fun order store past unguarded => ?_⟩
        refine driveLoop_exit told finished
          (performExit_open parent unguarded ?_ ?_ ?_)
        · intro raised same
          cases requested.symm.trans same
          exact ⟨rfl, rfl, rfl⟩
        · intro same
          cases requested.symm.trans same
        · intro same
          cases requested.symm.trans same
      | ok _ =>
        cases skips : exit.request.skips args with
        | false =>
          have put : firstPut args (fuel + 1) internal =
              some (exit.request,
                (args.env internal.stepsThisInvocation).now) := by
            simp [firstPut, finished, requested, skips]
          have exiting : args.durability = .exit := by
            rcases once with exits | never
            · exact exits
            · cases put.symm.trans never
          rw [put]
          exact stored_runsAs decided told finished parent requested
            skips exiting
        | true =>
          exact skipped_runsAs decided told finished parent requested
            skips fun next loops => ih
              ((decided.onward finished loops).2.1.trans parentless)

structure Overlooked (args : DriveRunArgs) (run : Nat)
    (store : CheckpointStore) : Prop where
  stored : ∃ tuple ∈ store, tuple.checkpoint.id.run = run
  latest : ∃ tuple,
    store.latest args.threadId (namespaceFor args.config) = some tuple ∧
      tuple.checkpoint.id.run ≠ run

theorem Overlooked.acts (overlooked : Overlooked args run store) (acts : List Act) :
    Overlooked args run (actsStore args store acts) := by
  obtain ⟨⟨own, listed, drawn⟩, tuple, latest, other⟩ := overlooked
  refine ⟨?_, _, latest_actsStore latest acts, other⟩
  clear latest
  induction acts generalizing store own with
  | nil => exact ⟨own, listed, drawn⟩
  | cons act _ ih =>
    cases act with
    | tell => exact ih own listed drawn
    | journal target writes owner =>
      have kept := (CheckpointStore.writeTuple_header args.threadId
        (namespaceFor args.config) target writes owner own).1
      exact ih _ (List.mem_map_of_mem listed) (by rw [kept]; exact drawn)

theorem persistVerdict_overlooked (overlooked : Overlooked args run store)
    (drawn : parentId.run = run)
    (parent : request.internal.parentCheckpointId = some parentId)
    (syncs : args.durability = .sync) :
    ∃ error, persistVerdict args request store = .error error := by
  obtain ⟨-, tuple, latest, other⟩ := overlooked
  have different : tuple.checkpoint.id ≠ parentId := by
    rintro rfl
    exact other drawn
  have conflicts : ∃ error, guardVerdict args request store = .error error := by
    refine ⟨.checkpointVersionConflict args.threadId (some parentId)
      (some tuple.checkpoint.id), ?_⟩
    unfold guardVerdict
    rw [latest]
    simp [precheck, parent, different, bind, Except.bind]
  obtain ⟨error, refused⟩ := conflicts
  have writes : request.skips args = false := by
    simp [PersistRequest.skips, syncs]
  unfold persistVerdict
  cases frontierSafe request with
  | error raised => exact ⟨raised, rfl⟩
  | ok => exact ⟨error, by simp [writes, refused, bind, Except.bind]⟩

section Sync

variable {args : DriveRunArgs} {run : Nat} {order : RowOrder}
variable (syncs : args.durability = .sync)

include syncs

theorem performExit_overlooked {exit : Exit} {now : Nat}
    {store : CheckpointStore} {past : List Obs}
    (overlooked : Overlooked args run store) {parentId : Id}
    (drawn : parentId.run = run)
    (parent : exit.request.internal.parentCheckpointId = some parentId) :
    (performExit args now exit).ensures (storeHandler order) (fun _ _ => True)
      (fun result final _ => (∃ fault, result = .error fault) ∧
        Overlooked args run final) store past := by
  obtain ⟨error, refused⟩ :=
    persistVerdict_overlooked overlooked drawn parent syncs
  apply ensures_performExit trivial
  · intro raised _
    exact ⟨⟨_, rfl⟩, overlooked⟩
  · intro same
    cases refused.symm.trans same
  · intros
    trivial
  · intro same
    cases refused.symm.trans same

theorem driveLoop_overlooked {fuel : Nat} {past : List Obs}
    (overlooked : Overlooked args run store) (drawn : parentId.run = run)
    (parent : internal.parentCheckpointId = some parentId) :
    (driveLoop args fuel internal).ensures (storeHandler order)
      (fun _ _ => True) (fun _ final _ => Overlooked args run final) store
      past := by
  cases fuel with
  | zero => exact overlooked
  | succ =>
    rw [driveLoop, Program.bind_eq, Program.ensures_bind]
    apply ensures_driveRound
    · intros
      trivial
    · intro fault _
      exact overlooked.acts _
    · intro exit finished
      have kept := (decideRound_decided args internal).parent finished
      refine Program.ensures_mono ?_ (performExit_overlooked syncs
        (overlooked.acts _) drawn (kept.1.trans parent))
      rintro result final seen ⟨⟨fault, rfl⟩, reached⟩
      exact reached

/-- Under `sync` durability the first pass stores a checkpoint or ends the
run. -/
theorem firstPut_sync (found : firstPut args (fuel + 1) internal = some put) :
    ∃ exit, (decideRound args internal).finish = .ok exit ∧
      requestVerdict exit.request = .ok () ∧
      put = (exit.request, (args.env internal.stepsThisInvocation).now) := by
  have writes : ∀ request : PersistRequest, request.skips args = false := by
    intro request
    simp [PersistRequest.skips, syncs]
  unfold firstPut at found
  cases finished : (decideRound args internal).finish with
  | error => simp [finished] at found
  | ok exit =>
    cases requested : requestVerdict exit.request with
    | error => simp [finished, requested] at found
    | ok =>
      simp only [finished, requested, writes, Bool.false_eq_true, if_false,
        Option.some.injEq] at found
      exact ⟨exit, rfl, requested, found.symm⟩

end Sync

variable {args : DriveRunArgs}

variable {store : CheckpointStore} {tuple : CheckpointTuple}

theorem overlooked_storedIn {request : PersistRequest} (now : Nat)
    (fresh : store.Every fun checkpoint _ => checkpoint.id.run ≠ request.internal.run)
    (latest : store.latest args.threadId (namespaceFor args.config) = some tuple)
    (older : request.internal.stepNumber ≤ tuple.checkpoint.stepNumber) :
    Overlooked args request.internal.run (request.storedIn args now store) := by
  have unused : store.Every fun stored _ =>
      stored.id ≠ (request.checkpoint args now).id :=
    fresh.mono fun stored _ other same => other (by rw [same]; rfl)
  refine ⟨?_, tuple, ?_, fresh tuple (CheckpointStore.latest_mem latest).1⟩
  · rw [PersistRequest.storedIn, PersistRequest.inserted,
      CheckpointStore.insert_unused unused, putAll_eq, List.map_append]
    refine ⟨_, List.mem_append_right _ List.mem_cons_self, ?_⟩
    dsimp only
    rw [if_pos ⟨rfl, rfl, rfl⟩]
    rfl
  · rw [latest_storedIn unused, latest]
    exact if_neg (by omega)

theorem firstPut_request (found : firstPut args fuel internal = some put) :
    put.1.internal.run = internal.run ∧
      internal.stepNumber ≤ put.1.internal.stepNumber ∧ (args.durability = .sync →
        put.1.internal.stepNumber = internal.stepNumber) := by
  induction fuel generalizing internal with
  | zero => cases found
  | succ fuel ih =>
    have decided := decideRound_decided args internal
    unfold firstPut at found
    cases finished : (decideRound args internal).finish with
    | error => simp [finished] at found
    | ok exit =>
      obtain ⟨-, run, steps⟩ := decided.parent finished
      cases requested : requestVerdict exit.request with
      | error => simp [finished, requested] at found
      | ok _ =>
        simp only [finished, requested] at found
        split at found
        · rename_i skips
          have exiting := (of_decide_eq_true skips).1
          split at found
          · rename_i next reached
            obtain ⟨-, -, step, sameRun⟩ := decided.onward finished reached
            split at found
            · split at found
              · cases found
              · cases found
                refine ⟨sameRun, ?_, by simp [exiting]⟩
                show internal.stepNumber ≤ next.stepNumber
                omega
            · obtain ⟨own, later, -⟩ := ih found
              exact ⟨own.trans sameRun, by omega, by simp [exiting]⟩
          · cases found
        · cases found
          exact ⟨run, Nat.le_of_eq steps.symm, fun _ => steps⟩

/-- Under `sync` durability a fresh run that is not newer from the start is
overlooked. -/
theorem driveLoop_sync {order : RowOrder} {fuel : Nat} {internal : RunInternalState}
    {past : List Obs} {put : PersistRequest × Nat} (syncs : args.durability = .sync)
    (parentless : internal.parentCheckpointId = none) (unguarded : OpenTo args store)
    (fresh : store.Every fun checkpoint _ => checkpoint.id.run ≠ internal.run)
    (latest : store.latest args.threadId (namespaceFor args.config) = some tuple)
    (older : internal.stepNumber ≤ tuple.checkpoint.stepNumber)
    (found : firstPut args (fuel + 1) internal = some put) :
    (driveLoop args (fuel + 1) internal).ensures (storeHandler order)
      (fun _ _ => True) (fun _ final _ => Overlooked args internal.run final)
      store past := by
  have decided := decideRound_decided args internal
  obtain ⟨exit, finished, requested, rfl⟩ := firstPut_sync syncs found
  obtain ⟨parent, run, steps⟩ := decided.parent finished
  have writes : exit.request.skips args = false := by
    simp [PersistRequest.skips, syncs]
  refine driveLoop_exit (decided.told parentless) finished
    (performExit_open (parent.trans parentless) unguarded ?_ ?_ ?_)
  · intro error same
    cases requested.symm.trans same
  · intro _ same
    cases writes.symm.trans same
  · intro _ _
    have overlooked : Overlooked args internal.run (exit.request.storedIn args
        (args.env internal.stepsThisInvocation).now store) := by
      rw [← run] at fresh ⊢
      exact overlooked_storedIn _ fresh latest (by omega)
    show Program.ensures _ _ _ (afterStep args _ (exit.next _)) _ _
    cases reached : exit.next (some (exit.request.checkpoint args
        (args.env internal.stepsThisInvocation).now).id) with
    | raise => exact overlooked
    | close => exact overlooked
    | loop next =>
      have pointed := (decided.onward finished reached).2.1
      rw [parentless] at pointed
      show Program.ensures _ _ _ (ite _ _ _) _ _
      split
      · refine Program.ensures_mono ?_ (@performExit_overlooked _ _ _ syncs
          (abortExit args next) _ _ _ overlooked _ run pointed)
        rintro result final seen ⟨⟨fault, rfl⟩, kept⟩
        exact kept
      · exact driveLoop_overlooked syncs overlooked run pointed

def eventsOf (observations : List Obs) : List WorkflowEvent :=
  observations.filterMap fun
    | .event event => some event
    | _ => none

def lastOf (run : Nat) (store : CheckpointStore) : Option CheckpointTuple :=
  (store.filter fun tuple => tuple.checkpoint.id.run = run).getLast?

/-- The call does on the thread what it would do on an unused one, and leaves
its own last checkpoint as the thread's latest. -/
structure RunsAsUnused (config : WorkflowConfig) (threadId : String)
    (order : RowOrder) (thread : Thread) (call : Call) : Prop where
  events :
    eventsOf (call.play config threadId order thread.log.length
      thread.store).1 =
    eventsOf (call.play config threadId order thread.log.length []).1
  latest : ∀ tuple,
    lastOf thread.log.length (call.play config threadId order
      thread.log.length thread.store).2 = some tuple →
    (call.play config threadId order thread.log.length thread.store).2.latest
      threadId (namespaceFor config) = some tuple

def executeCall (input : Record String JsValue) (options : InvocationOptions) :
    Call where
  invocation := .execute input
  options := options

/-- The first checkpoint an `execute` stores on a thread open to it. -/
def executePut (config : WorkflowConfig) (threadId : String)
    (options : InvocationOptions) (input : Record String JsValue) (run : Nat) :
    Option (PersistRequest × Nat) :=
  firstPut (driveArgs config threadId options) (config.stepCap + 1)
    (initialInternal config input run)

section Execute

variable {config : WorkflowConfig} {threadId : String} {order : RowOrder}
variable {options : InvocationOptions} {input : Record String JsValue}
variable {run : Nat}

theorem execute_play {store : CheckpointStore}
    {claim : CheckpointStore → List Obs → Prop}
    (drives : (driveLoop (driveArgs config threadId options)
        (config.stepCap + 1) (initialInternal config input run)).ensures
      (storeHandler order) (fun _ _ => True)
      (reporting threadId fun _ => claim) store
      [.event (.start threadId config.name)]) :
    claim ((executeCall input options).play config threadId order run store).2
      ((executeCall input options).play config threadId order run store).1 := by
  have ends := Program.run_of_ensures (@ensures_driveReporting order
    (fun _ _ => True) (fun _ => claim) store
    [.event (.start threadId config.name)] (driveArgs config threadId options)
    (initialInternal config input run) drives)
  exact ends

/-- Where at most one checkpoint is put, the store is not seen. -/
theorem execute_runsAs
    (once : (driveArgs config threadId options).durability = .exit ∨
      executePut config threadId options input run = none) :
    ∃ observations, ∀ store, OpenTo (driveArgs config threadId options) store →
      (executeCall input options).play config threadId order run store =
        (observations, afterPut (driveArgs config threadId options) store
          (executePut config threadId options input run)) := by
  obtain ⟨result, observations, runs⟩ := driveLoop_runsAs
    (config.stepCap + 1) (@rfl _ (initialInternal config input
      run).parentCheckpointId) once
  let reported := match result with
    | .ok _ => []
    | .error fault => [emitError threadId fault]
  refine ⟨[.event (.start threadId config.name)] ++ observations ++ reported,
    fun store unguarded => ?_⟩
  have played := @execute_play config threadId order options input run store
    (fun final seen => seen = [.event (.start threadId config.name)] ++
      observations ++ reported ∧
      final = afterPut (driveArgs config threadId options) store
        (executePut config threadId options input run)) (by
    refine Program.ensures_mono ?_ (runs order store _ unguarded)
    rintro reached final seen ⟨rfl, rfl, rfl⟩
    cases reached with
    | ok => exact ⟨by simp [reported], rfl⟩
    | error => exact ⟨rfl, rfl⟩)
  exact Prod.ext played.1 played.2

theorem lastOf_older (fresh : store.Every fun checkpoint _ => checkpoint.id.run ≠ run) :
    lastOf run store = none := by
  unfold lastOf
  rw [List.filter_eq_nil_iff.mpr]
  · rfl
  · intro tuple member
    simpa using fresh tuple member

theorem lastOf_storedIn {args : DriveRunArgs} {store : CheckpointStore}
    {request : PersistRequest} (now : Nat) (fresh : store.Every fun checkpoint _ =>
      checkpoint.id.run ≠ request.internal.run) :
    lastOf request.internal.run (request.storedIn args now store) =
      some ⟨request.checkpoint args now, request.metadata args,
        putRows [] request.pendingWritesByTask⟩ := by
  have unused : store.Every fun stored _ =>
      stored.id ≠ (request.checkpoint args now).id :=
    fresh.mono fun stored _ other same => other (by rw [same]; rfl)
  unfold lastOf
  rw [PersistRequest.storedIn, PersistRequest.inserted,
    CheckpointStore.insert_unused unused, putAll_eq, List.map_append,
    List.filter_append, List.filter_eq_nil_iff.mpr]
  · simp [PersistRequest.checkpoint]
  · intro tuple member
    obtain ⟨old, stored, rfl⟩ := List.mem_map.mp member
    have other := fresh old stored
    split <;> simpa using other

/-- An ended thread runs again as an unused one would if and only if the new
run's first stored checkpoint has a greater step number than the old thread's
latest. -/
theorem rerun_as_unused_iff {thread : Thread} {tuple : CheckpointTuple}
    (reached : Reaches config threadId order (fun _ _ => True) thread)
    (latest : thread.store.latest threadId (namespaceFor config) = some tuple)
    (ended : tuple.metadata.status = .completed ∨
      tuple.metadata.status = .failed ∨ tuple.metadata.status = .aborted)
    (options : InvocationOptions) (input : Record String JsValue) :
    RunsAsUnused config threadId order thread (executeCall input options) ↔
      ∀ request now, executePut config threadId options input thread.log.length =
          some (request, now) →
        tuple.checkpoint.stepNumber < request.internal.stepNumber := by
  have fresh : thread.store.Every fun checkpoint _ =>
      checkpoint.id.run ≠ thread.log.length := by
    refine reached.fresh.older.mono fun checkpoint _ older same => ?_
    rcases older with earlier | ⟨-, never⟩ <;> omega
  have unguarded : OpenTo (driveArgs config threadId options) thread.store := by
    intro other found
    cases latest.symm.trans found
    rcases ended with status | status | status <;> simp [status]
  have empty : OpenTo (driveArgs config threadId options) [] := by
    rintro _ ⟨⟩
  constructor
  · intro runs request now found
    refine Nat.lt_of_not_le fun older => ?_
    obtain ⟨own, -, -⟩ := firstPut_request found
    have overlooked : Overlooked (driveArgs config threadId options)
        thread.log.length ((executeCall input options).play config threadId
          order thread.log.length thread.store).2 := by
      cases mode : (driveArgs config threadId options).durability with
      | exit =>
        obtain ⟨observations, plays⟩ := @execute_runsAs config threadId order
          options input thread.log.length (.inl mode)
        rw [plays _ unguarded, found]
        change request.internal.run = thread.log.length at own
        rw [← own] at fresh ⊢
        exact overlooked_storedIn now fresh latest older
      | sync =>
        refine @execute_play config threadId order options input _ _
          (fun final _ => Overlooked _ _ final) ?_
        refine Program.ensures_mono ?_ (driveLoop_sync mode rfl unguarded
          fresh latest (Nat.zero_le _) found)
        intro result final seen kept
        cases result <;> exact kept
    obtain ⟨⟨stored, listed, drawn⟩, other, foundLatest, different⟩ := overlooked
    cases last : lastOf thread.log.length ((executeCall input options).play
        config threadId order thread.log.length thread.store).2 with
    | none =>
      unfold lastOf at last
      rw [List.getLast?_eq_none_iff, List.filter_eq_nil_iff] at last
      exact last stored listed (by simpa using drawn)
    | some newest =>
      cases (runs.latest newest last).symm.trans foundLatest
      unfold lastOf at last
      have kept := List.mem_of_getLast? last
      exact different (by simpa using (List.mem_filter.mp kept).2)
  · intro newer
    have once : (driveArgs config threadId options).durability = .exit ∨
        executePut config threadId options input thread.log.length = none := by
      cases mode : (driveArgs config threadId options).durability with
      | exit => exact .inl rfl
      | sync =>
        cases found : executePut config threadId options input
            thread.log.length with
        | none => exact .inr rfl
        | some put =>
          have above := newer put.1 put.2 found
          have started := (firstPut_request found).2.2 mode
          change put.1.internal.stepNumber = 0 at started
          omega
    obtain ⟨observations, plays⟩ := @execute_runsAs config threadId order
      options input thread.log.length once
    refine ⟨by rw [plays _ unguarded, plays _ empty], ?_⟩
    rw [plays _ unguarded]
    cases found : executePut config threadId options input
        thread.log.length with
    | none =>
      intro last own
      cases (lastOf_older fresh).symm.trans own
    | some put =>
      obtain ⟨request, now⟩ := put
      have own : request.internal.run = thread.log.length :=
        (firstPut_request found).1
      intro last isLast
      change lastOf _ (request.storedIn _ now thread.store) = _ at isLast
      rw [← own] at fresh isLast
      rw [lastOf_storedIn now fresh] at isLast
      cases isLast
      have unused : thread.store.Every fun stored _ => stored.id ≠
          (request.checkpoint (driveArgs config threadId options) now).id :=
        fresh.mono fun stored _ other same => other (by rw [same]; rfl)
      have stored := latest_storedIn unused
      rw [show thread.store.latest (driveArgs config threadId options).threadId
        (namespaceFor (driveArgs config threadId options).config) =
          some tuple from latest] at stored
      simp only [newer request now found, if_true] at stored
      exact stored

end Execute

/-! One node that fails in state 0 of the world, then `__end__`. -/

def oneNodeConfig : WorkflowConfig where
  name := "one"
  nodes := [("a",
    { run := fun ambient _ =>
        if ambient = 0 then .throw (.thrown "down") else .ret .nothing })]
  edges := [⟨startNode, "a", none⟩, ⟨"a", endNode, none⟩]
  channels := []

def oneNode : Workflow := ⟨oneNodeConfig, rfl⟩

def oneNodeOptions (ambient : Nat) (mode : DurabilityMode) :
    InvocationOptions where
  durability := some mode
  env := fun _ => { task := fun _ => { ambient := fun _ => ambient } }
  run := 0

def oneNodeThread (ambient : Nat) : Thread :=
  Thread.unused.step oneNodeConfig "t" .inserted
    (executeCall [] (oneNodeOptions ambient .sync))

theorem second_execute_conflicts :
    ¬ ∀ (workflow : Workflow) (threadId : String) (order : RowOrder)
      (thread : Thread) (tuple : CheckpointTuple),
      Reaches workflow.config threadId order (fun _ _ => True) thread →
      thread.store.latest threadId (namespaceFor workflow.config) = some tuple →
      tuple.metadata.status = .completed ∨ tuple.metadata.status = .failed ∨
        tuple.metadata.status = .aborted → ∀ input options,
        RunsAsUnused workflow.config threadId order thread
          (executeCall input options) := by
  intro always
  have completed : (((oneNodeThread 1).store.latest "t"
      (namespaceFor oneNodeConfig)).map fun tuple =>
        tuple.metadata.status) = some .completed := by decide
  obtain ⟨tuple, latest, status⟩ := Option.map_eq_some_iff.mp completed
  have runs := always oneNode "t" .inserted (oneNodeThread 1) tuple
    (.call .unused _ trivial) latest (.inl status) []
    (oneNodeOptions 1 .sync)
  have events := congrArg (List.map WorkflowEvent.ctorIdx) runs.events
  revert events
  decide

theorem longer_execute_runs_again :
    RunsAsUnused oneNodeConfig "t" .inserted (oneNodeThread 0)
      (executeCall [] (oneNodeOptions 1 .exit)) := by
  have failed : (((oneNodeThread 0).store.latest "t"
      (namespaceFor oneNodeConfig)).map fun tuple =>
        (tuple.metadata.status, tuple.checkpoint.stepNumber)) =
          some (.failed, 0) := by decide
  obtain ⟨tuple, latest, shown⟩ := Option.map_eq_some_iff.mp failed
  obtain ⟨status, steps⟩ := Prod.mk.inj shown
  apply (rerun_as_unused_iff (.call .unused _ trivial) latest
    (.inr (.inl status)) (oneNodeOptions 1 .exit) []).mpr
  intro request now found
  have put : (executePut oneNodeConfig "t" (oneNodeOptions 1 .exit) []
      (oneNodeThread 0).log.length).map (fun put =>
        put.1.internal.stepNumber) = some 1 := by decide
  change executePut oneNodeConfig "t" (oneNodeOptions 1 .exit) []
    (oneNodeThread 0).log.length = some (request, now) at found
  rw [found] at put
  have last : request.internal.stepNumber = 1 := Option.some.inj put
  omega

end Graphorin.Workflow
