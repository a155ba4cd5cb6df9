import Graphorin.Workflow.Persist
import Graphorin.Workflow.Rounds

namespace Graphorin.Workflow

open Graphorin.Lib
open Graphorin.Js

/-! Rules for the parts of the loop: acts, exits, rounds, and the loop itself
under an invariant of the run state. -/

def Act.obs : Act → List Obs
  | .tell obs => [obs]
  | .journal _ _ _ => []

def Act.play (args : DriveRunArgs) (store : CheckpointStore) :
    Act → CheckpointStore
  | .tell _ => store
  | .journal checkpointId writes taskId =>
    store.addWrites args.threadId (namespaceFor args.config) checkpointId
      writes taskId

def actsObs (acts : List Act) : List Obs := acts.flatMap Act.obs

def actsStore (args : DriveRunArgs) (store : CheckpointStore)
    (acts : List Act) : CheckpointStore :=
  acts.foldl (Act.play args) store

@[simp] theorem actsObs_nil : actsObs [] = [] := rfl

@[simp] theorem actsObs_cons (act : Act) (acts : List Act) :
    actsObs (act :: acts) = act.obs ++ actsObs acts := rfl

@[simp] theorem actsObs_append (before after : List Act) :
    actsObs (before ++ after) = actsObs before ++ actsObs after := by
  simp [actsObs]

@[simp] theorem actsStore_nil (args : DriveRunArgs) (store : CheckpointStore) :
    actsStore args store [] = store := rfl

@[simp] theorem actsStore_cons (args : DriveRunArgs) (store : CheckpointStore)
    (act : Act) (acts : List Act) : actsStore args store (act :: acts) =
      actsStore args (act.play args store) acts := rfl

theorem CheckpointStore.Every.acts (every : store.Every claim) (args : DriveRunArgs)
    (acts : List Act) : (actsStore args store acts).Every claim := by
  induction acts generalizing store with
  | nil => exact every
  | cons act _ ih =>
    cases act with
    | tell => exact ih every
    | journal =>
      exact ih (every.addWrites _ _ _ _ _)

section Rules

variable {order : RowOrder} {stop : CheckpointStore → List Obs → Prop}
variable {args : DriveRunArgs}

variable {store : CheckpointStore} {past : List Obs}

theorem ensures_playActs
    (halting : ∀ before after, acts = before ++ after → stop (actsStore args store before)
      (past ++ actsObs before))
    (ending : post (.ok ()) (actsStore args store acts) (past ++ actsObs acts)) :
    (playActs args acts).ensures (storeHandler order) stop post store past := by
  induction acts generalizing store past with
  | nil => simpa [playActs, Program.pure_eq] using ending
  | cons act rest ih =>
    have later : (playActs args rest).ensures (storeHandler order) stop post
        (act.play args store) (past ++ act.obs) := by
      apply ih
      · intro before after split
        simpa using halting (act :: before) after (by rw [split]; rfl)
      · simpa using ending
    cases act with
    | tell => exact later
    | journal =>
      refine ⟨by simpa using halting [] _ rfl, ?_⟩
      rw [Act.obs, List.append_nil] at later
      exact later

theorem ensures_performExit (halted : stop store past)
    (refused : ∀ error, persistVerdict args exit.request store = .error error →
      post (.error (.workflow error)) store past)
    (skipped : persistVerdict args exit.request store = .ok false →
      post (.ok (exit.next none)) store (past ++ exit.report none))
    (halting : persistVerdict args exit.request store = .ok true → ∀ before after,
      exit.request.pendingWritesByTask = before ++ after →
        stop ((exit.request.inserted args now store).putAll args
          (exit.request.checkpoint args now).id before) past)
    (stored : persistVerdict args exit.request store = .ok true →
      post (.ok (exit.next (some (exit.request.checkpoint args now).id)))
        (exit.request.storedIn args now store)
          (past ++ exit.report (some (exit.request.checkpoint args now).id))) :
    (performExit args now exit).ensures (storeHandler order) stop post store
      past := by
  rw [performExit, Program.bind_eq, Program.ensures_bind]
  apply ensures_persistCheckpoint halted refused
  · intro verdict
    show Program.ensures _ _ _ (Program.bind _ _) _ _
    rw [Program.ensures_bind, Program.ensures_tellAll]
    exact skipped verdict
  · exact halting
  · intro verdict
    show Program.ensures _ _ _ (Program.bind _ _) _ _
    rw [Program.ensures_bind, Program.ensures_tellAll]
    exact stored verdict

/-- A round is its acts, its exit, and the second look at the signal. -/
theorem ensures_driveRound
    (halting : ∀ before after, (decideRound args internal).acts = before ++ after →
      stop (actsStore args store before) (past ++ actsObs before))
    (faulted : ∀ fault, (decideRound args internal).finish = .error fault → post (.error fault)
      (actsStore args store (decideRound args internal).acts)
        (past ++ actsObs (decideRound args internal).acts))
    (exits : ∀ exit, (decideRound args internal).finish = .ok exit →
      (performExit args (args.env internal.stepsThisInvocation).now exit).ensures
        (storeHandler order) stop
          (Program.followed stop (storeHandler order)
            (afterStep args (args.env internal.stepsThisInvocation)) post)
              (actsStore args store (decideRound args internal).acts)
                (past ++ actsObs (decideRound args internal).acts)) :
    (driveRound args internal).ensures (storeHandler order) stop post store
      past := by
  rw [driveRound, Program.bind_eq, Program.ensures_bind]
  refine ensures_playActs halting ?_
  show Program.ensures _ _ _ (Program.bind _ _) _ _
  rw [Program.ensures_bind]
  cases finished : (decideRound args internal).finish with
  | error fault => exact faulted fault finished
  | ok exit => exact exits exit finished

private theorem performExit_next {now : Nat} {exit : Exit} :
    (performExit args now exit).ensures (storeHandler order) (fun _ _ => True)
      (fun result _ _ => ∀ next, result = .ok next →
        ∃ checkpointId, next = exit.next checkpointId) store past := by
  apply ensures_performExit trivial
  · intro error _ next answered
    cases answered
  · rintro _ _ ⟨⟩
    exact ⟨_, rfl⟩
  · intros
    trivial
  · rintro _ _ ⟨⟩
    exact ⟨_, rfl⟩

theorem driveRound_counts (internal : RunInternalState)
    (store : CheckpointStore) (past : List Obs) :
    (driveRound args internal).ensures (storeHandler order) (fun _ _ => True)
      (fun result _ _ => ∀ next, result = .ok (.loop next) →
        internal.stepsThisInvocation < args.config.stepCap ∧
          next.stepsThisInvocation = internal.stepsThisInvocation + 1)
      store past := by
  apply ensures_driveRound
  · intros
    trivial
  · intro fault _ next looped
    cases looped
  · intro exit finished
    refine Program.ensures_mono ?_ performExit_next
    intro result store past known
    cases result with
    | error fault =>
      intro next looped
      cases looped
    | ok next =>
      obtain ⟨checkpointId, reached⟩ := known next rfl
      cases next with
      | raise => rintro _ ⟨⟩
      | close => rintro _ ⟨⟩
      | loop again =>
        show Program.ensures _ _ _ (ite _ _ _) _ _
        split
        · refine Program.ensures_mono ?_ performExit_next
          intro result store past known again looped
          obtain ⟨checkpointId, reached⟩ := known _ looped
          cases reached
        · rintro _ ⟨⟩
          exact (decideRound_decided args internal).loops finished
            reached.symm

def roundPost
    (invariant : RunInternalState → CheckpointStore → List Obs → Prop)
    (post : Except Fault Unit → CheckpointStore → List Obs → Prop) :
    Except Fault Next → CheckpointStore → List Obs → Prop
  | .error fault, store, past => post (.error fault) store past
  | .ok (.raise fault), store, past => post (.error fault) store past
  | .ok .close, store, past => post (.ok ()) store past
  | .ok (.loop internal), store, past => invariant internal store past

/-- Invariant rule of the loop.  The passes are counted against `maxSteps`, so
the fuel never runs out. -/
theorem ensures_driveLoop
    (round : ∀ internal store past, invariant internal store past →
      (driveRound args internal).ensures (storeHandler order) stop (roundPost invariant post)
        store past)
    (holds : invariant internal store past) (fuel : Nat)
    (enough : args.config.stepCap < internal.stepsThisInvocation + fuel)
    (started : internal.stepsThisInvocation ≤ args.config.stepCap) :
    (driveLoop args fuel internal).ensures (storeHandler order) stop post store
      past := by
  induction fuel generalizing internal store past with
  | zero => omega
  | succ fuel ih =>
    rw [driveLoop, Program.bind_eq, Program.ensures_bind]
    have counted := Program.ensures_and (round internal store past holds)
      (driveRound_counts internal store past)
    refine Program.ensures_mono ?_ counted
    rintro result store past ⟨reached, counts⟩
    match result with
    | .error fault => exact reached
    | .ok (.raise fault) => exact reached
    | .ok .close => exact reached
    | .ok (.loop next) =>
      obtain ⟨below, counted⟩ := counts next rfl
      exact ih reached (by omega) (by omega)

theorem ensures_driveRun
    {invariant : RunInternalState → CheckpointStore → List Obs → Prop}
    {post : Except Fault Unit → CheckpointStore → List Obs → Prop}
    (round : ∀ internal store past, invariant internal store past →
      (driveRound args internal).ensures (storeHandler order) stop
        (roundPost invariant post) store past)
    {internal : RunInternalState} {store : CheckpointStore} {past : List Obs}
    (holds : invariant internal store past)
    (fresh : internal.stepsThisInvocation = 0) :
    (driveRun args internal).ensures (storeHandler order) stop post store past :=
  ensures_driveLoop round holds _ (by omega) (by omega)

end Rules

variable {args : DriveRunArgs}

/-- Behind a step's checkpoint an abort asks to store the same once more. -/
theorem requestVerdict_abort (finished : (decideRound args internal).finish = .ok exit)
    (loops : exit.next checkpointId = .loop next) :
    requestVerdict (abortExit args next).request = requestVerdict exit.request := by
  have status := ((decideRound_decided args internal).onward finished loops).1
  obtain ⟨merged, rfl⟩ := (decideRound_decided args internal).running finished
    status
  cases loops
  rfl

/-- Only the checkpoint of a step after which the loop goes on is skipped. -/
theorem Decided.skipped {round : Round} (decided : Decided args internal round)
    (finished : round.finish = .ok exit) (skips : exit.request.skips args = true) :
    ∃ merged, exit = runningExit args merged := by
  have running : args.durability = .exit ∧ exit.request.status = .running := by
    simpa [PersistRequest.skips] using skips
  exact decided.running finished running.2

inductive Passes (args : DriveRunArgs) (start : RunInternalState) :
    RunInternalState → Prop
  | start : Passes args start start
  | onward {internal next : RunInternalState} {exit : Exit}
      {checkpointId : Option Id} (earlier : Passes args start internal)
      (finished : (decideRound args internal).finish = .ok exit)
      (loops : exit.next checkpointId = .loop next) : Passes args start next

def SafePass (args : DriveRunArgs) (internal : RunInternalState) : Prop :=
  ∃ exit, (decideRound args internal).finish = .ok exit ∧
    requestVerdict exit.request = .ok ()

/-- What goes wrong in a pass by itself. -/
def PassFaults (args : DriveRunArgs) (internal : RunInternalState) (fault : Fault) :
    Prop :=
  (decideRound args internal).finish = .error fault ∨
    ∃ exit error, (decideRound args internal).finish = .ok exit ∧
      requestVerdict exit.request = .error error ∧ fault = .workflow error

theorem SafePass.faultless (safe : SafePass args internal) (fault : Fault) :
    ¬ PassFaults args internal fault := by
  obtain ⟨exit, finished, passed⟩ := safe
  rintro (thrown | ⟨other, error, also, refused, -⟩)
  · cases finished.symm.trans thrown
  · cases finished.symm.trans also
    cases passed.symm.trans refused

def SafeRun (args : DriveRunArgs) (start : RunInternalState) : Prop :=
  ∀ internal, Passes args start internal → SafePass args internal

theorem safeRun_of_last (safe : SafePass args start)
    (last : ∀ exit, (decideRound args start).finish = .ok exit → ∀ checkpointId next,
      exit.next checkpointId ≠ .loop next) :
    SafeRun args start := by
  intro internal passes
  have only : internal = start := by
    induction passes with
    | start => rfl
    | onward _ finished loops ih =>
      subst ih
      exact absurd loops (last _ finished _ _)
  rw [only]
  exact safe

end Graphorin.Workflow
