import Graphorin.Workflow.Linear

namespace Graphorin.Workflow

open Graphorin.Lib
open Graphorin.Js

/-! Invocations on several threads of one store. -/

/-- A call names the thread it is made for, and a checkpoint it puts is of that
thread and of the run that makes it. -/
def StoreOp.Names (threadId : String) (run : Nat) : StoreOp → Prop
  | .getTuple thread _ => thread = threadId
  | .put thread _ checkpoint _ _ =>
    thread = threadId ∧ checkpoint.threadId = threadId ∧ checkpoint.id.run = run
  | .putWrites thread _ _ _ _ => thread = threadId

namespace CheckpointStore

def onThread (threadId : String) (store : CheckpointStore) : CheckpointStore :=
  store.filter fun tuple => tuple.checkpoint.threadId = threadId

variable {store : CheckpointStore} {threadId thread : String}

theorem onThread_latest (namespaceName : String) :
    (store.onThread threadId).latest threadId namespaceName =
      store.latest threadId namespaceName := by
  unfold latest ofThread onThread
  rw [List.filter_filter]
  congr 1
  refine List.filter_congr fun tuple _ => ?_
  by_cases own : tuple.checkpoint.threadId = threadId
  · simp [own]
  · simp [own]

theorem onThread_conflictOf (namespaceName : String) (expected : Option (Option Id)) :
    (store.onThread threadId).conflictOf threadId namespaceName expected =
      store.conflictOf threadId namespaceName expected := by
  cases expected with
  | none => rfl
  | some => simp only [conflictOf, onThread_latest]

variable {checkpoint : Checkpoint} {metadata : CheckpointMetadata}

section Insert

variable (filed : ∀ tuple ∈ store, tuple.checkpoint.id = checkpoint.id →
  tuple.checkpoint.threadId = checkpoint.threadId)

include filed

theorem onThread_insert (named : checkpoint.threadId = threadId) :
    (store.insert checkpoint metadata).onThread threadId =
      (store.onThread threadId).insert checkpoint metadata := by
  have used : (store.onThread threadId).any (fun tuple =>
      tuple.checkpoint.id == checkpoint.id) =
        store.any fun tuple => tuple.checkpoint.id == checkpoint.id := by
    refine Bool.eq_iff_iff.mpr ?_
    simp only [onThread, List.any_eq_true, List.mem_filter, beq_iff_eq, decide_eq_true_eq]
    constructor
    · rintro ⟨tuple, ⟨stored, -⟩, same⟩
      exact ⟨tuple, stored, same⟩
    · rintro ⟨tuple, stored, same⟩
      exact ⟨tuple, ⟨stored, (filed tuple stored same).trans named⟩, same⟩
  unfold insert
  rw [used]
  split
  · unfold onThread
    rw [List.filter_map]
    congr 1
    refine List.filter_congr fun tuple stored => ?_
    dsimp only [Function.comp_apply]
    split
    · rename_i same
      simp [named, (filed tuple stored same).trans named]
    · rfl
  · simp [onThread, named]

theorem onThread_insert_other (other : checkpoint.threadId ≠ threadId) :
    (store.insert checkpoint metadata).onThread threadId = store.onThread threadId := by
  unfold insert
  split
  · unfold onThread
    rw [List.filter_map]
    have unmoved : ∀ tuple ∈ store, decide (tuple.checkpoint.threadId = threadId) = true →
        tuple.checkpoint.id ≠ checkpoint.id := by
      intro tuple stored own same
      exact other ((filed tuple stored same).symm.trans (of_decide_eq_true own))
    have seen : ∀ tuple ∈ store, ((fun tuple : CheckpointTuple =>
        decide (tuple.checkpoint.threadId = threadId)) ∘ fun tuple =>
          if tuple.checkpoint.id = checkpoint.id then
            { tuple with checkpoint := checkpoint, metadata := metadata }
          else tuple) tuple = decide (tuple.checkpoint.threadId = threadId) := by
      intro tuple stored
      dsimp only [Function.comp_apply]
      split
      · rename_i same
        rw [filed tuple stored same]
      · rfl
    rw [List.filter_congr seen]
    conv_rhs => rw [← List.map_id (store.filter _)]
    refine List.map_congr_left fun tuple member => ?_
    obtain ⟨stored, own⟩ := List.mem_filter.mp member
    exact if_neg (unmoved tuple stored own)
  · simp [onThread, other]

end Insert

theorem onThread_addWrites (namespaceName : String) (checkpointId : Id)
    (writes : List PendingWrite) (taskId : TaskId) :
    (store.addWrites thread namespaceName checkpointId writes taskId).onThread threadId =
      (store.onThread threadId).addWrites thread namespaceName checkpointId writes
        taskId := by
  unfold addWrites onThread
  rw [List.filter_map]
  congr 1
  refine List.filter_congr fun tuple _ => ?_
  dsimp only [Function.comp_apply]
  rw [(writeTuple_header ..).1]

theorem onThread_addWrites_other (other : thread ≠ threadId) (namespaceName : String)
    (checkpointId : Id) (writes : List PendingWrite) (taskId : TaskId) :
    (store.addWrites thread namespaceName checkpointId writes taskId).onThread threadId =
      store.onThread threadId := by
  rw [onThread_addWrites]
  unfold addWrites
  conv_rhs => rw [← List.map_id (store.onThread threadId)]
  refine List.map_congr_left fun tuple stored => ?_
  have own : tuple.checkpoint.threadId = threadId := by
    simpa using (List.mem_filter.mp stored).2
  unfold writeTuple
  rw [if_neg]
  · rfl
  · rintro ⟨-, same, -⟩
    exact other (same.symm.trans own)

end CheckpointStore

/-! The calls of an invocation. -/

section Programs

variable {args : DriveRunArgs} {run : Nat} {α : Type}

abbrev Stays (threadId : String) (run : Nat) (post : α → Prop) (program : EngineM α) :
    Prop :=
  program.abides (StoreOp.Names threadId run) (fun _ _ => True) post

theorem stays_liftError {threadId : String} (outcome : Except WorkflowError α) :
    Stays threadId run (fun _ => True) (liftError outcome) := by
  cases outcome <;> trivial

theorem stays_tellAll (threadId : String) (observations : List Obs) :
    Stays threadId run (fun _ => True) (Program.tellAll observations) := by
  induction observations with
  | nil => trivial
  | cons _ _ ih => exact ih

theorem stays_playActs (acts : List Act) :
    Stays args.threadId run (fun _ => True) (playActs args acts) := by
  induction acts with
  | nil => trivial
  | cons act _ ih =>
    cases act with
    | tell => exact ih
    | journal => exact ⟨rfl, fun _ _ => ih⟩

theorem stays_putPendingWrites (checkpointId : Id)
    (groups : Record TaskId (List ChannelWrite)) :
    Stays args.threadId run (fun _ => True) (putPendingWrites args checkpointId groups) := by
  induction groups with
  | nil => trivial
  | cons _ _ ih => exact ⟨rfl, fun _ _ => ih⟩

theorem stays_storeCheckpoint (request : PersistRequest) (now : Nat)
    (own : request.internal.run = run) :
    Stays args.threadId run (fun _ => True) (storeCheckpoint args now request) := by
  refine ⟨rfl, fun latest _ => ?_⟩
  change Stays _ _ _ (Program.bind (liftError (precheck _ _ latest)) _)
  refine Program.abides_bind (Program.abides_mono ?_ (stays_liftError _))
  refine fun _ _ => Program.abides_bind (Program.abides_mono ?_ (stays_liftError _))
  refine fun _ _ => ⟨⟨rfl, rfl, own⟩, fun stored _ => ?_⟩
  cases stored with
  | error => trivial
  | ok =>
    change Stays _ _ _ (Program.bind (putPendingWrites args _ _) _)
    refine Program.abides_bind (Program.abides_mono ?_ (stays_putPendingWrites _ _))
    exact fun _ _ => trivial

theorem stays_persistCheckpoint (request : PersistRequest) (now : Nat)
    (own : request.internal.run = run) :
    Stays args.threadId run (fun _ => True) (persistCheckpoint args now request) := by
  refine Program.abides_bind (Program.abides_mono ?_ (stays_liftError _))
  intro _ _
  dsimp only
  split
  · refine Program.abides_bind (Program.abides_mono ?_ (stays_liftError _))
    exact fun _ _ => trivial
  · exact stays_storeCheckpoint request now own

theorem stays_performExit (exit : Exit) (now : Nat)
    (own : exit.request.internal.run = run) :
    Stays args.threadId run (fun next => ∃ checkpointId, next = exit.next checkpointId)
      (performExit args now exit) := by
  refine Program.abides_bind
    (Program.abides_mono ?_ (stays_persistCheckpoint exit.request now own))
  intro checkpointId _
  refine Program.abides_bind (Program.abides_mono ?_ (stays_tellAll _ _))
  exact fun _ _ => ⟨checkpointId, rfl⟩

/-- A pass that goes on goes on with the run. -/
def Continues (run : Nat) (next : Next) : Prop :=
  ∀ internal, next = .loop internal → internal.run = run

theorem stays_driveRound (internal : RunInternalState) (own : internal.run = run) :
    Stays args.threadId run (Continues run) (driveRound args internal) := by
  have decided := decideRound_decided args internal
  refine Program.abides_bind (Program.abides_mono ?_ (stays_playActs _))
  intro _ _
  cases finished : (decideRound args internal).finish with
  | error => trivial
  | ok exit =>
    have kept : exit.request.internal.run = run := (decided.parent finished).2.1.trans own
    refine Program.abides_bind (Program.abides_mono ?_ (stays_performExit exit _ kept))
    rintro next ⟨checkpointId, rfl⟩
    cases after : exit.next checkpointId with
    | raise => exact fun _ same => Next.noConfusion same
    | close => exact fun _ same => Next.noConfusion same
    | loop later =>
      have onward : later.run = run := (decided.onward finished after).2.2.2.trans own
      unfold afterStep
      dsimp only
      split
      · refine Program.abides_mono ?_ (stays_performExit (abortExit args later) _ onward)
        rintro _ ⟨_, rfl⟩ _ same
        cases same
      · intro _ same
        cases same
        exact onward

theorem stays_driveLoop (fuel : Nat) (internal : RunInternalState)
    (own : internal.run = run) :
    Stays args.threadId run (fun _ => True) (driveLoop args fuel internal) := by
  induction fuel generalizing internal with
  | zero => trivial
  | succ _ ih =>
    refine Program.abides_bind (Program.abides_mono ?_ (stays_driveRound internal own))
    intro next continues
    cases next with
    | raise => trivial
    | close => trivial
    | loop later => exact ih later (continues later rfl)

theorem stays_driveReporting (args : DriveRunArgs) (internal : RunInternalState)
    (own : internal.run = run) :
    Stays args.threadId run (fun _ => True) (driveReporting args internal) :=
  Program.abides_catchFail (stays_driveLoop _ internal own) fun _ => trivial

variable {config : WorkflowConfig} {threadId : String} {options : InvocationOptions}

theorem stays_resumeFrom (restore : RestoreOptions) (own : restore.run = options.run)
    (tuple : Option CheckpointTuple) :
    Stays threadId options.run (fun _ => True)
      (resumeFrom config threadId options restore tuple) := by
  cases tuple with
  | none => trivial
  | some tuple =>
    change Stays _ _ _ (driveRestored config threadId options (restoreRun config restore tuple))
    cases restored : restoreRun config restore tuple with
    | error refusal => cases refusal <;> trivial
    | ok internal =>
      exact stays_driveReporting (driveArgs config threadId options) internal
        ((restoreRun_at restored).run.trans own)

theorem stays_resumeEngine (restore : RestoreOptions) (own : restore.run = options.run) :
    Stays threadId options.run (fun _ => True)
      (resumeEngine config threadId options restore) := by
  unfold resumeEngine
  split
  · trivial
  · exact ⟨rfl, fun tuple _ => stays_resumeFrom restore own tuple⟩

theorem stays_tickFrom (now : Rat) (tuple : Option CheckpointTuple) :
    Stays threadId options.run (fun _ => True)
      (tickFrom config threadId options now tuple) := by
  cases tuple with
  | none => trivial
  | some tuple =>
    unfold tickFrom
    dsimp only
    split
    · trivial
    · split
      · refine Program.abides_bind (Program.abides_mono ?_ (stays_resumeEngine _ rfl))
        exact fun _ _ => ⟨rfl, fun _ _ => trivial⟩
      · trivial

theorem stays_program (config : WorkflowConfig) (threadId : String)
    (options : InvocationOptions) (invocation : Invocation) :
    Stays threadId options.run (fun _ => True)
      (invocation.program config threadId options) := by
  cases invocation with
  | execute input => exact stays_driveReporting (driveArgs config threadId options) _ rfl
  | resume => exact stays_resumeEngine _ rfl
  | retry => exact stays_resumeEngine { baseRestore threadId options with mode := .retry } rfl
  | resolveAwakeable => exact stays_resumeEngine _ rfl
  | tick now => exact ⟨rfl, fun tuple _ => stays_tickFrom now tuple⟩

end Programs

/-! The threads apart. -/

section Threads

variable {ι : Type} {threadOf : ι → String} {runOf : ι → Nat} {order : RowOrder}
variable {store : CheckpointStore} {threadId : String} {process : ι} {op : StoreOp}

/-- A checkpoint under an id of some invocation is on the thread of it. -/
def Owned (threadOf : ι → String) (runOf : ι → Nat) (store : CheckpointStore) : Prop :=
  ∀ tuple ∈ store, ∀ process, tuple.checkpoint.id.run = runOf process →
    tuple.checkpoint.threadId = threadOf process

theorem Owned.filed (owned : Owned threadOf runOf store) {checkpoint : Checkpoint}
    (named : checkpoint.threadId = threadOf process ∧ checkpoint.id.run = runOf process) :
    ∀ tuple ∈ store, tuple.checkpoint.id = checkpoint.id →
      tuple.checkpoint.threadId = checkpoint.threadId := by
  intro tuple stored same
  rw [owned tuple stored process (by rw [same, named.2]), named.1]

theorem Owned.handled (owned : Owned threadOf runOf store)
    (distinct : ∀ one other, runOf one = runOf other → threadOf one = threadOf other)
    (names : op.Names (threadOf process) (runOf process)) :
    Owned threadOf runOf (storeHandler order op store).2 := by
  cases op with
  | getTuple => exact owned
  | put thread space checkpoint metadata expected =>
    unfold storeHandler
    dsimp only
    split
    · exact owned
    · have kept : CheckpointStore.Every (fun stored _ => ∀ process,
          stored.id.run = runOf process → stored.threadId = threadOf process) store := owned
      refine kept.insert fun other same => ?_
      rw [names.2.1]
      exact distinct _ _ (names.2.2.symm.trans same)
  | putWrites =>
    intro tuple member
    obtain ⟨old, stored, rfl⟩ := List.mem_map.mp member
    rw [(CheckpointStore.writeTuple_header ..).1]
    exact owned old stored

theorem handled_within (owned : Owned threadOf runOf store)
    (names : op.Names (threadOf process) (runOf process))
    (own : threadOf process = threadId) :
    (storeHandler order op (store.onThread threadId)).1 = (storeHandler order op store).1 ∧
      (storeHandler order op (store.onThread threadId)).2 =
        (storeHandler order op store).2.onThread threadId := by
  subst own
  cases op with
  | getTuple thread space =>
    cases names
    dsimp only [storeHandler]
    rw [CheckpointStore.onThread_latest]
    exact ⟨rfl, rfl⟩
  | put thread space checkpoint metadata expected =>
    obtain ⟨rfl, named, drawn⟩ := names
    dsimp only [storeHandler]
    rw [CheckpointStore.onThread_conflictOf]
    split
    · exact ⟨rfl, rfl⟩
    · exact ⟨rfl, (CheckpointStore.onThread_insert (owned.filed ⟨named, drawn⟩) named).symm⟩
  | putWrites =>
    exact ⟨rfl, (CheckpointStore.onThread_addWrites ..).symm⟩

theorem handled_beyond (owned : Owned threadOf runOf store)
    (names : op.Names (threadOf process) (runOf process))
    (other : threadOf process ≠ threadId) :
    (storeHandler order op store).2.onThread threadId = store.onThread threadId := by
  cases op with
  | getTuple => rfl
  | put thread space checkpoint metadata expected =>
    obtain ⟨rfl, named⟩ := names
    dsimp only [storeHandler]
    split
    · rfl
    · refine CheckpointStore.onThread_insert_other (owned.filed named) ?_
      rwa [named.1]
  | putWrites =>
    cases names
    exact CheckpointStore.onThread_addWrites_other other _ _ _ _

/-- Each invocation on a thread of its own, and with a run number of its own. -/
def onThreads (threadOf : ι → String) (runOf : ι → Nat) (peers : ι → Instance)
    (store : CheckpointStore) :
    Pool storeInterface Obs Fault Unit CheckpointStore ι :=
  .start (fun peer => (peers peer).program (threadOf peer) (runOf peer)) store

end Threads

open CheckpointStore in
/-- Invocations on several threads, in any order: on each thread, what is stored,
what is answered and what is seen is what its own invocations alone do on it. -/
theorem threads_run_apart {ι : Type} [DecidableEq ι] (order : RowOrder)
    (threadOf : ι → String) (runOf : ι → Nat) (peers : ι → Instance)
    {store : CheckpointStore}
    (distinct : ∀ one other, runOf one = runOf other → threadOf one = threadOf other)
    (owned : Owned threadOf runOf store) (schedule : List ι) (threadId : String) :
    let shared := (onThreads threadOf runOf peers store).play (storeHandler order) schedule
    let alone := (onThreads threadOf runOf peers (store.onThread threadId)).play
      (storeHandler order) (schedule.filter fun peer => threadOf peer = threadId)
    shared.store.onThread threadId = alone.store ∧
      ∀ peer, threadOf peer = threadId →
        shared.rest peer = alone.rest peer ∧ shared.trace peer = alone.trace peer := by
  have abiding : (onThreads threadOf runOf peers store).Abiding (Owned threadOf runOf)
      (fun peer => StoreOp.Names (threadOf peer) (runOf peer)) (fun _ _ => True)
      (fun _ _ => True) :=
    ⟨owned, fun peer => stays_program (peers peer).config (threadOf peer)
      ((peers peer).optionsAt (runOf peer)) (peers peer).invocation⟩
  have seen : (onThreads threadOf runOf peers store).Seen
      (fun peer => threadOf peer = threadId) (onThread threadId)
      (onThreads threadOf runOf peers (store.onThread threadId)) :=
    ⟨rfl, fun _ _ => rfl, fun _ _ => rfl⟩
  have vouched : ∀ peer op store, Owned threadOf runOf store →
      op.Names (threadOf peer) (runOf peer) →
        True ∧ Owned threadOf runOf (storeHandler order op store).2 :=
    fun _ _ _ owned names => ⟨trivial, owned.handled distinct names⟩
  have played := seen.play vouched
    (fun _ _ _ own owned names => handled_within owned names (of_decide_eq_true own))
    (fun _ _ _ other owned names => handled_beyond owned names (by simpa using other))
    abiding schedule
  refine ⟨played.store, fun peer own => ⟨played.rest peer ?_, played.trace peer ?_⟩⟩
  · simpa using own
  · simpa using own

def heldThread (peer : Nat) : String := if peer = 0 then "t" else "u"

theorem held_runs_apart :
    let shared := (onThreads heldThread (· + 1) heldPeers heldStore).play
      (storeHandler .inserted) heldSchedule
    shared.store.onThread "t" =
      ((onThreads heldThread (· + 1) heldPeers (heldStore.onThread "t")).play
        (storeHandler .inserted) (List.replicate 8 0)).store := by
  have owned : Owned heldThread (· + 1) heldStore := by
    intro tuple stored process drawn
    have low : tuple.checkpoint.id.run < 1 := heldStore_drawn tuple stored
    rw [drawn] at low
    exact absurd low (Nat.not_lt.mpr (Nat.le_add_left 1 process))
  refine (threads_run_apart .inserted heldThread (· + 1) heldPeers ?_ owned heldSchedule
    "t").1
  intro one other same
  rw [Nat.succ.inj same]

end Graphorin.Workflow
