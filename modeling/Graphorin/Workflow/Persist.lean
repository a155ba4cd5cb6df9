import Graphorin.Lib.Contract
import Graphorin.Workflow.Engine

namespace Graphorin.Workflow

open Graphorin.Lib
open Graphorin.Js

/-! What `persistCheckpoint` comes to when nobody else writes between its read
and its `put`. -/

def CheckpointStore.latestId (store : CheckpointStore)
    (threadId namespaceName : String) : Option Id :=
  (store.latest threadId namespaceName).map fun tuple => tuple.checkpoint.id

/-- Under `exit` durability a running checkpoint is not stored. -/
def PersistRequest.skips (request : PersistRequest) (args : DriveRunArgs) : Bool :=
  args.durability = .exit ∧ request.status = .running

def requestVerdict (request : PersistRequest) : Except WorkflowError Unit := do
  frontierSafe request
  let _ ← serializeState request.internal.state
  pure ()

def guardVerdict (args : DriveRunArgs) (request : PersistRequest)
    (store : CheckpointStore) : Except WorkflowError Unit := do
  precheck args.threadId request.internal
    (store.latest args.threadId (namespaceFor args.config))
  let _ ← serializeState request.internal.state
  match store.conflictOf args.threadId (namespaceFor args.config)
      (request.internal.parentCheckpointId.map some) with
  | some conflict =>
    .error (.checkpointVersionConflict args.threadId
      conflict.expectedLatestId conflict.actualLatestId)
  | none => .ok ()

def PersistRequest.advanced (request : PersistRequest) : RunInternalState :=
  { request.internal with
    parentCheckpointId := some ⟨request.internal.run, request.internal.nextId⟩
    stepNumber := request.internal.stepNumber + 1
    nextId := request.internal.nextId + 1 }

/-- `true` when the checkpoint is stored, `false` when the put is skipped. -/
def persistVerdict (args : DriveRunArgs) (request : PersistRequest)
    (store : CheckpointStore) : Except WorkflowError Bool := do
  frontierSafe request
  if request.skips args then
    let _ ← serializeState request.internal.state
    pure false
  else
    guardVerdict args request store
    pure true

/-- The rows of several tasks, one `putWrites` after the other. -/
def CheckpointStore.putAll (store : CheckpointStore) (args : DriveRunArgs)
    (checkpointId : Id) (groups : Record TaskId (List ChannelWrite)) :
    CheckpointStore :=
  groups.foldl
    (fun store group =>
      store.addWrites args.threadId (namespaceFor args.config) checkpointId
        (group.2.zipIdx.map pendingRow) group.1)
    store

def PersistRequest.inserted (request : PersistRequest) (args : DriveRunArgs)
    (now : Nat) (store : CheckpointStore) : CheckpointStore :=
  store.insert (request.checkpoint args now) (request.metadata args)

def PersistRequest.storedIn (request : PersistRequest) (args : DriveRunArgs)
    (now : Nat) (store : CheckpointStore) : CheckpointStore :=
  (request.inserted args now store).putAll args (request.checkpoint args now).id
    request.pendingWritesByTask

variable {store : CheckpointStore}

theorem CheckpointStore.Every.putAll (every : store.Every claim) (args : DriveRunArgs)
    (checkpointId : Id) (groups : Record TaskId (List ChannelWrite)) :
    (store.putAll args checkpointId groups).Every claim := by
  induction groups generalizing store with
  | nil => exact every
  | cons group rest ih => exact ih (every.addWrites _ _ _ _ _)

variable {args : DriveRunArgs} {now : Nat} {request : PersistRequest}

theorem CheckpointStore.Every.storedIn (every : store.Every claim)
    (added : claim (request.checkpoint args now) (request.metadata args)) :
    (request.storedIn args now store).Every claim :=
  (every.insert added).putAll _ _ _

def putRows (rows : List PendingWrite)
    (groups : Record TaskId (List ChannelWrite)) : List PendingWrite :=
  groups.foldl
    (fun rows group => CheckpointStore.writeRows rows
      (group.2.zipIdx.map pendingRow) group.1)
    rows

theorem putAll_eq (args : DriveRunArgs) (checkpointId : Id)
    (groups : Record TaskId (List ChannelWrite)) (store : CheckpointStore) :
    store.putAll args checkpointId groups =
      store.map fun tuple =>
        if tuple.checkpoint.id = checkpointId ∧
            tuple.checkpoint.threadId = args.threadId ∧
            tuple.checkpoint.namespaceName = namespaceFor args.config then
          { tuple with pendingWrites := putRows tuple.pendingWrites groups }
        else tuple := by
  unfold CheckpointStore.putAll
  induction groups generalizing store with
  | nil =>
    symm
    refine (List.map_congr_left (g := id) fun tuple _ => ?_).trans
      (List.map_id store)
    simp [putRows]
  | cons group rest ih =>
    rw [List.foldl_cons, ih]
    unfold CheckpointStore.addWrites
    rw [List.map_map]
    apply List.map_congr_left
    intro tuple _
    unfold CheckpointStore.writeTuple
    simp only [Function.comp]
    split
    · rfl
    · rfl

theorem storedIn_own (stored : tuple ∈ request.storedIn args now store)
    (own : tuple.checkpoint.id = (request.checkpoint args now).id) :
    tuple.checkpoint = request.checkpoint args now ∧
      tuple.metadata = request.metadata args :=
  (CheckpointStore.insert_own _ _ _).putAll _ _ _ tuple stored own

theorem latest_storedIn
    (unused : store.Every fun stored _ => stored.id ≠ (request.checkpoint args now).id) :
    (request.storedIn args now store).latest args.threadId
        (namespaceFor args.config) =
      match store.latest args.threadId (namespaceFor args.config) with
      | none => some ⟨request.checkpoint args now, request.metadata args,
          putRows [] request.pendingWritesByTask⟩
      | some old =>
        if request.internal.stepNumber > old.checkpoint.stepNumber then
          some ⟨request.checkpoint args now, request.metadata args,
            putRows [] request.pendingWritesByTask⟩
        else some old := by
  have others : ∀ old, store.latest args.threadId (namespaceFor args.config) =
      some old → old.checkpoint.id ≠ (request.checkpoint args now).id :=
    fun old found => unused old (CheckpointStore.latest_mem found).1
  rw [PersistRequest.storedIn, PersistRequest.inserted,
    CheckpointStore.insert_unused unused, putAll_eq,
    CheckpointStore.latest_map, @CheckpointStore.latest_concat args.threadId
      (namespaceFor args.config) _ _ ⟨rfl, rfl⟩]
  · cases found : store.latest args.threadId (namespaceFor args.config) with
    | none =>
      rw [Option.map_some, if_pos ⟨rfl, rfl, rfl⟩]
    | some old =>
      show Option.map _ (if request.internal.stepNumber > _ then _ else _) = _
      by_cases newer : request.internal.stepNumber > old.checkpoint.stepNumber
      · rw [if_pos newer, Option.map_some, if_pos ⟨rfl, rfl, rfl⟩]
        simp [newer]
      · rw [if_neg newer, Option.map_some,
          if_neg fun same => others old found same.1]
        simp [newer]
  · intro tuple
    split <;> rfl

theorem precheck_refused (refused : precheck threadId internal latest = .error error) :
    error.code = .checkpointVersionConflict := by
  unfold precheck at refused
  split at refused
  · cases refused
  · split at refused
    · split at refused
      · cases refused
      · cases refused
        rfl
    · split at refused
      · cases refused
        rfl
      · cases refused

def Refused (request : PersistRequest) (error : WorkflowError) : Prop :=
  error.code = .checkpointVersionConflict ∨ requestVerdict request = .error error

theorem persistVerdict_skipped (verdict : persistVerdict args request store = .ok false) :
    request.skips args = true ∧ requestVerdict request = .ok () := by
  unfold persistVerdict at verdict
  cases safe : frontierSafe request with
  | error => simp [safe, bind, Except.bind] at verdict
  | ok _ =>
    simp only [safe, bind, Except.bind, pure, Except.pure] at verdict
    split at verdict
    · rename_i skips
      refine ⟨skips, ?_⟩
      split at verdict
      · cases verdict
      · rename_i serialized
        simp [requestVerdict, safe, serialized, bind, Except.bind, pure,
          Except.pure]
    · split at verdict <;> cases verdict

/-- A checkpoint that is stored comes behind the one its run started from. -/
theorem persistVerdict_stored (verdict : persistVerdict args request store = .ok true) :
    requestVerdict request = .ok () ∧
      ∀ parentId, request.internal.parentCheckpointId = some parentId →
        ∃ old, store.latest args.threadId (namespaceFor args.config) = some old ∧
          old.checkpoint.id = parentId := by
  unfold persistVerdict at verdict
  cases safe : frontierSafe request with
  | error => simp [safe, bind, Except.bind] at verdict
  | ok _ =>
    cases guarded : guardVerdict args request store with
    | error =>
      simp only [safe, guarded, bind, Except.bind, pure, Except.pure] at verdict
      split at verdict
      · split at verdict <;> cases verdict
      · cases verdict
    | ok _ =>
      unfold guardVerdict at guarded
      simp only [bind, Except.bind] at guarded
      split at guarded
      · cases guarded
      · split at guarded
        · cases guarded
        · rename_i serialized
          refine ⟨by simp [requestVerdict, safe, serialized, bind,
            Except.bind, pure, Except.pure], ?_⟩
          intro parentId named
          rw [named] at guarded
          split at guarded
          · cases guarded
          · rename_i agrees
            simp only [Option.map_some, CheckpointStore.conflictOf,
              ite_eq_left_iff, reduceCtorEq, imp_false, Decidable.not_not] at agrees
            exact Option.map_eq_some_iff.mp agrees

section Rules

variable {order : RowOrder} {stop : CheckpointStore → List Obs → Prop}

theorem precheck_arrange (threadId : String) (internal : RunInternalState)
    (latest : Option CheckpointTuple) : precheck threadId internal
        (latest.map fun tuple =>
          { tuple with pendingWrites := order.arrange tuple.pendingWrites }) =
      precheck threadId internal latest := by
  cases latest with
  | none => rfl
  | some => rfl

variable {store : CheckpointStore} {past : List Obs}

theorem ensures_liftError {outcome : Except WorkflowError α}
    {post : Except Fault α → CheckpointStore → List Obs → Prop}
    (passed : ∀ value, outcome = .ok value → post (.ok value) store past)
    (failed : ∀ error, outcome = .error error → post (.error (.workflow error)) store past) :
    (liftError outcome).ensures (storeHandler order) stop post store past := by
  cases outcome with
  | ok value => exact passed value rfl
  | error error => exact failed error rfl

variable {args : DriveRunArgs}

theorem ensures_putPendingWrites
    (halting : ∀ before after, groups = before ++ after →
      stop (store.putAll args checkpointId before) past)
    (ending : post (.ok ()) (store.putAll args checkpointId groups) past) :
    (putPendingWrites args checkpointId groups).ensures (storeHandler order)
      stop post store past := by
  induction groups generalizing store with
  | nil => exact ending
  | cons group _ ih =>
    obtain ⟨taskId, writes⟩ := group
    refine ⟨halting [] _ rfl, ih ?_ ending⟩
    intro before after split
    exact halting ((taskId, writes) :: before) after (by rw [split]; rfl)

variable {now : Nat} {request : PersistRequest}
  {post : Except Fault (Option Id) → CheckpointStore → List Obs → Prop}

theorem ensures_storeCheckpoint (halted : stop store past)
    (refused : ∀ error, guardVerdict args request store = .error error →
      post (.error (.workflow error)) store past)
    (halting : guardVerdict args request store = .ok () → ∀ before after,
      request.pendingWritesByTask = before ++ after →
        stop ((request.inserted args now store).putAll args (request.checkpoint args now).id
          before) past)
    (stored : guardVerdict args request store = .ok () →
      post (.ok (some (request.checkpoint args now).id)) (request.storedIn args now store) past)
    : (storeCheckpoint args now request).ensures (storeHandler order) stop post
      store past := by
  refine ⟨halted, ?_⟩
  show Program.ensures _ _ _ (Program.bind (liftError (precheck args.threadId
    request.internal (Option.map _ (store.latest args.threadId
      (namespaceFor args.config))))) _) _ _
  rw [precheck_arrange, Program.ensures_bind]
  apply ensures_liftError
  · intro _ checked
    show Program.ensures _ _ _ (Program.bind _ _) _ _
    rw [Program.ensures_bind]
    apply ensures_liftError
    · intro state serialized
      refine ⟨halted, ?_⟩
      cases conflicts : store.conflictOf args.threadId
          (namespaceFor args.config)
          (request.internal.parentCheckpointId.map some) with
      | some =>
        simp only [storeHandler, conflicts]
        refine refused _ ?_
        simp [guardVerdict, checked, serialized, conflicts, bind, Except.bind]
      | none =>
        have accepted : guardVerdict args request store = .ok () := by
          simp [guardVerdict, checked, serialized, conflicts, bind, Except.bind]
        simp only [storeHandler, conflicts]
        show Program.ensures _ _ _ (Program.bind (putPendingWrites args
          (request.checkpoint args now).id request.pendingWritesByTask) _) _ _
        rw [Program.ensures_bind]
        refine ensures_putPendingWrites (halting accepted) ?_
        exact stored accepted
    · intro error unsafeState
      refine refused error ?_
      simp [guardVerdict, checked, unsafeState, bind, Except.bind]
  · intro error conflict
    refine refused error ?_
    simp [guardVerdict, conflict, bind, Except.bind]

/-- The four ends of `persistCheckpoint`: refused with nothing stored, skipped,
stored, or cut short between two rows. -/
theorem ensures_persistCheckpoint (halted : stop store past)
    (refused : ∀ error, persistVerdict args request store = .error error →
      post (.error (.workflow error)) store past)
    (skipped : persistVerdict args request store = .ok false → post (.ok none) store past)
    (halting : persistVerdict args request store = .ok true → ∀ before after,
      request.pendingWritesByTask = before ++ after →
        stop ((request.inserted args now store).putAll args (request.checkpoint args now).id
          before) past)
    (stored : persistVerdict args request store = .ok true →
      post (.ok (some (request.checkpoint args now).id)) (request.storedIn args now store) past)
    : (persistCheckpoint args now request).ensures (storeHandler order) stop post
      store past := by
  rw [persistCheckpoint, Program.bind_eq, Program.ensures_bind]
  apply ensures_liftError
  · intro _ safe
    show Program.ensures _ _ _ (ite _ _ _) _ _
    by_cases skips : args.durability = .exit ∧ request.status = .running
    · have skipping : request.skips args = true := by
        simpa [PersistRequest.skips] using skips
      rw [if_pos skips, Program.bind_eq, Program.ensures_bind]
      apply ensures_liftError
      · intro state serialized
        refine skipped ?_
        simp [persistVerdict, safe, skipping, serialized, bind, Except.bind,
          pure, Except.pure]
      · intro error unsafeState
        refine refused error ?_
        simp [persistVerdict, safe, skipping, unsafeState, bind, Except.bind]
    · have writes : request.skips args = false := by
        simpa [PersistRequest.skips] using skips
      have verdict : persistVerdict args request store =
          (guardVerdict args request store).map fun _ => true := by
        simp only [persistVerdict, safe, writes, bind, Except.bind]
        cases guardVerdict args request store <;> rfl
      rw [if_neg skips]
      apply ensures_storeCheckpoint halted
      · intro error guarded
        exact refused error (by rw [verdict, guarded]; rfl)
      · intro guarded
        exact halting (by rw [verdict, guarded]; rfl)
      · intro guarded
        exact stored (by rw [verdict, guarded]; rfl)
  · intro error unsafeFrontier
    refine refused error ?_
    simp [persistVerdict, unsafeFrontier, bind, Except.bind]

end Rules

end Graphorin.Workflow
