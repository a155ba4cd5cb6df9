import Graphorin.Lib.Program
import Graphorin.Workflow.Types

namespace Graphorin.Workflow

open Graphorin.Lib
open Graphorin.Js

/-! The checkpoint store contract.  Each call is atomic. -/

structure Checkpoint where
  id : Id
  threadId : String
  namespaceName : String
  parentId : Option Id
  state : State
  channelVersions : Versions
  stepNumber : Nat
  createdAt : Nat
deriving DecidableEq

/-- `tags` is the decoded frontier tag; `none` when the writer had none. -/
structure CheckpointMetadata where
  source : DurabilityMode
  status : CheckpointStatus
  nodeName : Option String := none
  tags : Option FrontierEnvelope := none
  wakeAt : Option Rat := none
deriving DecidableEq

structure StepIntentTask where
  taskId : Id
  origin : Id
  nodeName : String
  source : TaskSource
  dispatchArgs : JsValue := .undefined
  resumeValues : Option (List JsValue) := none
  resumeMeta : Option (List (Option PauseIdentity)) := none
  staticBefore : Bool := false
deriving DecidableEq

/-- The value column of a pending write: a channel value, or the step-intent
record of the journal. -/
inductive RowValue
  | value (value : JsValue)
  | intent (stepNumber : Nat) (tasks : List StepIntentTask)
deriving DecidableEq

structure PendingWrite where
  taskId : TaskId
  index : Nat
  channel : String
  value : RowValue
deriving DecidableEq

structure CheckpointTuple where
  checkpoint : Checkpoint
  metadata : CheckpointMetadata
  pendingWrites : List PendingWrite
deriving DecidableEq

/-- Rows in the order they were inserted. -/
abbrev CheckpointStore := List CheckpointTuple

/-- In what order a store hands back the pending writes of one checkpoint.
The writes of one task always keep their own order. -/
structure RowOrder where
  arrange : List PendingWrite → List PendingWrite
  keepsTask : ∀ rows taskId,
    (arrange rows).filter (fun row => row.taskId = taskId) =
      rows.filter fun row => row.taskId = taskId

/-- The in-memory store: insertion order. -/
def RowOrder.inserted : RowOrder where
  arrange := id
  keepsTask _ _ := rfl

theorem RowOrder.mem_arrange (order : RowOrder) {rows : List PendingWrite}
    {row : PendingWrite} : row ∈ order.arrange rows ↔ row ∈ rows := by
  have kept := order.keepsTask rows row.taskId
  have owned : ∀ rows : List PendingWrite, row ∈ rows ↔
      row ∈ rows.filter fun other => other.taskId = row.taskId := by
    intro rows
    simp
  rw [owned, kept, ← owned]

/-- A tuple as the store hands it back. -/
def RowOrder.read (order : RowOrder) (tuple : CheckpointTuple) :
    CheckpointTuple :=
  { tuple with pendingWrites := order.arrange tuple.pendingWrites }

/-- Raised by a guarded `put` when the latest checkpoint is another one. -/
structure CheckpointConflict where
  expectedLatestId : Option Id
  actualLatestId : Option Id
deriving DecidableEq

/-- `expectedLatestId` of `put` is three-valued: absent, `null`, or an id. -/
inductive StoreOp
  | getTuple (threadId namespaceName : String)
  | put (threadId namespaceName : String) (checkpoint : Checkpoint)
      (metadata : CheckpointMetadata) (expectedLatestId : Option (Option Id))
  | putWrites (threadId namespaceName : String) (checkpointId : Id)
      (writes : List PendingWrite) (taskId : TaskId)
deriving DecidableEq

def StoreOp.Res : StoreOp → Type
  | .getTuple _ _ => Option CheckpointTuple
  | .put _ _ _ _ _ => Except CheckpointConflict Unit
  | .putWrites _ _ _ _ _ => Unit

abbrev storeInterface : Interface := ⟨StoreOp, StoreOp.Res⟩

namespace CheckpointStore

def ofThread (store : CheckpointStore) (threadId namespaceName : String) :
    List CheckpointTuple :=
  store.filter fun tuple =>
    tuple.checkpoint.threadId == threadId &&
      tuple.checkpoint.namespaceName == namespaceName

/-- The row with the greatest step number; the earliest one on a tie. -/
def newest : List CheckpointTuple → Option CheckpointTuple
  | [] => none
  | tuple :: rest =>
    match newest rest with
    | none => some tuple
    | some later =>
      if later.checkpoint.stepNumber > tuple.checkpoint.stepNumber then
        some later
      else some tuple

def latest (store : CheckpointStore) (threadId namespaceName : String) :
    Option CheckpointTuple :=
  newest (store.ofThread threadId namespaceName)

/-- Insert a checkpoint; one stored under the same id is replaced and keeps
its pending writes. -/
def insert (store : CheckpointStore) (checkpoint : Checkpoint)
    (metadata : CheckpointMetadata) : CheckpointStore :=
  if store.any fun tuple => tuple.checkpoint.id == checkpoint.id then
    store.map fun tuple =>
      if tuple.checkpoint.id = checkpoint.id then
        { tuple with checkpoint := checkpoint, metadata := metadata }
      else tuple
  else store ++ [⟨checkpoint, metadata, []⟩]

def upsertRow (rows : List PendingWrite) (row : PendingWrite) :
    List PendingWrite :=
  (rows.filter fun old =>
    !(old.taskId == row.taskId && old.index == row.index)) ++ [row]

/-- One `putWrites` on the rows of a checkpoint. -/
def writeRows (rows writes : List PendingWrite) (taskId : TaskId) :
    List PendingWrite :=
  writes.foldl (fun rows write => upsertRow rows { write with taskId := taskId })
    rows

def writeTuple (threadId namespaceName : String) (checkpointId : Id)
    (writes : List PendingWrite) (taskId : TaskId) (tuple : CheckpointTuple) :
    CheckpointTuple :=
  if tuple.checkpoint.id = checkpointId ∧
      tuple.checkpoint.threadId = threadId ∧
      tuple.checkpoint.namespaceName = namespaceName then
    { tuple with pendingWrites := writeRows tuple.pendingWrites writes taskId }
  else tuple

def addWrites (store : CheckpointStore) (threadId namespaceName : String)
    (checkpointId : Id) (writes : List PendingWrite) (taskId : TaskId) :
    CheckpointStore :=
  store.map (writeTuple threadId namespaceName checkpointId writes taskId)

def conflictOf (store : CheckpointStore) (threadId namespaceName : String) :
    Option (Option Id) → Option CheckpointConflict
  | none => none
  | some expected =>
    let actual :=
      (store.latest threadId namespaceName).map fun tuple =>
        tuple.checkpoint.id
    if actual = expected then none else some ⟨expected, actual⟩

/-! A property of every stored checkpoint is kept by what never rewrites one:
rows are added beside a checkpoint, a new checkpoint comes under its own id. -/

def Every (claim : Checkpoint → CheckpointMetadata → Prop)
    (store : CheckpointStore) : Prop :=
  ∀ tuple ∈ store, claim tuple.checkpoint tuple.metadata

variable {claim : Checkpoint → CheckpointMetadata → Prop}
variable {store : CheckpointStore}

theorem Every.mono (every : Every claim store)
    (implies : ∀ checkpoint metadata, claim checkpoint metadata → weak checkpoint metadata)
    : Every weak store :=
  fun tuple member => implies _ _ (every tuple member)

theorem Every.insert (every : Every claim store) {checkpoint : Checkpoint}
    {metadata : CheckpointMetadata} (added : claim checkpoint metadata) :
    Every claim (store.insert checkpoint metadata) := by
  unfold CheckpointStore.insert
  split
  · intro tuple member
    obtain ⟨old, stored, rfl⟩ := List.mem_map.mp member
    split
    · exact added
    · exact every old stored
  · intro tuple member
    rcases List.mem_append.mp member with stored | fresh
    · exact every tuple stored
    · rw [List.mem_singleton.mp fresh]
      exact added

/-- Under its id stands the checkpoint that was inserted last. -/
theorem insert_own (store : CheckpointStore) (checkpoint : Checkpoint)
    (metadata : CheckpointMetadata) :
    Every (fun stored data => stored.id = checkpoint.id →
      stored = checkpoint ∧ data = metadata)
      (store.insert checkpoint metadata) := by
  unfold CheckpointStore.insert
  split
  · intro tuple member
    obtain ⟨old, -, rfl⟩ := List.mem_map.mp member
    split
    · exact fun _ => ⟨rfl, rfl⟩
    · rename_i other
      exact fun same => absurd same other
  · rename_i unused
    intro tuple member same
    rcases List.mem_append.mp member with stored | fresh
    · exact absurd (List.any_eq_true.mpr ⟨tuple, stored, by simpa using same⟩)
        unused
    · rw [List.mem_singleton.mp fresh]
      exact ⟨rfl, rfl⟩

theorem insert_unused {metadata : CheckpointMetadata}
    (unused : Every (fun stored _ => stored.id ≠ checkpoint.id) store) :
    store.insert checkpoint metadata = store ++ [⟨checkpoint, metadata, []⟩] := by
  unfold CheckpointStore.insert
  rw [if_neg]
  intro used
  obtain ⟨tuple, stored, same⟩ := List.any_eq_true.mp used
  exact unused tuple stored (by simpa using same)

theorem writeTuple_header (threadId namespaceName : String)
    (checkpointId : Id) (writes : List PendingWrite) (taskId : TaskId)
    (tuple : CheckpointTuple) :
    (writeTuple threadId namespaceName checkpointId writes taskId
        tuple).checkpoint = tuple.checkpoint ∧
      (writeTuple threadId namespaceName checkpointId writes taskId
        tuple).metadata = tuple.metadata := by
  unfold writeTuple
  split <;> exact ⟨rfl, rfl⟩

theorem Every.addWrites (every : Every claim store)
    (threadId namespaceName : String) (checkpointId : Id)
    (writes : List PendingWrite) (taskId : TaskId) : Every claim
      (store.addWrites threadId namespaceName checkpointId writes taskId) := by
  intro tuple member
  obtain ⟨old, stored, rfl⟩ := List.mem_map.mp member
  obtain ⟨sameCheckpoint, sameMetadata⟩ := writeTuple_header threadId
    namespaceName checkpointId writes taskId old
  rw [sameCheckpoint, sameMetadata]
  exact every old stored

theorem newest_mem (found : newest rows = some tuple) : tuple ∈ rows := by
  induction rows with
  | nil => cases found
  | cons _ rest ih =>
    unfold newest at found
    cases later : newest rest with
    | none =>
      simp only [later, Option.some.injEq] at found
      simp [found]
    | some =>
      simp only [later] at found
      split at found
      · exact List.mem_cons_of_mem _ (ih (later.trans found))
      · cases found
        simp

theorem latest_mem (found : store.latest threadId namespaceName = some tuple) :
    tuple ∈ store ∧ tuple.checkpoint.threadId = threadId ∧
      tuple.checkpoint.namespaceName = namespaceName := by
  have member := newest_mem found
  simpa [ofThread] using member

/-- A checkpoint put last is the newest one if its step number is greater. -/
theorem newest_concat (rows : List CheckpointTuple) (added : CheckpointTuple) :
    newest (rows ++ [added]) =
      match newest rows with
      | none => some added
      | some old =>
        if added.checkpoint.stepNumber > old.checkpoint.stepNumber then
          some added
        else some old := by
  induction rows with
  | nil => rfl
  | cons head rest ih =>
    rw [List.cons_append, newest, newest, ih]
    cases newest rest with
    | none => rfl
    | some later =>
      by_cases newer : added.checkpoint.stepNumber >
          later.checkpoint.stepNumber
      · by_cases rises : later.checkpoint.stepNumber >
            head.checkpoint.stepNumber
        · have above : added.checkpoint.stepNumber >
              head.checkpoint.stepNumber := Nat.lt_trans rises newer
          simp [newer, rises, above]
        · simp [newer, rises]
      · by_cases rises : later.checkpoint.stepNumber >
            head.checkpoint.stepNumber
        · simp [newer, rises]
        · have below : ¬ added.checkpoint.stepNumber >
              head.checkpoint.stepNumber := by omega
          simp [newer, rises, below]

theorem newest_map (kept : ∀ tuple, (f tuple).checkpoint = tuple.checkpoint)
    (rows : List CheckpointTuple) : newest (rows.map f) = (newest rows).map f := by
  induction rows with
  | nil => rfl
  | cons _ rest ih =>
    rw [List.map_cons, newest, newest, ih]
    cases newest rest with
    | none => rfl
    | some =>
      simp only [Option.map_some, kept]
      split <;> rfl

theorem latest_map (kept : ∀ tuple, (f tuple).checkpoint = tuple.checkpoint)
    (store : CheckpointStore) (threadId namespaceName : String) :
    latest (store.map f) threadId namespaceName =
      (store.latest threadId namespaceName).map f := by
  unfold latest
  rw [← newest_map kept]
  congr 1
  unfold ofThread
  rw [List.filter_map]
  congr 1
  apply List.filter_congr
  intro tuple _
  simp only [Function.comp, kept]

theorem latest_addWrites (store : CheckpointStore)
    (threadId namespaceName : String) (checkpointId : Id)
    (writes : List PendingWrite) (taskId : TaskId) (thread space : String) :
    (store.addWrites threadId namespaceName checkpointId writes
        taskId).latest thread space = (store.latest thread space).map
        (writeTuple threadId namespaceName checkpointId writes taskId) :=
  latest_map (fun tuple => (writeTuple_header _ _ _ _ _ tuple).1) _ _ _

theorem latest_concat {threadId namespaceName : String}
    (store : CheckpointStore) (added : CheckpointTuple)
    (own : added.checkpoint.threadId = threadId ∧
      added.checkpoint.namespaceName = namespaceName) :
    latest (store ++ [added]) threadId namespaceName =
      match store.latest threadId namespaceName with
      | none => some added
      | some old =>
        if added.checkpoint.stepNumber > old.checkpoint.stepNumber then
          some added
        else some old := by
  have listed : ofThread (store ++ [added]) threadId namespaceName =
      ofThread store threadId namespaceName ++ [added] := by
    simp [ofThread, own]
  unfold latest
  rw [listed, newest_concat]

end CheckpointStore

/-- The store's answer to each call.  `put` compares and inserts in one
step. -/
def storeHandler (order : RowOrder) : Handler storeInterface CheckpointStore
  | .getTuple threadId namespaceName, store =>
    ((store.latest threadId namespaceName).map fun tuple =>
      { tuple with pendingWrites := order.arrange tuple.pendingWrites }, store)
  | .put threadId namespaceName checkpoint metadata expected, store =>
    match store.conflictOf threadId namespaceName expected with
    | some conflict => (.error conflict, store)
    | none => (.ok (), store.insert checkpoint metadata)
  | .putWrites threadId namespaceName checkpointId writes taskId, store =>
    ((), store.addWrites threadId namespaceName checkpointId writes taskId)

/-- `readFrontier`: a checkpoint without a frontier tag restores to nothing. -/
def readFrontier (metadata : CheckpointMetadata) : FrontierEnvelope :=
  metadata.tags.getD emptyFrontier

end Graphorin.Workflow
