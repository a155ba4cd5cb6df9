import Graphorin.Lib.Lineage
import Graphorin.Lib.Pool
import Graphorin.Workflow.History
import Graphorin.Workflow.Reports

namespace Graphorin.Workflow

open Graphorin.Lib
open Graphorin.Js

/-! A thread that several invocations work on at once, each a process of a
pool over the shared store. -/

abbrev Trace := List (Action storeInterface Obs)

/-- The checkpoints of one thread in the order they were put. -/
def CheckpointStore.heads (store : CheckpointStore)
    (threadId namespaceName : String) : List Checkpoint :=
  (store.ofThread threadId namespaceName).map CheckpointTuple.checkpoint

/-- The checkpoints form one line through `parentId`. -/
def Chained (heads : List Checkpoint) : Prop :=
  Lineage Checkpoint.id Checkpoint.parentId Checkpoint.stepNumber heads

theorem CheckpointStore.heads_map (kept : ∀ tuple, (f tuple).checkpoint = tuple.checkpoint)
    (store : CheckpointStore) (threadId namespaceName : String) :
    heads (store.map f) threadId namespaceName =
      store.heads threadId namespaceName := by
  unfold heads ofThread
  rw [List.filter_map, List.map_map]
  have same : CheckpointTuple.checkpoint ∘ f = CheckpointTuple.checkpoint :=
    funext kept
  rw [same]
  congr 1
  apply List.filter_congr
  intro tuple _
  simp only [Function.comp, kept]

theorem CheckpointStore.heads_addWrites (store : CheckpointStore)
    (thread space : String) (checkpointId : Id) (writes : List PendingWrite)
    (taskId : TaskId) (threadId namespaceName : String) :
    (store.addWrites thread space checkpointId writes taskId).heads threadId
      namespaceName = store.heads threadId namespaceName :=
  heads_map (fun tuple => (writeTuple_header _ _ _ _ _ tuple).1) _ _ _

variable {store : CheckpointStore}

theorem CheckpointStore.heads_insert {metadata : CheckpointMetadata}
    (unused : store.Every fun stored _ => stored.id ≠ checkpoint.id) :
    (store.insert checkpoint metadata).heads checkpoint.threadId
        checkpoint.namespaceName =
      store.heads checkpoint.threadId checkpoint.namespaceName ++ [checkpoint] := by
  rw [insert_unused unused]
  simp [heads, ofThread]

theorem CheckpointStore.mem_heads (member : checkpoint ∈ store.heads threadId namespaceName) :
    ∃ tuple ∈ store, tuple.checkpoint = checkpoint := by
  obtain ⟨tuple, listed, rfl⟩ := List.mem_map.mp member
  exact ⟨tuple, (List.mem_filter.mp listed).1, rfl⟩

/-- In a chain the latest checkpoint is the one put last. -/
theorem newest_chained (chained : Chained (rows.map CheckpointTuple.checkpoint)) :
    CheckpointStore.newest rows = rows.getLast? := by
  have rising := chained.linked
  clear chained
  induction rows using List.reverseRecOn with
  | nil => rfl
  | append_singleton rows last ih =>
    rw [List.map_append, List.isChain_append] at rising
    obtain ⟨earlier, -, linked⟩ := rising
    rw [CheckpointStore.newest_concat, ih earlier, List.getLast?_concat]
    cases previous : rows.getLast? with
    | none => rfl
    | some other =>
      have above := (linked other.checkpoint (by simp [previous])
        last.checkpoint (by simp)).2
      simp [above]

theorem latest_chained (chained : Chained (store.heads threadId namespaceName)) :
    (store.latest threadId namespaceName).map CheckpointTuple.checkpoint =
      (store.heads threadId namespaceName).getLast? := by
  rw [CheckpointStore.latest, newest_chained chained, CheckpointStore.heads,
    List.getLast?_map]

/-- The checkpoint a successful `put` stored. -/
def putOf : Action storeInterface Obs → Option Checkpoint
  | .called (.put _ _ checkpoint _ _) answer =>
    match (answer : Except CheckpointConflict Unit) with
    | .ok _ => some checkpoint
    | .error _ => none
  | _ => none

def storedBy (trace : Trace) : List Checkpoint := trace.filterMap putOf

def Obs.persisted : Obs → Bool
  | .event (.suspended _ _ _ _) => true
  | .event (.ended _ _) => true
  | .event (.checkpointWritten _ _) => true
  | _ => false

def Reports (trace : Trace) : Prop :=
  ∃ obs ∈ observed trace, obs.persisted = true

/-- The last thing a process was seen to do. -/
def lastTold (trace : Trace) : Option Obs := (observed trace).getLast?

@[simp] theorem storedBy_append (before after : Trace) :
    storedBy (before ++ after) = storedBy before ++ storedBy after := by
  simp [storedBy]

@[simp] theorem storedBy_told (observations : List Obs) :
    storedBy (observations.map .told) = [] := by
  simp [storedBy, putOf]

end Graphorin.Workflow
