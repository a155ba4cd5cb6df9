import Graphorin.Workflow.Loop
import Graphorin.Workflow.Outcomes
import Graphorin.Workflow.Restored

namespace Graphorin.Workflow

open Graphorin.Lib
open Graphorin.Js

/-! The journal of a step, seen from the rows of the checkpoint it is written
against. -/

def Act.rows (checkpointId : Id) (rows : List PendingWrite) :
    Act → List PendingWrite
  | .tell _ => rows
  | .journal target writes taskId =>
    if target = checkpointId then
      CheckpointStore.writeRows rows writes taskId
    else rows

def actsRows (checkpointId : Id) (rows : List PendingWrite)
    (acts : List Act) : List PendingWrite :=
  acts.foldl (Act.rows checkpointId) rows

/-- Journaling leaves the latest checkpoint where it is. -/
theorem latest_actsStore
    (latest : store.latest args.threadId (namespaceFor args.config) = some tuple)
    (acts : List Act) : (actsStore args store acts).latest args.threadId
        (namespaceFor args.config) =
      some { tuple with
        pendingWrites :=
          actsRows tuple.checkpoint.id tuple.pendingWrites acts } := by
  induction acts generalizing store tuple with
  | nil => exact latest
  | cons act _ ih =>
    cases act with
    | tell => exact ih latest
    | journal target writes taskId =>
      obtain ⟨-, sameThread, sameSpace⟩ := CheckpointStore.latest_mem latest
      have written : (store.addWrites args.threadId
          (namespaceFor args.config) target writes taskId).latest
            args.threadId (namespaceFor args.config) =
          some { tuple with
            pendingWrites := Act.rows tuple.checkpoint.id
              tuple.pendingWrites (.journal target writes taskId) } := by
        rw [CheckpointStore.latest_addWrites, latest, Option.map_some]
        simp only [CheckpointStore.writeTuple, Act.rows]
        by_cases own : target = tuple.checkpoint.id
        · rw [if_pos ⟨own.symm, sameThread, sameSpace⟩, if_pos own]
        · rw [if_neg fun same => own same.1.symm, if_neg own]
      exact ih written

def IntentAtZero (rows : List PendingWrite) : Prop :=
  ∀ row ∈ rows, row.taskId = .stepIntent → row.index = 0

def TaskActs (acts : List Act) : Prop :=
  ∀ act ∈ acts, ∀ target writes taskId,
    act = .journal target writes taskId → taskId ≠ .stepIntent

variable {internal : RunInternalState} {checkpointId : Id} {rows : List PendingWrite}

variable {before after : List Act}

theorem TaskActs.append (first : TaskActs before) (second : TaskActs after) :
    TaskActs (before ++ after) :=
  List.forall_mem_append.mpr ⟨first, second⟩

theorem TaskActs.left (both : TaskActs (before ++ after)) : TaskActs before :=
  fun act member => both act (List.mem_append_left _ member)

end Graphorin.Workflow
