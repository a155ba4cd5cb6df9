import Graphorin.Workflow.History

namespace Graphorin.Workflow

open Graphorin.Lib
open Graphorin.Js

/-! `fork`, and histories of all the threads of a store: any workflow may be
invoked on any thread, and any checkpoint may be forked into a new thread. -/

inductive ForkError
  | checkpointNotFound (threadId : String) (checkpointId : Id)
  | undeclaredChannel (key workflowName : String)
  | notSerializable (error : WorkflowError)
deriving DecidableEq

def ForkError.message : ForkError → String
  | .checkpointNotFound threadId checkpointId =>
    "no checkpoint \"" ++ toString checkpointId ++ "\" found for thread \"" ++
      threadId ++ "\""
  | .undeclaredChannel key workflowName =>
    "[graphorin/workflow] fork patch key '" ++ key ++
      "' does not name a declared channel of workflow '" ++ workflowName ++ "'"
  | .notSerializable error => error.message

def undeclared? (config : WorkflowConfig) (patch : Record String JsValue) :
    Option String :=
  patch.keys.find? fun key =>
    !(Record.has config.channels key || objectPrototype.contains key)

def patchedState (config : WorkflowConfig) (patch : Option (Record String JsValue))
    (state : State) : Except ForkError State :=
  match patch.getD [] with
  | [] => .ok state
  | patch =>
    match undeclared? config patch with
    | some key => .error (.undeclaredChannel key config.name)
    | none =>
      match serializeState (Record.overlay state patch) with
      | .ok state => .ok state
      | .error error => .error (.notSerializable error)

/-- `newId('thread')` for the digits `randomUUID` drew. -/
def newThreadId (uuid : List (Fin 16)) : String :=
  "thread-" ++ String.ofList (uuid.map fun digit => Nat.digitChar digit.val)

structure Fork where
  fromCheckpointId : Id
  patch : Option (Record String JsValue) := none
  uuid : List (Fin 16)

def Fork.newThreadId (fork : Fork) : String := Workflow.newThreadId fork.uuid

def forkedCheckpoint (config : WorkflowConfig) (threadId : String)
    (checkpointId : Id) (state : State) (checkpoint : Checkpoint) : Checkpoint :=
  { checkpoint with
    id := checkpointId
    threadId := threadId
    namespaceName := namespaceFor config
    parentId := none
    state := state }

def forkedMetadata (metadata : CheckpointMetadata) : CheckpointMetadata where
  source := .sync
  status := metadata.status
  nodeName := metadata.nodeName
  tags := metadata.tags

def forkedRow (entry : PendingWrite × Nat) : PendingWrite :=
  { entry.1 with index := entry.2 }

abbrev ForkM := Program storeInterface Obs ForkError

def copyWrites (namespaceName threadId : String) (checkpointId : Id) :
    Record TaskId (List PendingWrite) → ForkM Unit
  | [] => pure ()
  | (taskId, writes) :: rest =>
    .call (.putWrites threadId namespaceName checkpointId
      (writes.zipIdx.map forkedRow) taskId) fun _ =>
        copyWrites namespaceName threadId checkpointId rest

/-- `forkThread` behind its read of the source. -/
def forkFrom (config : WorkflowConfig) (threadId : String) (run : Nat)
    (fork : Fork) : Option CheckpointTuple → ForkM String
  | none => .fail (.checkpointNotFound threadId fork.fromCheckpointId)
  | some tuple => do
      let state ← Program.ofExcept
        (patchedState config fork.patch tuple.checkpoint.state)
      let checkpoint := forkedCheckpoint config fork.newThreadId ⟨run, 0⟩ state
        tuple.checkpoint
      .call (.put fork.newThreadId (namespaceFor config) checkpoint
        (forkedMetadata tuple.metadata) none) fun _ => do
          copyWrites (namespaceFor config) fork.newThreadId ⟨run, 0⟩
            (groupOn PendingWrite.taskId tuple.pendingWrites)
          pure fork.newThreadId

/-- `getTuple` of one checkpoint. -/
def CheckpointStore.find (store : CheckpointStore)
    (threadId namespaceName : String) (checkpointId : Id) : Option CheckpointTuple :=
  (store.ofThread threadId namespaceName).find? fun tuple =>
    tuple.checkpoint.id = checkpointId

def forkThread (config : WorkflowConfig) (threadId : String) (order : RowOrder)
    (run : Nat) (fork : Fork) (store : CheckpointStore) : ForkM String :=
  forkFrom config threadId run fork
    ((store.find threadId (namespaceFor config) fork.fromCheckpointId).map order.read)

/-- `crash` is the number of store calls a fork lives for behind its read. -/
inductive Operation
  | call (call : Call)
  | fork (fork : Fork) (crash : Option Nat := none)

/-- An operation of one workflow on one thread. -/
structure Move where
  config : WorkflowConfig
  threadId : String
  operation : Operation

def Fork.play (config : WorkflowConfig) (threadId : String) (order : RowOrder)
    (run : Nat) (fork : Fork) (crash : Option Nat) (store : CheckpointStore) :
    CheckpointStore :=
  let program := forkThread config threadId order run fork store
  match crash with
  | none => (program.run (storeHandler order) store).final
  | some limit => (program.runFor (storeHandler order) limit store).final

def Move.play (order : RowOrder) (run : Nat) (move : Move)
    (store : CheckpointStore) : List Obs × CheckpointStore :=
  match move.operation with
  | .call call => call.play move.config move.threadId order run store
  | .fork fork crash =>
    ([], fork.play move.config move.threadId order run crash store)

/-- All that was seen, and the store it left. -/
structure World where
  log : List (Move × List Obs)
  store : CheckpointStore

def World.unused : World := ⟨[], []⟩

def World.step (order : RowOrder) (world : World) (move : Move) : World :=
  let played := move.play order world.log.length world.store
  ⟨world.log ++ [(move, played.1)], played.2⟩

/-- The worlds reached by moves that all meet `admits`. -/
inductive Evolves (order : RowOrder) (admits : World → Move → Prop) : World → Prop
  | unused : Evolves order admits .unused
  | move {world : World} (evolves : Evolves order admits world) (move : Move)
      (admitted : admits world move) : Evolves order admits (world.step order move)

theorem CheckpointStore.find_mem {store : CheckpointStore}
    {threadId namespaceName : String} {checkpointId : Id} {tuple : CheckpointTuple}
    (found : store.find threadId namespaceName checkpointId = some tuple) :
    tuple ∈ store ∧ tuple.checkpoint.threadId = threadId ∧
      tuple.checkpoint.namespaceName = namespaceName ∧
      tuple.checkpoint.id = checkpointId := by
  have member := List.mem_of_find?_eq_some found
  have same := List.find?_some found
  simp only [ofThread, List.mem_filter, Bool.and_eq_true, beq_iff_eq] at member
  simp only [decide_eq_true_eq] at same
  exact ⟨member.1, member.2.1, member.2.2, same⟩

/-- A fork fails with the store as it was, or puts one checkpoint and some of
its writes. -/
theorem Fork.play_of {config : WorkflowConfig} {threadId : String}
    {order : RowOrder} {run : Nat} {fork : Fork} {crash : Option Nat}
    {store : CheckpointStore} {claim : CheckpointStore → Prop}
    (untouched : claim store) (copied : ∀ tuple state,
      store.find threadId (namespaceFor config) fork.fromCheckpointId = some tuple →
      patchedState config fork.patch tuple.checkpoint.state = .ok state →
      claim (store.insert (forkedCheckpoint config fork.newThreadId ⟨run, 0⟩ state
        tuple.checkpoint) (forkedMetadata tuple.metadata))) (grown : ∀ tuple,
      store.find threadId (namespaceFor config) fork.fromCheckpointId = some tuple →
      ∀ current taskId writes, (taskId, writes) ∈ groupOn PendingWrite.taskId
        (order.arrange tuple.pendingWrites) →
      claim current → claim (current.addWrites fork.newThreadId (namespaceFor config)
        ⟨run, 0⟩ (writes.zipIdx.map forkedRow) taskId)) :
    claim (fork.play config threadId order run crash store) := by
  have holds : (forkThread config threadId order run fork store).ensures
      (storeHandler order) (fun store _ => claim store)
      (fun _ store _ => claim store) store [] := by
    unfold forkThread
    cases found : store.find threadId (namespaceFor config)
        fork.fromCheckpointId with
    | none => exact untouched
    | some tuple =>
      rw [Option.map_some, forkFrom]
      cases patched : patchedState config fork.patch
          (order.read tuple).checkpoint.state with
      | error => exact untouched
      | ok state =>
        refine ⟨untouched, ?_⟩
        show Program.ensures _ _ _ (Program.bind (copyWrites _ _ _ _) _) _ _
        rw [Program.ensures_bind]
        have writes : ∀ groups, (∀ group ∈ groups, group ∈ groupOn
            PendingWrite.taskId (order.arrange tuple.pendingWrites)) →
            ∀ current, claim current → (copyWrites (namespaceFor config)
              fork.newThreadId ⟨run, 0⟩ groups).ensures (storeHandler order)
              (fun store _ => claim store) (Program.followed
                (fun store _ => claim store) (storeHandler order)
                (fun _ => pure fork.newThreadId)
                fun _ store _ => claim store) current [] := by
          intro groups
          induction groups with
          | nil => exact fun _ current holds => holds
          | cons group _ ih =>
            intro listed current holds
            refine ⟨holds, ih (fun other member =>
              listed other (List.mem_cons_of_mem _ member)) _ ?_⟩
            exact grown tuple found current group.1 group.2
              (listed group List.mem_cons_self) holds
        exact writes _ (fun _ member => member) _ (copied tuple state found patched)
  unfold Fork.play
  cases crash with
  | none => exact Program.run_of_ensures holds
  | some limit =>
    have reached := Program.runFor_of_ensures limit holds
    simp only
    cases ended : ((forkThread config threadId order run fork store).runFor
        (storeHandler order) limit store).result with
    | none => simpa [ended, Program.stopped] using reached
    | some => simpa [ended, Program.stopped] using reached

end Graphorin.Workflow
