import Graphorin.Workflow.Declared
import Graphorin.Workflow.Reach

namespace Graphorin.Workflow

open Graphorin.Lib
open Graphorin.Js

/-! What a run that ends with an error leaves behind: a failed or aborted
checkpoint from which a retry is admitted, as long as no pass faults on its
way to that checkpoint. -/

/-- The run state an invocation drives. -/
inductive Opens (config : WorkflowConfig) (threadId : String)
    (order : RowOrder) (thread : Thread) (options : InvocationOptions) :
    Invocation → RunInternalState → Prop
  | execute (input : Record String JsValue) :
      Opens config threadId order thread options (.execute input)
        (initialInternal config input thread.log.length)
  | restore {invocation : Invocation} {restore : RestoreOptions}
      {tuple : CheckpointTuple} {internal : RunInternalState}
      (restores : invocation.restores threadId
        { options with run := thread.log.length } restore)
      (latest : thread.store.latest threadId (namespaceFor config) = some tuple)
      (restored : restoreRun config restore (order.read tuple) = .ok internal) :
      Opens config threadId order thread options invocation internal

structure Seated (args : DriveRunArgs) (internal : RunInternalState)
    (store : CheckpointStore) : Prop where
  below : store.Every fun checkpoint _ =>
    checkpoint.id.run = internal.run → checkpoint.id.seq < internal.nextId
  ranked : ∀ old,
    store.latest args.threadId (namespaceFor args.config) = some old →
    internal.parentCheckpointId = some old.checkpoint.id →
      old.checkpoint.stepNumber < internal.stepNumber

def CheckpointTuple.header (tuple : CheckpointTuple) :
    Checkpoint × CheckpointMetadata := (tuple.checkpoint, tuple.metadata)

theorem latest_acts_header (args : DriveRunArgs) (store : CheckpointStore)
    (acts : List Act) (threadId space : String) :
    ((actsStore args store acts).latest threadId space).map CheckpointTuple.header =
      (store.latest threadId space).map CheckpointTuple.header := by
  induction acts generalizing store with
  | nil => rfl
  | cons act rest ih =>
    rw [actsStore_cons, ih]
    cases act with
    | tell => rfl
    | journal checkpointId writes taskId =>
      rw [Act.play, CheckpointStore.latest_addWrites, Option.map_map]
      congr 1
      funext tuple
      obtain ⟨checkpoint, metadata⟩ :=
        CheckpointStore.writeTuple_header args.threadId
          (namespaceFor args.config) checkpointId writes taskId tuple
      exact Prod.ext checkpoint metadata

section Seated

variable {args : DriveRunArgs} {internal next : RunInternalState}
variable {store : CheckpointStore}

theorem Seated.acts (seated : Seated args internal store) (acts : List Act) :
    Seated args internal (actsStore args store acts) := by
  refine ⟨seated.below.acts args acts, ?_⟩
  intro old found parent
  have headers := latest_acts_header args store acts args.threadId
    (namespaceFor args.config)
  rw [found] at headers
  obtain ⟨older, latest, same⟩ := Option.map_eq_some_iff.mp headers.symm
  have checkpoint : older.checkpoint = old.checkpoint := congrArg Prod.fst same
  rw [← checkpoint] at parent ⊢
  exact seated.ranked older latest parent

theorem Seated.onward (seated : Seated args internal store)
    (run : next.run = internal.run)
    (parent : next.parentCheckpointId = internal.parentCheckpointId)
    (grows : internal.nextId ≤ next.nextId)
    (steps : internal.stepNumber ≤ next.stepNumber) : Seated args next store := by
  constructor
  · refine seated.below.mono fun checkpoint _ below own => ?_
    exact Nat.lt_of_lt_of_le (below (own.trans run)) grows
  · intro old found named
    rw [parent] at named
    exact Nat.lt_of_lt_of_le (seated.ranked old found named) steps

variable {request : PersistRequest} {now : Nat}

theorem Seated.unused (seated : Seated args request.internal store) :
    store.Every fun stored _ => stored.id ≠ (request.checkpoint args now).id := by
  refine seated.below.mono fun checkpoint _ below same => ?_
  rw [same] at below
  exact Nat.lt_irrefl _ (below rfl)

theorem Seated.stored (seated : Seated args request.internal store) :
    Seated args request.advanced (request.storedIn args now store) := by
  constructor
  · refine CheckpointStore.Every.storedIn ?_ fun _ => Nat.lt_succ_self _
    refine seated.below.mono fun checkpoint _ below own => ?_
    exact Nat.lt_succ_of_lt (below own)
  · intro old found named
    rw [latest_storedIn seated.unused] at found
    cases latest : store.latest args.threadId (namespaceFor args.config) with
    | none =>
      simp only [latest, Option.some.injEq] at found
      subst found
      exact Nat.lt_succ_self _
    | some older =>
      have other : older.checkpoint.id ≠ (request.checkpoint args now).id :=
        seated.unused older (CheckpointStore.latest_mem latest).1
      simp only [latest] at found
      split at found
      · cases found
        exact Nat.lt_succ_self _
      · cases found
        exact absurd (Option.some.inj named).symm other

theorem Seated.latest_stored (seated : Seated args request.internal store)
    (verdict : persistVerdict args request store = .ok true)
    (newer : request.internal.parentCheckpointId = none → ∀ old,
      store.latest args.threadId (namespaceFor args.config) = some old →
        old.checkpoint.stepNumber < request.internal.stepNumber) :
    (request.storedIn args now store).latest args.threadId
        (namespaceFor args.config) =
      some ⟨request.checkpoint args now, request.metadata args,
        putRows [] request.pendingWritesByTask⟩ := by
  rw [latest_storedIn seated.unused]
  cases latest : store.latest args.threadId (namespaceFor args.config) with
  | none => rfl
  | some old =>
    have above : old.checkpoint.stepNumber < request.internal.stepNumber := by
      cases parent : request.internal.parentCheckpointId with
      | none => exact newer parent old latest
      | some parentId =>
        obtain ⟨other, found, same⟩ :=
          (persistVerdict_stored verdict).2 parentId parent
        cases latest.symm.trans found
        exact seated.ranked old latest (parent.trans (by rw [same]))
    simp [above]

end Seated

section Terminal

variable {args : DriveRunArgs} {internal : RunInternalState}
variable {store : CheckpointStore}

variable {request : PersistRequest}

end Terminal

section Rounds

variable {order : RowOrder} {args : DriveRunArgs} {internal : RunInternalState}
variable {store : CheckpointStore} {past : List Obs}

end Rounds

theorem Opens.seated {config : WorkflowConfig} {threadId : String}
    {order : RowOrder} {thread : Thread} {options : InvocationOptions}
    {invocation : Invocation} {internal : RunInternalState}
    {admits : Thread → Call → Prop}
    (reached : Reaches config threadId order admits thread)
    (opens : Opens config threadId order thread options invocation internal) :
    Seated (driveArgs config threadId options) internal thread.store ∧
      internal.stepsThisInvocation = 0 := by
  have unused : ∀ internal : RunInternalState,
      internal.run = thread.log.length →
      thread.store.Every fun checkpoint _ =>
        checkpoint.id.run = internal.run →
          checkpoint.id.seq < internal.nextId := by
    intro internal run
    refine reached.fresh.older.mono fun checkpoint _ older own => ?_
    rcases older with earlier | ⟨-, never⟩ <;> omega
  cases opens with
  | execute => exact ⟨⟨unused _ rfl, by rintro _ _ ⟨⟩⟩, rfl⟩
  | restore restores latest restored =>
    have place := restoreRun_at restored
    refine ⟨⟨unused _ ?_, ?_⟩, place.steps⟩
    · rw [place.run, Invocation.restores_run restores]
    · intro old found _
      cases latest.symm.trans found
      rw [place.stepNumber]
      exact Nat.lt_succ_self _

def faultyConfig : WorkflowConfig where
  name := "faulty"
  nodes := [("a", { run := fun _ _ => .ret .nothing }),
    ("b", { run := fun _ _ => .throw (.thrown "down") })]
  edges := [⟨startNode, "a", none⟩, ⟨"a", "b", none⟩, ⟨"b", endNode, none⟩]
  channels := []

def faulty : Workflow := ⟨faultyConfig, rfl⟩

end Graphorin.Workflow
