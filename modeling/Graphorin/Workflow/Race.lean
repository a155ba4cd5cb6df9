import Graphorin.Workflow.Interference

namespace Graphorin.Workflow

open Graphorin.Lib
open Graphorin.Js

/-! Two `execute` calls on one unused thread.  The first `put` of a run has no
checkpoint to compare with, so nothing but the engine's own read stands between
the two. -/

structure Racer where
  config : WorkflowConfig
  input : Record String JsValue
  options : InvocationOptions

namespace Racer

variable (racer : Racer) (threadId : String) (run : Nat)

def args : DriveRunArgs := driveArgs racer.config threadId racer.options

def begins : RunInternalState := initialInternal racer.config racer.input run

def program : EngineM Unit :=
  runEngine racer.config threadId { racer.options with run := run } racer.input

/-- What the run meets in one of its passes. -/
def Meets (fault : Fault) : Prop :=
  ∃ internal, Passes (racer.args threadId) (racer.begins run) internal ∧
    PassFaults (racer.args threadId) internal fault

end Racer

/-- The racers draw their ids under two numbers of their own. -/
def racing (threadId : String) (base : Nat) (racers : Fin 2 → Racer)
    (store : CheckpointStore) :
    Pool storeInterface Obs Fault Unit CheckpointStore (Fin 2) :=
  .start (fun racer => (racers racer).program threadId (base + racer)) store

/-- A `put` without `expectedLatestId` meets a thread without checkpoints. -/
def FirstPutsAlone (threadId space : String) (store : CheckpointStore) :
    StoreOp → Prop
  | .put _ _ _ _ none => store.heads threadId space = []
  | _ => True

/-- One of the two persists nothing, reports nothing persisted, and can only
end overtaken by the other. -/
def OneSucceeds (threadId : String) (base : Nat)
    (pool : Pool storeInterface Obs Fault Unit CheckpointStore (Fin 2)) : Prop :=
  ∃ loser : Fin 2, ¬ Reports (pool.trace loser) ∧
    (∀ tuple ∈ pool.store, tuple.checkpoint.id.run ≠ base + loser) ∧
    ((pool.rest loser).ended = true → ∃ fault,
      lastTold (pool.trace loser) = some (emitError threadId fault) ∧
        fault.code = .checkpointVersionConflict)

def Racer.party (threadId name : String) (run : Nat) : Party where
  threadId := threadId
  space := "workflow/" ++ name
  run := run
  origin := fun _ => some none
  admits := FirstPutsAlone threadId ("workflow/" ++ name)

section Race

variable {order : RowOrder} {threadId name : String} {base : Nat}
variable {racers : Fin 2 → Racer} {store : CheckpointStore}

theorem reported_stable {party : Party} {own : Fault → Prop}
    {result : Except Fault Unit} {store later : CheckpointStore} {past : Trace}
    (relied : party.setting.rely store later)
    (reached : party.Reported own result store past) :
    party.Reported own result later past := by
  obtain ⟨⟨internal, held⟩, outcome⟩ := reached
  exact ⟨⟨internal, held.stable relied⟩, outcome⟩

theorem Racer.starts (racer : Racer) (named : racer.config.name = name)
    (unused : store.heads threadId ("workflow/" ++ name) = [])
    (drawn : store.Every fun checkpoint _ => checkpoint.id.run ≠ run) :
    (racer.program threadId run).amid (storeHandler order)
      (Racer.party threadId name run).setting
      ((Racer.party threadId name run).Reported (racer.Meets threadId run)) store
        [] := by
  have kept : (Racer.party threadId name run).Kept store [] := by
    refine ⟨?_, by rintro _ ⟨⟩, by rintro _ ⟨⟩, by rintro ⟨_, ⟨⟩, _⟩, ?_⟩
    · show Chained (store.heads threadId ("workflow/" ++ name))
      rw [unused]
      exact lineage_nil
    · intro tuple member own
      exact absurd own (drawn tuple member)
  have holding : (Racer.party threadId name run).Holding (racer.begins run)
      store [] :=
    ⟨kept, rfl, by rintro _ ⟨⟩, ⟨none, rfl, rfl⟩, by rintro _ ⟨⟩, fun _ => rfl,
      fun _ _ _ _ _ _ admitted => admitted⟩
  refine ⟨kept, ?_⟩
  refine @amid_driveReporting order (Racer.party threadId name run)
    (racer.args threadId) _ _ _ _ rfl (by rw [← named]; rfl)
    (fun internal _ passes faults => ⟨internal, passes, faults⟩) rfl ?_
  refine holding.extend rfl (.inr ?_)
  intro obs told
  rw [List.mem_singleton] at told
  cases told
  rfl

/-- Where no first `put` meets a checkpoint of the other racer and neither run
fails by itself, at most one of the two succeeds. -/
theorem racing_executes_one_succeeds
    (named : ∀ racer, (racers racer).config.name = name)
    (unused : store.heads threadId ("workflow/" ++ name) = [])
    (drawn : store.Every fun checkpoint _ => checkpoint.id.run < base)
    (safe : ∀ racer, SafeRun ((racers racer).args threadId)
      ((racers racer).begins (base + racer))) (schedule : List (Fin 2))
    (alone : (racing threadId base racers store).Admitted (storeHandler order)
      (FirstPutsAlone threadId ("workflow/" ++ name)) schedule) :
    OneSucceeds threadId base ((racing threadId base racers store).play
      (storeHandler order) schedule) := by
  let party : Fin 2 → Party := fun racer =>
    Racer.party threadId name (base + racer)
  let posts : Fin 2 → Except Fault Unit → CheckpointStore → Trace → Prop :=
    fun racer => (party racer).Reported ((racers racer).Meets threadId (base + racer))
  have started : (racing threadId base racers store).Sound (storeHandler order)
      (fun racer => (party racer).setting) posts := by
    intro racer
    apply (racers racer).starts (named racer) unused
    exact drawn.mono fun checkpoint _ older => by omega
  have apart : ∀ one other : Fin 2, one ≠ other → ∀ store later,
      (party one).setting.guarantee store later →
        (party other).setting.rely store later := by
    intro one other distinct store later guaranteed
    refine Grown.mono guaranteed ?_
    rintro run rfl
    show base + one.val ≠ base + other.val
    omega
  have steady : ∀ racer result store later past,
      (party racer).setting.rely store later →
      posts racer result store past → posts racer result later past :=
    fun _ _ _ _ _ => reported_stable
  have sound : ((racing threadId base racers store).play (storeHandler order)
      schedule).Sound (storeHandler order)
        (fun racer => (party racer).setting) posts :=
    Pool.Sound.play apart steady (fun _ _ _ => id) started alone
  generalize (racing threadId base racers store).play (storeHandler order)
    schedule = pool at sound ⊢
  have kept : ∀ racer, (party racer).Kept pool.store (pool.trace racer) :=
    fun racer => Program.amid_during (sound racer)
  -- two first checkpoints would both be the root of the chain
  obtain ⟨loser, bare⟩ : ∃ loser, storedBy (pool.trace loser) = [] := by
    by_contra both
    rw [not_exists] at both
    have roots : ∀ racer : Fin 2, ∃ checkpoint ∈ (party 0).heads pool.store,
        checkpoint.parentId = none ∧ checkpoint.id.run = base + racer.val := by
      intro racer
      cases stored : storedBy (pool.trace racer) with
      | nil => exact absurd stored (both racer)
      | cons checkpoint =>
        obtain ⟨listed, own⟩ := (kept racer).own checkpoint (by simp [stored])
        have first := (kept racer).first checkpoint (by simp [stored])
        exact ⟨checkpoint, listed, (Option.some.inj first).symm, own⟩
    obtain ⟨one, oneListed, oneRoot, oneRun⟩ := roots 0
    obtain ⟨two, twoListed, twoRoot, twoRun⟩ := roots 1
    have same := (kept 0).chained.only_child oneListed twoListed
      (oneRoot.trans twoRoot.symm)
    rw [same, twoRun] at oneRun
    omega
  refine ⟨loser, ?_, ?_, ?_⟩
  · exact fun reports => (kept loser).reported reports bare
  · intro tuple member own
    have stored := (kept loser).drawn tuple member own
    rw [bare] at stored
    cases stored
  · intro ended
    obtain ⟨result, -, outcome⟩ := Program.amid_ended (sound loser) ended
    obtain ⟨fault, told, reason⟩ := outcome.resolve_left (not_not_intro bare)
    refine ⟨fault, told, reason.resolve_right ?_⟩
    rintro ⟨internal, passes, faults⟩
    exact (safe loser internal passes).faultless fault faults

end Race

def heldConfig : WorkflowConfig where
  name := "held"
  nodes := [("a", { run := fun _ _ => .ret .nothing })]
  edges := [⟨startNode, "a", none⟩, ⟨"a", endNode, none⟩]
  channels := []
  pauseAt := { before := ["a"] }

def held : Workflow := ⟨heldConfig, rfl⟩

def heldRacers : Fin 2 → Racer := fun _ => ⟨heldConfig, [], { run := 0 }⟩

theorem both_executes_suspend : ¬ ∀ (workflow : Workflow) (threadId : String)
      (inputs : Fin 2 → Record String JsValue)
      (options : Fin 2 → InvocationOptions) (order : RowOrder)
      (store : CheckpointStore) (base : Nat),
      store.heads threadId (namespaceFor workflow.config) = [] →
      (store.Every fun checkpoint _ => checkpoint.id.run < base) →
      ∀ schedule, OneSucceeds threadId base ((racing threadId base (fun racer =>
          ⟨workflow.config, inputs racer, options racer⟩) store).play
            (storeHandler order) schedule) := by
  intro always
  obtain ⟨loser, silent, -⟩ := always held "t" (fun _ => []) (fun _ => { run := 0 })
    .inserted [] 0 rfl (by rintro _ ⟨⟩) [0, 0, 0, 1, 1, 1, 0, 1, 0, 1]
  have reports : ∀ racer, Reports (((racing "t" 0 heldRacers []).play
      (storeHandler .inserted) [0, 0, 0, 1, 1, 1, 0, 1, 0, 1]).trace racer) := by
    unfold Reports
    decide
  exact silent (reports loser)

theorem heldRacers_safe (racer : Fin 2) :
    SafeRun ((heldRacers racer).args "t") ((heldRacers racer).begins racer) := by
  apply safeRun_of_last ⟨_, rfl, rfl⟩
  rintro exit ⟨⟩ checkpointId next ⟨⟩

theorem later_execute_conflicts :
    OneSucceeds "t" 0 ((racing "t" 0 heldRacers []).play
      (storeHandler .inserted) [0, 0, 0, 0, 0, 1, 1, 1, 1]) := by
  refine racing_executes_one_succeeds (fun _ => rfl) rfl (by rintro _ ⟨⟩) ?_ _ ?_
  · intro racer
    rw [Nat.zero_add]
    exact heldRacers_safe racer
  · exact ⟨trivial, trivial, trivial, rfl, trivial, trivial, trivial, trivial,
      trivial, trivial⟩

end Graphorin.Workflow
