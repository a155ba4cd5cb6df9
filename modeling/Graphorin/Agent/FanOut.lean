import Graphorin.Agent.Fallback
import Mathlib.Algebra.Order.BigOperators.Group.Finset
import Mathlib.Algebra.Order.Ring.Rat
import Mathlib.Data.Nat.Cast.Order.Ring

namespace Graphorin.Agent.FanOut

open Js (JsValue)
open Fallback (addUsage)
open Provider (Cost Usage zeroUsage)

/-! Children run side by side, each in a slot until its promise settles.  A child that
is out of time leaves its slot and goes on. -/

structure PerChildBudget where
  tokens : Option Rat := none
  toolCalls : Option Rat := none
  durationMs : Option Rat := none

structure Child where
  agentId : String

/-- `numberText` is how the host prints a number.  An infinite cap does what the number of
children does. -/
structure FanOutOptions where
  children : List Child
  maxConcurrentChildren : Option Rat := none
  perBudget : PerChildBudget := {}
  numberText : Rat → String

inductive ChildStatus
  | completed
  | failed
  | budgetExceeded
  | cancelled
deriving DecidableEq

def ChildStatus.text : ChildStatus → String
  | .completed => "completed"
  | .failed => "failed"
  | .budgetExceeded => "budget-exceeded"
  | .cancelled => "cancelled"

structure ChildError where
  message : String
  code : String
deriving DecidableEq

structure ChildResult where
  agentId : String
  status : ChildStatus
  output : Option JsValue := none
  error : Option ChildError := none
  tokensUsed : Rat := 0
  toolCallCount : Nat := 0
  usage : Option Usage := none
deriving DecidableEq

/-- What is harvested of an `AgentResult`. -/
structure Report where
  output : JsValue
  tokensUsed : Rat
  toolCallCount : Nat
  usage : Option Usage

def costIn (cost : JsValue) : Option Cost :=
  match (cost.field "amount").num?, (cost.field "currency").str? with
  | some amount, some currency => some { amount, currency }
  | _, _ => none

def usageIn (usage : JsValue) (totalTokens : Rat) : Option Usage :=
  match (usage.field "promptTokens").num?, (usage.field "completionTokens").num? with
  | some promptTokens, some completionTokens => some {
      promptTokens, completionTokens, totalTokens
      reasoningTokens := (usage.field "reasoningTokens").num?
      cachedReadTokens := (usage.field "cachedReadTokens").num?
      cacheWriteTokens := (usage.field "cacheWriteTokens").num?
      cost := costIn (usage.field "cost") }
  | _, _ => none

def callsIn : JsValue → Except String Nat
  | .undefined => .error "Cannot read properties of undefined (reading 'toolCalls')"
  | .null => .error "Cannot read properties of null (reading 'toolCalls')"
  | step => .ok ((step.field "toolCalls").items?.elim 0 List.length)

def toolCallsIn : List JsValue → Except String Nat
  | [] => .ok 0
  | step :: rest => do return (← callsIn step) + (← toolCallsIn rest)

/-- An `AgentResult` is told by its shape.  A step that is no object throws. -/
def harvestAgentResult (value : JsValue) : Except String (Option Report) :=
  let usage := value.field "usage"
  let state := value.field "state"
  match value, (usage.field "totalTokens").num?, (state.field "id").str?,
      (state.field "status").str? with
  | .obj fields, some tokensUsed, some _, some _ =>
    if fields.any fun entry => entry.1 == "output" then do
      let toolCallCount ← (state.field "steps").items?.elim (.ok 0) toolCallsIn
      return some {
        output := value.field "output"
        tokensUsed, toolCallCount
        usage := usageIn usage tokensUsed }
    else .ok none
  | _, _, _, _ => .ok none

/-- How `child.invoke()` ends: with a value, or with the text of what was thrown. -/
inductive Settlement
  | resolved (raw : JsValue)
  | rejected (message : String)

/-- The usage a child reports. -/
def Settlement.usage : Settlement → Option Usage
  | .resolved raw =>
    match harvestAgentResult raw with
    | .ok report => report.bind (·.usage)
    | .error _ => none
  | .rejected _ => none

def outOfTime : Settlement := .rejected "budget-exceeded:durationMs"

def overLimit (numberText : Rat → String) (counter : String) (used : Rat) :
    Option Rat → Option String
  | none => none
  | some bound =>
    if used > bound then
      some (counter ++ " " ++ numberText used ++ " > " ++ numberText bound)
    else none

def caught (agentId message : String) (aborted : Bool) : ChildResult :=
  let status : ChildStatus :=
    if "budget-exceeded".toList.isPrefixOf message.toList then .budgetExceeded
    else if aborted then .cancelled
    else .failed
  { agentId, status, error := some ⟨message, status.text⟩ }

def cancelled (agentId : String) : ChildResult := { agentId, status := .cancelled }

namespace FanOutOptions

variable (options : FanOutOptions)

def agentId (index : Nat) : String := (options.children[index]?).elim "" (·.agentId)

def limit : Rat :=
  max 1 (min (options.maxConcurrentChildren.getD 4) options.children.length)

def exceeded (tokensUsed : Rat) (toolCallCount : Nat) : Option String :=
  (overLimit options.numberText "tokens" tokensUsed options.perBudget.tokens).or
    (overLimit options.numberText "toolCalls" toolCallCount options.perBudget.toolCalls)

/-- What `exec` makes of the race. -/
def conclude (agentId : String) (aborted : Bool) : Settlement → ChildResult
  | .rejected message => caught agentId message aborted
  | .resolved raw =>
    match harvestAgentResult raw with
    | .error message => caught agentId message aborted
    | .ok report =>
      let tokensUsed := report.elim 0 (·.tokensUsed)
      let toolCallCount := report.elim 0 (·.toolCallCount)
      let usage := report.bind (·.usage)
      match options.exceeded tokensUsed toolCallCount with
      | some exceeded => {
          agentId, tokensUsed, toolCallCount, usage
          status := .budgetExceeded
          error := some ⟨"budget-exceeded: " ++ exceeded, "budget-exceeded"⟩ }
      | none => {
          agentId, tokensUsed, toolCallCount, usage
          status := .completed
          output := some (report.elim raw (·.output)) }

end FanOutOptions

inductive Stage
  | waiting
  | racing
  | raced (settlement : Settlement)
  | decided (result : ChildResult)
  | recorded (result : ChildResult)

/-- In `running` -/
def Stage.running : Stage → Bool
  | .racing | .raced _ | .decided _ => true
  | .waiting | .recorded _ => false

/-- `results[index]` -/
def Stage.result? : Stage → Option ChildResult
  | .recorded result => some result
  | _ => none

def Stage.weight : Stage → Nat
  | .waiting => 4
  | .racing => 3
  | .raced _ => 2
  | .decided _ => 1
  | .recorded _ => 0

/-- Children are named by their place. -/
structure World where
  cursor : Nat := 0
  stage : Nat → Stage := fun _ => .waiting
  invoked : List Nat := []
  settled : Nat → Option Settlement := fun _ => none
  timedOut : Nat → Bool := fun _ => false
  /-- The calls of `onChildResult`. -/
  reported : List (Nat × ChildResult) := []
  /-- The cursor when the signal was aborted. -/
  abortedAt : Option Nat := none

namespace World

def put (world : World) (index : Nat) (stage : Stage) : World :=
  { world with stage := Function.update world.stage index stage }

/-- Invoked, and still running. -/
def alive (world : World) (index : Nat) : Bool :=
  index ∈ world.invoked && (world.settled index).isNone

def launched (options : FanOutOptions) (world : World) : World :=
  if world.abortedAt.isSome then
    { world.put world.cursor (.decided (cancelled (options.agentId world.cursor))) with
      cursor := world.cursor + 1 }
  else
    { world.put world.cursor .racing with
      cursor := world.cursor + 1
      invoked := world.invoked ++ [world.cursor] }

def settles (world : World) (index : Nat) (settlement : Settlement) : World :=
  let ended := { world with settled := Function.update world.settled index (some settlement) }
  match world.stage index with
  | .racing => ended.put index (.raced settlement)
  | _ => ended

end World

inductive Action
  | launch
  | childSettles (index : Nat) (settlement : Settlement)
  | timeout (index : Nat)
  | conclude (index : Nat)
  | record (index : Nat)
  | abort

def Action.ours : Action → Bool
  | .launch | .conclude _ | .record _ => true
  | .childSettles _ _ | .timeout _ | .abort => false

variable (options : FanOutOptions)

namespace World

variable (world : World)

def running : Finset Nat :=
  (Finset.range options.children.length).filter fun index => (world.stage index).running

def stillRunning : Finset Nat :=
  (Finset.range options.children.length).filter fun index => world.alive index

def finished : Prop :=
  world.cursor = options.children.length ∧ (world.running options).card = 0

def work : Nat := ∑ index ∈ Finset.range options.children.length, (world.stage index).weight

def results : List ChildResult :=
  (List.range options.children.length).filterMap fun index => (world.stage index).result?

/-- `usage` of `FanOutResult` -/
def usage : Usage :=
  (world.results options).foldl
    (fun target result =>
      match result.usage with
      | some delta => addUsage target delta
      | none => target)
    zeroUsage

end World

/-- The loop launches while a slot is free.  A child leaves its slot when its result is
recorded, whether it has settled or not. -/
def step (world : World) : Action → Option World
  | .launch =>
    if world.cursor < options.children.length ∧
        ((world.running options).card : Rat) < options.limit then
      some (world.launched options)
    else none
  | .childSettles index settlement =>
    if world.alive index then some (world.settles index settlement) else none
  | .timeout index =>
    match options.perBudget.durationMs, world.stage index with
    | some _, .racing => some
        { world.put index (.raced outOfTime) with
          timedOut := Function.update world.timedOut index true }
    | _, _ => none
  | .conclude index =>
    match world.stage index with
    | .raced settlement =>
      let result :=
        options.conclude (options.agentId index) world.abortedAt.isSome settlement
      some (world.put index (.decided result))
    | _ => none
  | .record index =>
    match world.stage index with
    | .decided result => some
        { world.put index (.recorded result) with
          reported := world.reported ++ [(index, result)] }
    | _ => none
  | .abort =>
    if world.abortedAt.isNone then some { world with abortedAt := some world.cursor }
    else none

def World.Ended (world : World) (index : Nat) (settlement : Settlement) : Prop :=
  if world.timedOut index then settlement = outOfTime
  else world.settled index = some settlement

def World.Describes (world : World) (index : Nat) (result : ChildResult) : Prop :=
  (index ∉ world.invoked ∧ result = cancelled (options.agentId index)) ∨
    (index ∈ world.invoked ∧ ∃ settlement aborted, world.Ended index settlement ∧
      (aborted = true → world.abortedAt.isSome) ∧
      result = options.conclude (options.agentId index) aborted settlement)

/-- What the children have reported, added up. -/
def World.reportedUsage (world : World) : Usage :=
  ((List.range options.children.length).filterMap fun index =>
    (world.settled index).bind Settlement.usage).foldl addUsage zeroUsage

structure Honest (world : World) : Prop where
  invokedOnce : world.invoked.Nodup
  everyTurn : ∀ index < world.cursor,
    index ∈ world.invoked ∨ ∃ turn ≤ index, world.abortedAt = some turn
  describes : ∀ index result, world.stage index = .recorded result →
    world.Describes options index result
  capped : ((world.stillRunning options).card : Rat) ≤ options.limit
  reportedOnce : (world.reported.map Prod.fst).Nodup
  reportedWhat : ∀ index result, (index, result) ∈ world.reported ↔
    world.stage index = .recorded result
  settles : (∀ index ∈ world.invoked, (world.settled index).isSome ∨ world.timedOut index) →
    world.finished options ∨ ∃ action, action.ours = true ∧ (step options world action).isSome
  drains : ∀ action next, step options world action = some next →
    next.work options ≤ world.work options ∧
      (action.ours = true → next.work options < world.work options)
  complete : world.finished options →
    (world.results options).length = options.children.length ∧
      (world.reported.map Prod.fst).Perm (List.range options.children.length) ∧
      world.usage options = world.reportedUsage options

/-- No child that is out of time still runs when another one is launched, or reports a
usage when it settles. -/
def Tame (world : World) : Action → Prop
  | .launch => world.abortedAt.isSome ∨
      ∀ index, world.timedOut index → (world.settled index).isSome
  | .childSettles index settlement => world.timedOut index → settlement.usage = none
  | _ => True

def World.Told (world : World) (index : Nat) : Stage → Prop
  | .waiting => True
  | .racing => index ∈ world.invoked ∧ world.settled index = none ∧ world.timedOut index = false
  | .raced settlement => index ∈ world.invoked ∧ world.Ended index settlement
  | .decided result | .recorded result => world.Describes options index result

structure Inv (world : World) : Prop where
  within : world.cursor ≤ options.children.length
  waits : ∀ index, world.stage index = .waiting ↔ world.cursor ≤ index
  told : ∀ index, world.Told options index (world.stage index)
  turns : world.invoked = List.range (world.abortedAt.getD world.cursor)
  stopped : ∀ turn, world.abortedAt = some turn → turn ≤ world.cursor
  once : (world.reported.map Prod.fst).Nodup
  logged : ∀ index result, (index, result) ∈ world.reported ↔
    world.stage index = .recorded result
  involved : ∀ index, (world.settled index).isSome ∨ world.timedOut index →
    index ∈ world.invoked
  silent : ∀ index settlement, world.timedOut index → world.settled index = some settlement →
    settlement.usage = none
  capped : ((world.stillRunning options).card : Rat) ≤ options.limit

variable {options : FanOutOptions} {world next : World} {index : Nat}

theorem one_le_limit : 1 ≤ options.limit := le_max_left _ _

theorem conclude_usage (agentId : String) (aborted : Bool) (settlement : Settlement) :
    (options.conclude agentId aborted settlement).usage = settlement.usage := by
  cases settlement with
  | rejected => rfl
  | resolved raw =>
    simp only [FanOutOptions.conclude, Settlement.usage]
    cases harvestAgentResult raw with
    | error => rfl
    | ok =>
      dsimp only
      split <;> rfl

theorem put_stage (world : World) (index other : Nat) (stage : Stage) :
    (world.put index stage).stage other =
      if other = index then stage else world.stage other :=
  Function.update_apply ..

variable {settlement : Settlement}

theorem World.Ended.frame (ended : world.Ended index settlement)
    (settled : world.timedOut index = false → next.settled index = world.settled index)
    (timedOut : next.timedOut index = world.timedOut index) :
    next.Ended index settlement := by
  rw [Ended] at ended ⊢
  rw [timedOut]
  cases late : world.timedOut index with
  | true => rwa [late] at ended
  | false => rwa [late, ← settled late] at ended

variable {stage : Stage}

theorem World.Told.frame (told : world.Told options index stage)
    (invoked : index ∈ next.invoked ↔ index ∈ world.invoked)
    (settled : world.timedOut index = false → next.settled index = world.settled index)
    (timedOut : next.timedOut index = world.timedOut index)
    (aborted : world.abortedAt.isSome → next.abortedAt.isSome) :
    next.Told options index stage := by
  cases stage with
  | waiting => trivial
  | racing =>
    obtain ⟨called, unsettled, inTime⟩ := told
    exact ⟨invoked.mpr called, (settled inTime).trans unsettled, timedOut.trans inTime⟩
  | raced => exact ⟨invoked.mpr told.1, told.2.frame settled timedOut⟩
  | decided result | recorded result =>
    refine told.imp (fun skipped => ⟨mt invoked.mp skipped.1, skipped.2⟩) fun came => ?_
    obtain ⟨called, settlement, flag, ended, known, same⟩ := came
    exact ⟨invoked.mpr called, settlement, flag, ended.frame settled timedOut,
      fun set => aborted (known set), same⟩

/-- Only a child that is out of time runs outside of a slot. -/
theorem Inv.slotted (inv : Inv options world) (alive : world.alive index = true)
    (inTime : world.timedOut index = false) : world.stage index = .racing := by
  have told := inv.told index
  obtain ⟨called, open_⟩ : index ∈ world.invoked ∧ world.settled index = none := by
    simpa [World.alive] using alive
  have unended : ∀ settlement, ¬ world.Ended index settlement := by
    intro settlement ended
    rw [World.Ended, inTime, open_] at ended
    simp at ended
  have unnamed : ∀ result, ¬ world.Describes options index result := by
    rintro result (skipped | ⟨_, settlement, _, ended, _⟩)
    · exact skipped.1 called
    · exact unended settlement ended
  cases stage : world.stage index with
  | racing => rfl
  | waiting =>
    have later := (inv.waits index).mp stage
    rw [inv.turns, List.mem_range] at called
    cases aborted : world.abortedAt with
    | none =>
      rw [aborted] at called
      exact absurd called (by simpa using later)
    | some turn =>
      have before := inv.stopped turn aborted
      rw [aborted] at called
      exact absurd (lt_of_lt_of_le called before) (by simpa using later)
  | raced settlement =>
    rw [stage] at told
    exact absurd told.2 (unended settlement)
  | decided result | recorded result =>
    rw [stage] at told
    exact absurd told (unnamed result)

theorem Inv.retold (inv : Inv options world) (index : Nat)
    (stage : ∀ other ≠ index, next.stage other = world.stage other)
    (invoked : ∀ other ≠ index, other ∈ next.invoked ↔ other ∈ world.invoked)
    (settled : ∀ other ≠ index, next.settled other = world.settled other)
    (timedOut : ∀ other ≠ index, next.timedOut other = world.timedOut other)
    (aborted : world.abortedAt.isSome → next.abortedAt.isSome)
    (here : next.Told options index (next.stage index)) (other : Nat) :
    next.Told options other (next.stage other) := by
  by_cases same : other = index
  · rwa [same]
  · rw [stage other same]
    exact (inv.told other).frame (invoked other same) (fun _ => settled other same)
      (timedOut other same) aborted

theorem stillRunning_le (fewer : ∀ index, next.alive index = true → world.alive index = true) :
    (next.stillRunning options).card ≤ (world.stillRunning options).card :=
  Finset.card_le_card (Finset.monotone_filter_right _ fun index _ => fewer index)

theorem Inv.still_capped (inv : Inv options world)
    (fewer : ∀ index, next.alive index = true → world.alive index = true) :
    ((next.stillRunning options).card : Rat) ≤ options.limit :=
  le_trans (Nat.cast_le.mpr (stillRunning_le fewer)) inv.capped

theorem Inv.still_waits (inv : Inv options world) (busy : world.stage index ≠ .waiting)
    (moved : stage ≠ .waiting) (other : Nat) :
    (world.put index stage).stage other = .waiting ↔ world.cursor ≤ other := by
  rw [put_stage, ← inv.waits other]
  by_cases same : other = index
  · rw [if_pos same, same]
    exact iff_of_false moved busy
  · rw [if_neg same]

theorem Inv.unlogged (inv : Inv options world)
    (unrecorded : ∀ result, world.stage index ≠ .recorded result)
    (kept : ∀ result, stage ≠ .recorded result) (other : Nat) (result : ChildResult) :
    (other, result) ∈ world.reported ↔
      (world.put index stage).stage other = .recorded result := by
  rw [inv.logged, put_stage]
  by_cases same : other = index
  · rw [if_pos same, same]
    exact iff_of_false (unrecorded result) (kept result)
  · rw [if_neg same]

theorem conclude_inv (inv : Inv options world)
    (stage : world.stage index = .raced settlement) :
    Inv options (world.put index (.decided
      (options.conclude (options.agentId index) world.abortedAt.isSome settlement))) := by
  have told := inv.told index
  rw [stage] at told
  refine { inv with
    waits := inv.still_waits (by simp [stage]) nofun
    told := inv.retold index ?_ (fun _ _ => Iff.rfl) (fun _ _ => rfl) (fun _ _ => rfl) id ?_
    logged := inv.unlogged (by simp [stage]) (by simp)
    capped := inv.still_capped fun _ => id }
  · intro other differ
    rw [put_stage, if_neg differ]
  · rw [put_stage, if_pos rfl]
    exact .inr ⟨told.1, settlement, _, told.2, id, rfl⟩

variable {result : ChildResult}

theorem record_inv (inv : Inv options world) (stage : world.stage index = .decided result) :
    Inv options { world.put index (.recorded result) with
      reported := world.reported ++ [(index, result)] } := by
  have told := inv.told index
  rw [stage] at told
  have fresh : ∀ found, (index, found) ∉ world.reported := by
    intro found logged
    rw [inv.logged, stage] at logged
    nomatch logged
  refine { inv with
    waits := inv.still_waits (by simp [stage]) nofun
    told := inv.retold index ?_ (fun _ _ => Iff.rfl) (fun _ _ => rfl) (fun _ _ => rfl) id ?_
    once := ?_
    logged := ?_
    capped := inv.still_capped fun _ => id }
  · intro other differ
    exact (put_stage ..).trans (if_neg differ)
  · rw [show World.stage _ index = .recorded result from (put_stage ..).trans (if_pos rfl)]
    exact told
  · rw [List.map_append, List.nodup_append]
    refine ⟨inv.once, List.nodup_singleton _, ?_⟩
    rintro _ past _ last rfl
    obtain ⟨⟨other, found⟩, logged, rfl⟩ := List.mem_map.mp past
    obtain rfl := List.mem_singleton.mp last
    exact fresh found logged
  · intro other found
    rw [List.mem_append, List.mem_singleton, inv.logged]
    change _ ↔ (world.put index (.recorded result)).stage other = .recorded found
    rw [put_stage]
    by_cases same : other = index
    · subst same
      simp [stage, eq_comm]
    · simp [same]

theorem timeout_inv (inv : Inv options world) (stage : world.stage index = .racing) :
    Inv options { world.put index (.raced outOfTime) with
      timedOut := Function.update world.timedOut index true } := by
  have told := inv.told index
  rw [stage] at told
  obtain ⟨called, unsettled, -⟩ := told
  refine { inv with
    waits := inv.still_waits (by simp [stage]) nofun
    told := inv.retold index ?_ (fun _ _ => Iff.rfl) (fun _ _ => rfl) ?_ id ?_
    logged := inv.unlogged (by simp [stage]) (by simp)
    involved := ?_
    silent := ?_
    capped := inv.still_capped fun _ => id }
  · intro other differ
    exact (put_stage ..).trans (if_neg differ)
  · intro other differ
    exact Function.update_of_ne differ ..
  · rw [show World.stage _ index = .raced outOfTime from (put_stage ..).trans (if_pos rfl)]
    refine ⟨called, ?_⟩
    rw [World.Ended, if_pos (Function.update_self ..)]
  · intro other either
    by_cases same : other = index
    · rwa [same]
    · refine inv.involved other (either.imp_right fun late => ?_)
      exact (Function.update_of_ne same ..).symm.trans late
  · intro other settlement late settled
    by_cases same : other = index
    · rw [same] at settled
      exact absurd (unsettled.symm.trans settled) nofun
    · exact inv.silent other settlement ((Function.update_of_ne same ..).symm.trans late) settled

theorem abort_inv (inv : Inv options world) (first : world.abortedAt = none) :
    Inv options { world with abortedAt := some world.cursor } := by
  refine { inv with
    told := fun other => (inv.told other).frame Iff.rfl (fun _ => rfl) rfl fun _ => rfl
    turns := ?_
    stopped := ?_
    capped := inv.still_capped fun _ => id }
  · rw [inv.turns, first]
    rfl
  · rintro _ ⟨⟩
    exact le_rfl

theorem settles_fewer (world : World) (index : Nat) (settlement : Settlement) (other : Nat)
    (alive : (world.settles index settlement).alive other = true) :
    world.alive other = true := by
  have same : (world.settles index settlement).invoked = world.invoked := by
    unfold World.settles
    cases world.stage index <;> rfl
  have settled : (world.settles index settlement).settled =
      Function.update world.settled index (some settlement) := by
    unfold World.settles
    cases world.stage index <;> rfl
  rw [World.alive, same, settled, Function.update_apply] at alive
  split at alive
  · simp at alive
  · exact alive

theorem settles_inv (inv : Inv options world) (alive : world.alive index = true)
    (tame : world.timedOut index → settlement.usage = none) :
    Inv options (world.settles index settlement) := by
  have called : index ∈ world.invoked := by
    simp only [World.alive, Bool.and_eq_true, decide_eq_true_eq] at alive
    exact alive.1
  have involved : ∀ other,
      (Function.update world.settled index (some settlement) other).isSome ∨
        world.timedOut other → other ∈ world.invoked := by
    intro other either
    by_cases same : other = index
    · rwa [same]
    · rw [Function.update_of_ne same] at either
      exact inv.involved other either
  have silent : ∀ other found, world.timedOut other →
      Function.update world.settled index (some settlement) other = some found →
        found.usage = none := by
    intro other found late settled
    by_cases same : other = index
    · subst same
      rw [Function.update_self, Option.some.injEq] at settled
      exact settled ▸ tame late
    · rw [Function.update_of_ne same] at settled
      exact inv.silent other found late settled
  have capped := inv.still_capped (settles_fewer world index settlement)
  cases inTime : world.timedOut index with
  | false =>
    have stage := inv.slotted alive inTime
    simp only [World.settles, stage] at capped ⊢
    refine { inv with
      waits := inv.still_waits (by simp [stage]) nofun
      told := inv.retold index ?_ (fun _ _ => Iff.rfl) ?_ (fun _ _ => rfl) id ?_
      logged := inv.unlogged (by simp [stage]) (by simp)
      involved := involved
      silent := silent
      capped := capped }
    · intro other differ
      exact (put_stage ..).trans (if_neg differ)
    · intro other differ
      exact Function.update_of_ne differ ..
    · rw [put_stage, if_pos rfl]
      refine ⟨called, ?_⟩
      rw [World.Ended]
      change (if world.timedOut index then _ else _)
      rw [inTime]
      exact Function.update_self ..
  | true =>
    have told : ∀ other,
        World.Told options { world with
          settled := Function.update world.settled index (some settlement) }
          other (world.stage other) := by
      intro other
      refine (inv.told other).frame Iff.rfl (fun other_inTime => ?_) rfl id
      refine Function.update_of_ne ?_ ..
      rintro rfl
      rw [inTime] at other_inTime
      nomatch other_inTime
    have outside : world.settles index settlement = { world with
        settled := Function.update world.settled index (some settlement) } := by
      have told := inv.told index
      unfold World.settles
      cases stage : world.stage index with
      | racing =>
        rw [stage] at told
        exact absurd (told.2.2.symm.trans inTime) nofun
      | waiting | raced _ | decided _ | recorded _ => rfl
    rw [outside] at capped ⊢
    exact { inv with told, involved, silent, capped }

theorem Inv.advanced (inv : Inv options world) (moved : stage ≠ .waiting) (other : Nat) :
    (world.put world.cursor stage).stage other = .waiting ↔ world.cursor + 1 ≤ other := by
  rw [put_stage]
  by_cases same : other = world.cursor
  · rw [if_pos same, same]
    exact iff_of_false moved (Nat.not_succ_le_self _)
  · rw [if_neg same, inv.waits]
    omega

theorem cancel_inv (inv : Inv options world) (room : world.cursor < options.children.length)
    {turn : Nat} (aborted : world.abortedAt = some turn) : Inv options
      { world.put world.cursor (.decided (cancelled (options.agentId world.cursor))) with
        cursor := world.cursor + 1 } := by
  have untaken := (inv.waits world.cursor).mpr le_rfl
  have before := inv.stopped turn aborted
  refine { inv with
    within := room
    waits := inv.advanced nofun
    told := inv.retold world.cursor ?_ (fun _ _ => Iff.rfl) (fun _ _ => rfl)
      (fun _ _ => rfl) id ?_
    turns := ?_
    stopped := fun _ found => le_trans (inv.stopped _ found) (Nat.le_succ _)
    logged := inv.unlogged (by simp [untaken]) (by simp)
    capped := inv.still_capped fun _ => id }
  · intro other differ
    exact (put_stage ..).trans (if_neg differ)
  · rw [show World.stage _ world.cursor =
      .decided (cancelled (options.agentId world.cursor)) from
        (put_stage ..).trans (if_pos rfl)]
    refine .inl ⟨?_, rfl⟩
    change world.cursor ∉ world.invoked
    rw [inv.turns, aborted, List.mem_range]
    exact not_lt.mpr before
  · change world.invoked = List.range (world.abortedAt.getD (world.cursor + 1))
    rw [inv.turns, aborted]
    rfl

theorem Inv.slot_of_alive (inv : Inv options world)
    (tame : ∀ index, world.timedOut index → (world.settled index).isSome)
    (alive : world.alive index = true) : (world.stage index).running = true := by
  have unsettled : (world.settled index).isSome = false := by
    rw [World.alive, Bool.and_eq_true] at alive
    rw [Option.isSome_eq_false_iff]
    exact alive.2
  have inTime : world.timedOut index = false := by
    by_contra late
    exact absurd (tame index (Bool.of_not_eq_false late)) (by simp [unsettled])
  rw [inv.slotted alive inTime]
  rfl

theorem invoke_inv (inv : Inv options world) (room : world.cursor < options.children.length)
    (whole : ∃ slots : Nat, options.limit = slots)
    (free : ((world.running options).card : Rat) < options.limit)
    (live : world.abortedAt = none)
    (tame : ∀ index, world.timedOut index → (world.settled index).isSome) :
    Inv options { world.put world.cursor .racing with
      cursor := world.cursor + 1
      invoked := world.invoked ++ [world.cursor] } := by
  have untaken := (inv.waits world.cursor).mpr le_rfl
  have turns := inv.turns
  rw [live] at turns
  have uncalled : world.cursor ∉ world.invoked := by
    rw [turns, List.mem_range]
    exact lt_irrefl _
  have quiet := mt (inv.involved world.cursor) uncalled
  rw [not_or, Option.not_isSome_iff_eq_none, Bool.not_eq_true] at quiet
  have others : ∀ other ≠ world.cursor,
      other ∈ world.invoked ++ [world.cursor] ↔ other ∈ world.invoked := by
    intro other differ
    simp [differ]
  refine { inv with
    within := room
    waits := inv.advanced nofun
    told := inv.retold world.cursor ?_ others (fun _ _ => rfl) (fun _ _ => rfl) id ?_
    turns := ?_
    stopped := fun _ found => le_trans (inv.stopped _ found) (Nat.le_succ _)
    logged := inv.unlogged (by simp [untaken]) (by simp)
    involved := fun index either => List.mem_append_left _ (inv.involved index either)
    capped := ?_ }
  · intro other differ
    exact (put_stage ..).trans (if_neg differ)
  · rw [show World.stage _ world.cursor = .racing from (put_stage ..).trans (if_pos rfl)]
    exact ⟨List.mem_append_right _ (List.mem_singleton_self _), quiet.1, quiet.2⟩
  · change world.invoked ++ _ = List.range (world.abortedAt.getD (world.cursor + 1))
    rw [turns, live]
    exact List.range_succ.symm
  · obtain ⟨slots, whole⟩ := whole
    rw [whole] at free ⊢
    refine Nat.cast_le.mpr (le_trans (Finset.card_le_card (t := insert world.cursor
      (world.running options)) fun index member => ?_)
        (le_trans (Finset.card_insert_le _ _) (Nat.cast_lt.mp free)))
    obtain ⟨inside, alive⟩ := Finset.mem_filter.mp member
    by_cases same : index = world.cursor
    · exact same ▸ Finset.mem_insert_self _ _
    · have before : world.alive index = true := by
        simpa [World.alive, World.put, same] using alive
      exact Finset.mem_insert_of_mem
        (Finset.mem_filter.mpr ⟨inside, inv.slot_of_alive tame before⟩)

variable {action : Action}

theorem step_inv (inv : Inv options world) (whole : ∃ slots : Nat, options.limit = slots)
    (tame : Tame world action) (stepped : step options world action = some next) :
    Inv options next := by
  cases action with
  | launch =>
    rw [step] at stepped
    split at stepped
    next open_ =>
      obtain rfl := Option.some.inj stepped
      unfold World.launched
      cases aborted : world.abortedAt with
      | some => exact cancel_inv inv open_.1 aborted
      | none =>
        refine invoke_inv inv open_.1 whole open_.2 aborted (tame.resolve_left ?_)
        rw [aborted]
        nofun
    next => nomatch stepped
  | childSettles =>
    rw [step] at stepped
    split at stepped
    next alive => exact Option.some.inj stepped ▸ settles_inv inv alive tame
    next => nomatch stepped
  | timeout =>
    rw [step] at stepped
    split at stepped
    next racing => exact Option.some.inj stepped ▸ timeout_inv inv racing
    next => nomatch stepped
  | conclude =>
    rw [step] at stepped
    split at stepped
    next raced => exact Option.some.inj stepped ▸ conclude_inv inv raced
    next => nomatch stepped
  | record =>
    rw [step] at stepped
    split at stepped
    next decided => exact Option.some.inj stepped ▸ record_inv inv decided
    next => nomatch stepped
  | abort =>
    rw [step] at stepped
    split at stepped
    next first =>
      exact Option.some.inj stepped ▸ abort_inv inv (Option.isNone_iff_eq_none.mp first)
    next => nomatch stepped

theorem Inv.started (inv : Inv options world) (busy : world.stage index ≠ .waiting) :
    index < options.children.length :=
  lt_of_lt_of_le (not_le.mp (mt (inv.waits index).mpr busy)) inv.within

theorem put_work (inside : index < options.children.length)
    (less : stage.weight < (world.stage index).weight) :
    (world.put index stage).work options < world.work options := by
  refine Finset.sum_lt_sum (fun other _ => ?_)
    ⟨index, Finset.mem_range.mpr inside, by rwa [put_stage, if_pos rfl]⟩
  rw [put_stage]
  by_cases same : other = index
  · rw [if_pos same, same]
    exact less.le
  · rw [if_neg same]

theorem step_work (inv : Inv options world)
    (stepped : step options world action = some next) :
    next.work options ≤ world.work options ∧
      (action.ours = true → next.work options < world.work options) := by
  have strictly : next.work options < world.work options → _ := fun less =>
    (⟨less.le, fun _ => less⟩ : next.work options ≤ world.work options ∧
      (action.ours = true → next.work options < world.work options))
  cases action with
  | launch =>
    rw [step] at stepped
    split at stepped
    next open_ =>
      have untaken := (inv.waits world.cursor).mpr le_rfl
      obtain rfl := Option.some.inj stepped
      refine strictly ?_
      unfold World.launched
      split <;> exact put_work open_.1 (by simp [untaken, Stage.weight])
    next => nomatch stepped
  | childSettles index =>
    rw [step] at stepped
    split at stepped
    next alive =>
      obtain rfl := Option.some.inj stepped
      refine ⟨?_, nofun⟩
      unfold World.settles
      cases stage : world.stage index with
      | racing => exact (put_work (inv.started (by simp [stage]))
        (by simp [stage, Stage.weight])).le
      | waiting | raced _ | decided _ | recorded _ => exact le_rfl
    next => nomatch stepped
  | timeout =>
    rw [step] at stepped
    split at stepped
    next racing =>
      obtain rfl := Option.some.inj stepped
      exact strictly (put_work (inv.started (by simp [racing])) (by simp [racing, Stage.weight]))
    next => nomatch stepped
  | conclude =>
    rw [step] at stepped
    split at stepped
    next raced =>
      obtain rfl := Option.some.inj stepped
      exact strictly (put_work (inv.started (by simp [raced])) (by simp [raced, Stage.weight]))
    next => nomatch stepped
  | record =>
    rw [step] at stepped
    split at stepped
    next decided =>
      obtain rfl := Option.some.inj stepped
      exact strictly (put_work (inv.started (by simp [decided])) (by simp [decided, Stage.weight]))
    next => nomatch stepped
  | abort =>
    rw [step] at stepped
    split at stepped
    next first => exact Option.some.inj stepped ▸ ⟨le_rfl, nofun⟩
    next => nomatch stepped

theorem Inv.progress (inv : Inv options world)
    (ended : ∀ index ∈ world.invoked, (world.settled index).isSome ∨ world.timedOut index) :
    world.finished options ∨
      ∃ action, action.ours = true ∧ (step options world action).isSome := by
  by_cases idle : (world.running options).card = 0
  · by_cases last : world.cursor = options.children.length
    · exact .inl ⟨last, idle⟩
    · refine .inr ⟨.launch, rfl, ?_⟩
      have free : ((world.running options).card : Rat) < options.limit := by
        rw [idle]
        exact lt_of_lt_of_le zero_lt_one one_le_limit
      rw [step, if_pos ⟨lt_of_le_of_ne inv.within last, free⟩]
      rfl
  · obtain ⟨index, member⟩ := Finset.card_ne_zero.mp idle
    have held := (Finset.mem_filter.mp member).2
    have told := inv.told index
    cases stage : world.stage index with
    | waiting | recorded _ =>
      rw [stage] at held
      nomatch held
    | racing =>
      rw [stage] at told
      have either := ended index told.1
      rw [told.2.1, told.2.2] at either
      simp at either
    | raced =>
      refine .inr ⟨.conclude index, rfl, ?_⟩
      rw [step, stage]
      rfl
    | decided =>
      refine .inr ⟨.record index, rfl, ?_⟩
      rw [step, stage]
      rfl

theorem Inv.recorded (inv : Inv options world) (done : world.finished options)
    (inside : index < options.children.length) :
    ∃ result, world.stage index = .recorded result := by
  obtain ⟨last, idle⟩ := done
  have held : (world.stage index).running = false := by
    by_contra busy
    have member : index ∈ world.running options :=
      Finset.mem_filter.mpr ⟨Finset.mem_range.mpr inside, Bool.of_not_eq_false busy⟩
    rw [Finset.card_eq_zero.mp idle] at member
    exact absurd member (Finset.notMem_empty _)
  cases stage : world.stage index with
  | recorded result => exact ⟨result, rfl⟩
  | waiting => exact absurd ((inv.waits index).mp stage) (not_le.mpr (last ▸ inside))
  | racing | raced _ | decided _ =>
    rw [stage] at held
    nomatch held

theorem Inv.usage_kept (inv : Inv options world)
    (stage : world.stage index = .recorded result) :
    result.usage = (world.settled index).bind Settlement.usage := by
  have told := inv.told index
  rw [stage] at told
  rcases told with ⟨uncalled, rfl⟩ | ⟨_, settlement, aborted, ended, _, rfl⟩
  · have quiet := mt (inv.involved index) uncalled
    rw [not_or, Option.not_isSome_iff_eq_none] at quiet
    rw [quiet.1]
    rfl
  · rw [conclude_usage]
    rw [World.Ended] at ended
    split at ended
    next late =>
      rw [ended]
      cases settled : world.settled index with
      | none => rfl
      | some later => exact (inv.silent index later late settled).symm
    next =>
      rw [ended]
      rfl

theorem Inv.usage_eq (inv : Inv options world) (done : world.finished options) :
    world.usage options = world.reportedUsage options := by
  have added : world.usage options =
      ((world.results options).filterMap ChildResult.usage).foldl addUsage zeroUsage := by
    rw [List.foldl_filterMap, World.usage]
    congr 1
    funext target result
    cases result.usage <;> rfl
  rw [added, World.results, List.filterMap_filterMap, World.reportedUsage]
  congr 1
  refine List.filterMap_congr fun index member => ?_
  obtain ⟨result, stage⟩ := inv.recorded done (List.mem_range.mp member)
  rw [← inv.usage_kept stage, stage]
  rfl

theorem Inv.complete (inv : Inv options world) (done : world.finished options) :
    (world.results options).length = options.children.length ∧
      (world.reported.map Prod.fst).Perm (List.range options.children.length) ∧
      world.usage options = world.reportedUsage options := by
  refine ⟨?_, ?_, inv.usage_eq done⟩
  · refine (List.filterMap_length_eq_length.mpr ?_).trans List.length_range
    intro index member
    obtain ⟨result, stage⟩ := inv.recorded done (List.mem_range.mp member)
    rw [stage]
    rfl
  · refine (List.perm_ext_iff_of_nodup inv.once List.nodup_range).mpr fun index => ?_
    rw [List.mem_range, List.mem_map]
    constructor
    · rintro ⟨⟨_, result⟩, logged, rfl⟩
      exact inv.started (by simp [(inv.logged _ _).mp logged])
    · intro inside
      obtain ⟨result, stage⟩ := inv.recorded done inside
      exact ⟨(index, result), (inv.logged _ _).mpr stage, rfl⟩

theorem Inv.honest (inv : Inv options world) : Honest options world where
  invokedOnce := inv.turns ▸ List.nodup_range
  everyTurn index launched := by
    rw [inv.turns, List.mem_range]
    cases aborted : world.abortedAt with
    | none => exact .inl launched
    | some turn =>
      rw [Option.getD_some]
      exact (lt_or_ge index turn).imp_right fun before => ⟨turn, before, rfl⟩
  describes index result stage := by
    have told := inv.told index
    rwa [stage] at told
  capped := inv.capped
  reportedOnce := inv.once
  reportedWhat := inv.logged
  settles := inv.progress
  drains _ _ := step_work inv
  complete := inv.complete

theorem start_inv (options : FanOutOptions) : Inv options {} where
  within := Nat.zero_le _
  waits _ := iff_of_true rfl (Nat.zero_le _)
  told _ := trivial
  turns := rfl
  stopped := nofun
  once := List.nodup_nil
  logged _ _ := iff_of_false List.not_mem_nil nofun
  involved _ := by rintro (settled | late) <;> contradiction
  silent := nofun
  capped := by
    have none : World.stillRunning options {} = ∅ := Finset.filter_false _
    rw [none]
    exact le_trans zero_le_one one_le_limit

def play (options : FanOutOptions) : World → List Action → Option World
  | world, [] => some world
  | world, action :: rest =>
    (step options world action).bind fun next => play options next rest

def AllTame (options : FanOutOptions) : World → List Action → Prop
  | _, [] => True
  | world, action :: rest =>
    Tame world action ∧
      ∀ next, step options world action = some next → AllTame options next rest

theorem play_inv {actions : List Action} (inv : Inv options world)
    (whole : ∃ slots : Nat, options.limit = slots) (tame : AllTame options world actions)
    (played : play options world actions = some next) : Inv options next := by
  induction actions generalizing world with
  | nil =>
    cases played
    exact inv
  | cons action rest ih =>
    obtain ⟨between, taken, later⟩ := Option.bind_eq_some_iff.mp played
    exact ih (step_inv inv whole tame.1 taken) (tame.2 between taken) later

theorem tame_fanout_honest {options : FanOutOptions} {actions : List Action} {world : World}
    (whole : ∃ slots : Nat, options.limit = slots) (tame : AllTame options {} actions)
    (played : play options {} actions = some world) : Honest options world :=
  (play_inv (start_inv options) whole tame played).honest

/-- Two children, and a time budget. -/
def withCap (cap : Rat) : FanOutOptions where
  children := [⟨"first"⟩, ⟨"second"⟩]
  maxConcurrentChildren := some cap
  perBudget := { durationMs := some 5 }
  numberText _ := ""

/-- The first child is out of time. -/
def overrun : List Action := [.launch, .timeout 0, .conclude 0, .record 0]

theorem overrun_honest : ∃ world, play (withCap 1) {} overrun = some world ∧
    Honest (withCap 1) world := by
  have tame : AllTame (withCap 1) {} overrun :=
    ⟨.inr nofun, fun _ _ => ⟨trivial, fun _ _ => ⟨trivial, fun _ _ => ⟨trivial, fun _ _ =>
      trivial⟩⟩⟩⟩
  obtain ⟨world, played⟩ : ∃ world, play (withCap 1) {} overrun = some world :=
    Option.isSome_iff_exists.mp (by decide +kernel)
  exact ⟨world, played, tame_fanout_honest ⟨1, by decide +kernel⟩ tame played⟩

/-- The second child is launched, and both report three tokens. -/
def late : List Action :=
  let usage : JsValue :=
    .obj [("promptTokens", .num 1), ("completionTokens", .num 2), ("totalTokens", .num 3)]
  let state : JsValue := .obj [("id", .str "r"), ("status", .str "completed")]
  let answer : Settlement :=
    .resolved (.obj [("output", .str "done"), ("usage", usage), ("state", state)])
  overrun ++ [.launch, .childSettles 0 answer, .childSettles 1 answer, .conclude 1, .record 1]

/-- Two children run in one slot, the tokens of the first one are lost, and a cap of three
halves lets two run. -/
theorem overrun_leaks :
    ((play (withCap 1) {} (overrun ++ [.launch])).map fun world =>
      (world.stillRunning (withCap 1)).card) = some 2 ∧
    ((play (withCap 1) {} late).map fun world =>
      ((world.usage (withCap 1)).totalTokens, (world.reportedUsage (withCap 1)).totalTokens)) =
        some (3, 6) ∧
    ((play (withCap (3 / 2)) {} [.launch, .launch]).map fun world =>
      (world.stillRunning (withCap (3 / 2))).card) = some 2 ∧
    (withCap 1).limit = 1 ∧ (withCap (3 / 2)).limit = 3 / 2 := by
  decide +kernel

end Graphorin.Agent.FanOut
