import Mathlib.Algebra.Order.Ring.Unbundled.Rat
import Graphorin.Audit.Checkpoint
import Graphorin.Stores.Keys
import Graphorin.Workflow.Fork
import Graphorin.Workflow.Restored

namespace Graphorin.Workflow

open Graphorin.Lib
open Graphorin.Js
open Graphorin.Audit (JsText utf16)
open Graphorin.Stores (indexKey splitKey sliceTo Separable)

/-! The timers of suspended checkpoints: the stamp `metadata.wakeAt`, and the
poll that reads it without reading the frontier. -/

section Written

variable {claim : Checkpoint → CheckpointMetadata → Prop} {args : DriveRunArgs}
variable (written : ∀ (request : PersistRequest) (now : Nat),
  claim (request.checkpoint args now) (request.metadata args))
variable {order : RowOrder} {store : CheckpointStore} {past : List Obs}

include written

theorem every_performExit {now : Nat} {exit : Exit} (every : store.Every claim) :
    (performExit args now exit).ensures (storeHandler order)
      (fun store _ => store.Every claim) (fun _ store _ => store.Every claim)
      store past := by
  apply ensures_performExit every
  · exact fun _ _ => every
  · exact fun _ => every
  · exact fun _ before _ _ => (every.insert (written _ now)).putAll _ _ _
  · exact fun _ => every.storedIn (written _ now)

theorem every_driveRound {internal : RunInternalState} (every : store.Every claim) :
    (driveRound args internal).ensures (storeHandler order)
      (fun store _ => store.Every claim)
      (roundPost (fun _ store _ => store.Every claim)
        fun _ store _ => store.Every claim) store past := by
  have ended : ∀ (result : Except Fault Next) (store : CheckpointStore)
      (past : List Obs), store.Every claim →
      roundPost (fun _ store _ => store.Every claim)
        (fun _ store _ => store.Every claim) result store past := by
    intro result store past every
    match result with
    | .error fault => exact every
    | .ok (.raise fault) => exact every
    | .ok .close => exact every
    | .ok (.loop next) => exact every
  apply ensures_driveRound
  · exact fun before _ _ => every.acts _ before
  · exact fun _ _ => every.acts _ _
  · intro exit finished
    refine Program.ensures_mono ?_ (every_performExit written (every.acts _ _))
    intro result store past every
    cases result with
    | error => exact every
    | ok next =>
      cases next with
      | raise => exact every
      | close => exact every
      | loop =>
        show Program.ensures _ _ _ (ite _ _ _) _ _
        split
        · exact Program.ensures_mono ended (every_performExit written every)
        · exact every

theorem every_driveReporting (every : store.Every claim)
    (first : internal.stepsThisInvocation = 0) :
    (driveReporting args internal).ensures (storeHandler order)
      (fun store _ => store.Every claim) (fun _ store _ => store.Every claim)
      store past := by
  apply ensures_driveReporting
  apply @ensures_driveRun order _ args (fun _ store _ => store.Every claim) _ _ _ _ _
    every first
  intro internal store past every
  refine Program.ensures_mono ?_ (every_driveRound written every)
  intro result store past reached
  match result with
  | .error fault => exact reached
  | .ok (.raise fault) => exact reached
  | .ok .close => exact reached
  | .ok (.loop next) => exact reached

end Written

variable {threadId : String} {store : CheckpointStore}

variable {order : RowOrder}

theorem Call.play_every {config : WorkflowConfig} {run : Nat} {call : Call}
    (written : ∀ args : DriveRunArgs, args.threadId = threadId → ∀ (request : PersistRequest)
      (now : Nat), claim (request.checkpoint args now) (request.metadata args))
    (every : store.Every claim) :
    (call.play config threadId order run store).2.Every claim := by
  apply @Call.play_of_ensures config threadId order run call store
    fun store _ => store.Every claim
  have own := written (driveArgs config threadId (call.optionsAt run)) rfl
  refine ensures_invocation every (fun _ => every) ?_ ?_
  · exact fun input _ => every_driveReporting own every rfl
  · intro restore tuple internal _ _ restored
    exact every_driveReporting own every (restoreRun_at restored).steps

def wakeTimes (metadata : CheckpointMetadata) : List Rat :=
  (readFrontier metadata).pauses.filterMap PendingPauseRecord.wakeAt

/-- `wakeAt` of a suspended checkpoint is the least timer of its frontier, and
absent where there is none. -/
def Stamped (metadata : CheckpointMetadata) : Prop :=
  metadata.status = .suspended → metadata.wakeAt = (wakeTimes metadata).min?

theorem earliestWakeAt_eq (pauses : List PendingPauseRecord) :
    earliestWakeAt pauses = (pauses.filterMap PendingPauseRecord.wakeAt).min? := by
  have from_some : ∀ (rest : List PendingPauseRecord) {record : PendingPauseRecord}
      {least : Rat}, record.wakeAt = some least → earliestWakeAt (record :: rest) =
        some ((rest.filterMap PendingPauseRecord.wakeAt).foldl min least) := by
    intro rest
    induction rest with
    | nil =>
      intro record least timer
      rw [earliestWakeAt, List.foldl_cons, timer]
      rfl
    | cons later _ ih =>
      intro record least timer
      cases timer' : later.wakeAt with
      | none =>
        rw [List.filterMap_cons_none timer', ← ih timer]
        simp only [earliestWakeAt, List.foldl_cons, timer, timer']
      | some wakeAt =>
        rw [List.filterMap_cons_some timer', List.foldl_cons]
        by_cases earlier : wakeAt < least
        · rw [min_eq_right earlier.le, ← ih timer']
          simp only [earliestWakeAt, List.foldl_cons, timer, timer', earlier, if_true]
        · rw [min_eq_left (not_lt.mp earlier), ← ih timer]
          simp only [earliestWakeAt, List.foldl_cons, timer, timer', earlier, if_false]
  induction pauses with
  | nil => rfl
  | cons record rest ih =>
    cases timer : record.wakeAt with
    | none =>
      rw [List.filterMap_cons_none timer, ← ih, earliestWakeAt, List.foldl_cons, timer]
      rfl
    | some wakeAt =>
      rw [List.filterMap_cons_some timer, List.min?_cons']
      exact from_some rest timer

theorem wakeTimes_encode (frontier : FrontierEnvelope) :
    (encodeFrontier frontier).pauses.filterMap PendingPauseRecord.wakeAt =
      frontier.pauses.filterMap PendingPauseRecord.wakeAt := by
  rw [encodeFrontier, List.filterMap_map]
  rfl

theorem stamped_metadata (args : DriveRunArgs) (request : PersistRequest) :
    Stamped (request.metadata args) := by
  intro suspended
  have status : request.status = .suspended := suspended
  unfold wakeTimes readFrontier PersistRequest.metadata
  simp only [status, if_true]
  cases request.frontier with
  | none => rfl
  | some =>
    rw [Option.bind_some, earliestWakeAt_eq, ← wakeTimes_encode]
    rfl

def CheckpointTuple.indexKey (tuple : CheckpointTuple) : JsText :=
  Stores.indexKey (utf16 tuple.checkpoint.threadId)
    (utf16 tuple.checkpoint.namespaceName)

/-- What `listSuspended` pushes for one key. -/
def CheckpointStore.suspendedEntry (store : CheckpointStore)
    (namespaceName : JsText) (dueBefore : Option Rat) (key : JsText) :
    Option (JsText × Rat) :=
  if (splitKey key).2 ≠ namespaceName then none
  else
    match newest (store.filter fun tuple => tuple.indexKey = key) with
    | none => none
    | some latest =>
      if latest.metadata.status ≠ .suspended then none
      else
        match latest.metadata.wakeAt with
        | none => none
        | some wakeAt =>
          if dueBefore.any (fun due => due < wakeAt) then none
          else some ((splitKey key).1, wakeAt)

def CheckpointStore.listSuspended (store : CheckpointStore)
    (namespaceName : String) (dueBefore : Option Rat) (limit : Option Int) :
    List (JsText × Rat) :=
  let keys := (store.map CheckpointTuple.indexKey).eraseDups
  let out := keys.filterMap (store.suspendedEntry (utf16 namespaceName) dueBefore)
  let sorted := out.insertionSort fun first second => first.2 ≤ second.2
  match limit with
  | some limit => sliceTo sorted limit
  | none => sorted

/-- `tick` goes on to resume the thread. -/
def TickFires (config : WorkflowConfig) (threadId : String) (now : Rat)
    (store : CheckpointStore) : Prop :=
  ∃ tuple due, store.latest threadId (namespaceFor config) = some tuple ∧
    earliestDue now (readFrontier tuple.metadata).pauses = some due ∧
    tuple.metadata.status = .suspended

/-- Stamps are exact, and a poll finds every thread that has a due timer. -/
structure TimersExact (store : CheckpointStore) : Prop where
  stamped : ∀ threadId namespaceName tuple,
    store.latest threadId namespaceName = some tuple → Stamped tuple.metadata
  listed : ∀ config threadId now, TickFires config threadId now store →
    ∃ wakeAt, (utf16 threadId, wakeAt) ∈
      store.listSuspended (namespaceFor config) (some now) none

/-- A call names a thread whose id can be cut off its key, and a fork starts
from no suspended checkpoint with a timer. -/
def KeepsTimers (world : World) (move : Move) : Prop :=
  match move.operation with
  | .call _ => Separable (utf16 move.threadId)
  | .fork fork _ => ∀ tuple,
      world.store.find move.threadId (namespaceFor move.config)
        fork.fromCheckpointId = some tuple →
      tuple.metadata.status = .suspended → wakeTimes tuple.metadata = []

theorem separable_of_not_mem (absent : Stores.colon ∉ text) : Separable text := by
  induction text with
  | nil => trivial
  | cons unit rest ih =>
    obtain ⟨other, later⟩ := not_or.mp fun listed => absent (List.mem_cons.mpr listed)
    cases rest with
    | nil => exact Ne.symm other
    | cons => exact ⟨fun both => other both.1.symm, ih later⟩

/-- A generated thread id is made of letters, digits and a dash. -/
theorem separable_newThreadId (uuid : List (Fin 16)) :
    Separable (utf16 (newThreadId uuid)) := by
  apply separable_of_not_mem
  rw [Audit.utf16_eq, newThreadId]
  have digits : ∀ digit : Fin 16,
      Stores.colon ∉ Audit.charUnits (Nat.digitChar digit.val) := by decide
  have letters : Stores.colon ∉ "thread-".toList.flatMap Audit.charUnits := by decide
  intro listed
  rw [String.toList_append, List.flatMap_append, List.mem_append] at listed
  rcases listed with early | late
  · exact letters early
  · rw [String.toList_ofList, List.flatMap_map] at late
    obtain ⟨digit, -, unit⟩ := List.mem_flatMap.mp late
    exact digits digit unit

def Polled (checkpoint : Checkpoint) (metadata : CheckpointMetadata) : Prop :=
  Stamped metadata ∧ Separable (utf16 checkpoint.threadId)

theorem polled_step (every : world.store.Every Polled) (admitted : KeepsTimers world move) :
    (world.step order move).store.Every Polled := by
  obtain ⟨config, threadId, operation⟩ := move
  cases operation with
  | call =>
    refine Call.play_every (fun args own request now => ⟨stamped_metadata args request,
      ?_⟩) every
    show Separable (utf16 args.threadId)
    rw [own]
    exact admitted
  | fork fork crash =>
    apply @Fork.play_of config threadId order _ fork crash world.store
      fun store => store.Every Polled
    · exact every
    · intro tuple state found patched
      refine every.insert ⟨fun suspended => ?_, separable_newThreadId fork.uuid⟩
      show none = (wakeTimes tuple.metadata).min?
      rw [admitted tuple found suspended]
      rfl
    · exact fun tuple found current taskId writes _ every => every.addWrites _ _ _ _ _

theorem earliestDue_some (found : earliestDue now pauses = some due) :
    due.1 ∈ pauses.filterMap PendingPauseRecord.wakeAt ∧ due.1 ≤ now := by
  induction pauses generalizing due with
  | nil => cases found
  | cons record rest ih =>
    unfold earliestDue at found
    cases timer : record.wakeAt with
    | none =>
      rw [timer] at found
      rw [List.filterMap_cons_none timer]
      exact ih found
    | some wakeAt =>
      simp only [timer] at found
      rw [List.filterMap_cons_some timer]
      have later : ∀ {due}, earliestDue now rest = some due →
          due.1 ∈ wakeAt :: rest.filterMap PendingPauseRecord.wakeAt ∧
            due.1 ≤ now :=
        fun found => ⟨List.mem_cons_of_mem _ (ih found).1, (ih found).2⟩
      split at found
      · rename_i passed
        split at found
        · rename_i least other others
          split at found
          · cases found
            exact later others
          · cases found
            exact ⟨List.mem_cons_self, passed⟩
        · cases found
          exact ⟨List.mem_cons_self, passed⟩
      · exact later found

/-- The key of a thread finds the rows of that thread. -/
theorem filter_indexKey (every : store.Every Polled) {namespaceName : String}
    (separable : Separable (utf16 threadId)) :
    (store.filter fun tuple => tuple.indexKey =
      indexKey (utf16 threadId) (utf16 namespaceName)) =
      store.ofThread threadId namespaceName := by
  refine List.filter_congr fun tuple member => ?_
  rw [Bool.eq_iff_iff]
  simp only [decide_eq_true_eq, Bool.and_eq_true, beq_iff_eq]
  constructor
  · intro same
    obtain ⟨threads, names⟩ := Stores.indexKey_cancel (every tuple member).2 separable
      same
    exact ⟨Audit.utf16_injective threads, Audit.utf16_injective names⟩
  · rintro ⟨rfl, rfl⟩
    rfl

theorem listed_of_fires (every : store.Every Polled)
    (fires : TickFires config threadId now store) :
    ∃ wakeAt, (utf16 threadId, wakeAt) ∈
      store.listSuspended (namespaceFor config) (some now) none := by
  obtain ⟨tuple, due, latest, found, suspended⟩ := fires
  obtain ⟨member, rfl, named⟩ := CheckpointStore.latest_mem latest
  obtain ⟨stamped, separable⟩ := every tuple member
  obtain ⟨timer, passed⟩ := earliestDue_some found
  change due.1 ∈ wakeTimes tuple.metadata at timer
  cases least : (wakeTimes tuple.metadata).min? with
  | none =>
    rw [List.min?_eq_none_iff.mp least] at timer
    cases timer
  | some wakeAt =>
    have early : wakeAt ≤ now :=
      ((List.min?_eq_some_iff.mp least).2 _ timer).trans passed
    have stamp : tuple.metadata.wakeAt = some wakeAt := (stamped suspended).trans least
    refine ⟨wakeAt, ?_⟩
    unfold CheckpointStore.listSuspended
    simp only [List.mem_insertionSort, List.mem_filterMap, List.mem_eraseDups]
    refine ⟨indexKey (utf16 tuple.checkpoint.threadId) (utf16 (namespaceFor config)),
      List.mem_map.mpr ⟨tuple, member, by rw [CheckpointTuple.indexKey, named]⟩, ?_⟩
    unfold CheckpointStore.suspendedEntry
    rw [Stores.splitKey_indexKey separable, filter_indexKey every separable]
    have read : CheckpointStore.newest (store.ofThread tuple.checkpoint.threadId
        (namespaceFor config)) = some tuple := latest
    simp [read, suspended, stamp, early]

/-- In every history whose moves keep to the condition. -/
theorem timers_exact {order : RowOrder} {world : World}
    (reached : Evolves order KeepsTimers world) : TimersExact world.store := by
  have every : world.store.Every Polled := by
    induction reached with
    | unused => simp [CheckpointStore.Every, World.unused]
    | move evolves move admitted ih => exact polled_step ih admitted
  exact ⟨fun threadId namespaceName tuple latest =>
      (every tuple (CheckpointStore.latest_mem latest).1).1,
    fun config threadId now fires => listed_of_fires every fires⟩

def sleepUntil (wakeAt : Rat) (resumed : JsValue → NodeRun) : NodeRun :=
  .pause (.obj [("kind", .str timerPauseKind), ("wakeAt", .num wakeAt)]) resumed

def sleeperConfig : WorkflowConfig where
  name := "sleeper"
  nodes := [("nap", { run := fun _ _ => sleepUntil 5 fun _ => .ret .nothing })]
  edges := [⟨startNode, "nap", none⟩, ⟨"nap", endNode, none⟩]
  channels := []

def waiterConfig : WorkflowConfig where
  name := "waiter"
  nodes := [("ask", { run := fun _ _ => .pause .null fun _ => .ret .nothing })]
  edges := [⟨startNode, "ask", none⟩, ⟨"ask", endNode, none⟩]
  channels := []

def executing (config : WorkflowConfig) (threadId : String) : Move :=
  ⟨config, threadId, .call { invocation := .execute [], options := { run := 0 } }⟩

def forking (config : WorkflowConfig) (threadId : String) (checkpointId : Id) : Move :=
  ⟨config, threadId,
    .fork { fromCheckpointId := checkpointId, uuid := List.replicate 32 0 }⟩

def sleeping : World := World.unused.step .inserted (executing sleeperConfig "t")

def sleepingAndWaiting : World := sleeping.step .inserted (executing waiterConfig "u")

def waiterForked : World :=
  sleepingAndWaiting.step .inserted (forking waiterConfig "u" ⟨1, 1⟩)

theorem waiter_forked_exact :
    (waiterForked.store.map fun tuple => tuple.metadata.wakeAt) =
        [some 5, none, none] ∧ TimersExact waiterForked.store := by
  refine ⟨by decide, @timers_exact .inserted _ (.move (.move (.move .unused
    (executing sleeperConfig "t") ?_) (executing waiterConfig "u") ?_)
    (forking waiterConfig "u" ⟨1, 1⟩) ?_)⟩
  · exact separable_of_not_mem (by decide)
  · exact separable_of_not_mem (by decide)
  · intro tuple found _
    have timers : ((sleepingAndWaiting.store.find "u" (namespaceFor waiterConfig)
        ⟨1, 1⟩).map fun tuple => wakeTimes tuple.metadata) = some [] := by
      decide
    have located : sleepingAndWaiting.store.find "u" (namespaceFor waiterConfig)
        ⟨1, 1⟩ = some tuple := found
    rw [located] at timers
    exact Option.some.inj timers

def sleeperForked : World :=
  sleeping.step .inserted (forking sleeperConfig "t" ⟨0, 1⟩)

/-- A sleeping thread is forked; the fork sleeps without a stamp, so the poll
never finds it. -/
theorem forked_sleeper_unstamped : ¬ ∀ (order : RowOrder) (world : World),
      Evolves order (fun _ move => validateConfig move.config = .ok () ∧
        Separable (utf16 move.threadId)) world → TimersExact world.store := by
  intro always
  have separable : Separable (utf16 "t") := separable_of_not_mem (by decide)
  have exact := always .inserted sleeperForked
    (.move (.move .unused (executing sleeperConfig "t") ⟨rfl, separable⟩)
      (forking sleeperConfig "t" ⟨0, 1⟩) ⟨rfl, separable⟩)
  have read : ((sleeperForked.store.latest (newThreadId (List.replicate 32 0))
      (namespaceFor sleeperConfig)).map fun tuple =>
        (tuple.metadata.status, tuple.metadata.wakeAt, wakeTimes tuple.metadata)) =
      some (.suspended, none, [5]) := by decide
  obtain ⟨tuple, latest, fields⟩ := Option.map_eq_some_iff.mp read
  obtain ⟨suspended, unstamped, timers⟩ : _ ∧ _ ∧ _ := by
    simpa only [Prod.mk.injEq] using fields
  have stamp := exact.stamped _ _ tuple latest suspended
  rw [unstamped, timers] at stamp
  cases stamp

end Graphorin.Workflow
