import Graphorin.Memory.Facts
import Mathlib.Data.List.Sort
import Mathlib.Data.Rat.Floor

namespace Graphorin.Memory

open Lib

/-! What consolidation keeps in the database: the state row of each scope with its cursor
and its lock, the dead-letter rows, and the session messages the cursor points into. -/

structure SessionMessage where
  id : String
  sessionId : String
  sequence : Nat
  deriving DecidableEq

inductive Phase
  | light
  | standard
  | deep
  deriving DecidableEq

/-- The key of a state row, with `''` for what the scope leaves out. -/
structure ScopeKey where
  userId : String
  sessionId : String
  agentId : String
  deriving DecidableEq

def Scope.stateKey (scope : Scope) : ScopeKey :=
  ⟨scope.userId, scope.sessionId.getD "", scope.agentId.getD ""⟩

def scopeKey (scope : Scope) : String :=
  scope.userId ++ "|" ++ scope.sessionId.getD "" ++ "|" ++ scope.agentId.getD ""

structure StateRow where
  lastProcessedMessageId : Option String := none
  lastPhase : Option Phase := none
  lastCompletedAt : Option Int := none
  nextEligibleAt : Option Int := none
  activeLockHeldBy : Option String := none
  activeLockAcquiredAt : Option Int := none

/-- The columns a caller names; the runtime passes none of them as `null`. -/
structure StatePatch where
  lastProcessedMessageId : Option String := none
  lastPhase : Option Phase := none
  lastCompletedAt : Option Int := none
  nextEligibleAt : Option Int := none

abbrev StateTable := OrderedMap ScopeKey StateRow

/-- The row of a scope; one without a row reads as one with empty columns. -/
def StateTable.row (state : StateTable) (key : ScopeKey) : StateRow :=
  (OrderedMap.get state key).getD {}

def StateTable.upsertState (state : StateTable) (key : ScopeKey) (patch : StatePatch) :
    StateTable :=
  let row := state.row key
  OrderedMap.set state key
    { row with
      lastProcessedMessageId := patch.lastProcessedMessageId.or row.lastProcessedMessageId
      lastPhase := patch.lastPhase.or row.lastPhase
      lastCompletedAt := patch.lastCompletedAt.or row.lastCompletedAt
      nextEligibleAt := patch.nextEligibleAt.or row.nextEligibleAt }

/-- Whether the conditional upsert of `acquireLock` takes the row; a maximum age of zero
makes no lock stale. -/
def StateRow.grants (row : StateRow) (runId : String) (now : Int) (maxAgeMs : Nat) : Bool :=
  match row.activeLockHeldBy with
  | none => true
  | some holder =>
    holder = runId ||
      match row.activeLockAcquiredAt with
      | none => false
      | some since => 0 < maxAgeMs && since < now - maxAgeMs

def StateTable.acquireLock (state : StateTable) (key : ScopeKey) (runId : String)
    (now : Int) (maxAgeMs : Nat) : Bool × StateTable :=
  let row := state.row key
  if row.grants runId now maxAgeMs then
    (true,
      OrderedMap.set state key
        { row with activeLockHeldBy := some runId, activeLockAcquiredAt := some now })
  else (false, state)

def StateTable.releaseLock (state : StateTable) (key : ScopeKey) (runId : String) :
    StateTable :=
  let row := state.row key
  if row.activeLockHeldBy = some runId then
    OrderedMap.set state key
      { row with activeLockHeldBy := none, activeLockAcquiredAt := none }
  else state

structure DlqRow where
  id : String
  consolidatorRunId : String
  userId : String
  messageIds : List String
  failedAt : Int
  nextRetryAt : Option Int
  retryCount : Nat
  phase : Option Phase
  deriving DecidableEq

/-- A plain `SELECT`: the rows of the user that are due, the oldest failure first. -/
def claimReadyBatches (batches : List DlqRow) (scope : Scope) (now : Int) (limit : Nat) :
    List DlqRow :=
  ((batches.filter fun row =>
      row.userId = scope.userId && row.nextRetryAt.any (· ≤ now)).mergeSort
        (fun first second => first.failedAt ≤ second.failedAt)).take limit

/-- A primary key that is taken refuses the row. -/
def enqueueFailedBatch (batches : List DlqRow) (row : DlqRow) : List DlqRow :=
  if batches.any (·.id = row.id) then batches else batches ++ [row]

def markBatchSucceeded (batches : List DlqRow) (id : String) : List DlqRow :=
  batches.filter (·.id ≠ id)

def rescheduleBatch (batches : List DlqRow) (id : String) (retryCount : Nat)
    (nextRetryAt : Int) : List DlqRow :=
  batches.map fun row =>
    if row.id = id then { row with retryCount, nextRetryAt := some nextRetryAt } else row

def markBatchExhausted (batches : List DlqRow) (id : String) (retryCount : Nat) :
    List DlqRow :=
  batches.map fun row =>
    if row.id = id then { row with retryCount, nextRetryAt := none } else row

/-- `jitter` is what `Math.random` draws. -/
def nextBackoffMs (retryCount baseMs maxMs : Nat) (jitter : Rat) : Nat :=
  (⌊(min maxMs (baseMs * 2 ^ retryCount) : Nat) * jitter⌋).toNat

def nextSequence (messages : List SessionMessage) (sessionId : String) : Nat :=
  ((messages.filter (·.sessionId = sessionId)).map (·.sequence)).foldl max 0 + 1

/-- An id that is taken makes the insert fail. -/
def pushMessage (messages : List SessionMessage) (sessionId id : String) :
    List SessionMessage :=
  if messages.any (·.id = id) then messages
  else messages ++ [⟨id, sessionId, nextSequence messages sessionId⟩]

/-- `SELECT sequence FROM session_messages WHERE id = ?` -/
def sequenceOf (messages : List SessionMessage) (id : String) : Option Nat :=
  (messages.find? (·.id = id)).map (·.sequence)

def afterCursor (messages : List SessionMessage) (sessionId : String)
    (lastMessageId : Option String) : List SessionMessage :=
  (messages.filter fun message =>
      message.sessionId = sessionId &&
        match lastMessageId with
        | none => true
        | some id => (sequenceOf messages id).any (· < message.sequence)).mergeSort
    (fun first second => first.sequence ≤ second.sequence)

/-- A scope without a session is refused. -/
def listMessagesSince (messages : List SessionMessage) (scope : Scope)
    (lastMessageId : Option String) (limit : Nat) : Option (List SessionMessage) :=
  match scope.sessionId with
  | none => none
  | some sessionId => some ((afterCursor messages sessionId lastMessageId).take limit)

def tipMessage : List SessionMessage → Option SessionMessage
  | [] => none
  | first :: rest =>
    some (rest.foldl (fun best candidate =>
      if best.sequence < candidate.sequence then candidate else best) first)

def tipMessageId (batch : List SessionMessage) : Option String :=
  (tipMessage batch).map (·.id)

variable (state : StateTable)

theorem row_set (key other : ScopeKey) (row : StateRow) :
    StateTable.row (OrderedMap.set state key row) other =
      if other = key then row else state.row other := by
  rw [StateTable.row, OrderedMap.get_set]
  split
  · rfl
  · rfl

theorem row_upsertState (key other : ScopeKey) (patch : StatePatch) :
    (state.upsertState key patch).row other =
      if other = key then
        { state.row key with
          lastProcessedMessageId :=
            patch.lastProcessedMessageId.or (state.row key).lastProcessedMessageId
          lastPhase := patch.lastPhase.or (state.row key).lastPhase
          lastCompletedAt := patch.lastCompletedAt.or (state.row key).lastCompletedAt
          nextEligibleAt := patch.nextEligibleAt.or (state.row key).nextEligibleAt }
      else state.row other :=
  row_set ..

theorem acquireLock_granted (key : ScopeKey) (runId : String) (now : Int) (maxAgeMs : Nat) :
    (state.acquireLock key runId now maxAgeMs).1 =
      (state.row key).grants runId now maxAgeMs := by
  rw [StateTable.acquireLock]
  cases (state.row key).grants runId now maxAgeMs
  · rfl
  · rfl

theorem row_acquireLock (key other : ScopeKey) (runId : String) (now : Int) (maxAgeMs : Nat)
    :
    (state.acquireLock key runId now maxAgeMs).2.row other =
      if other = key ∧ (state.row key).grants runId now maxAgeMs = true then
        { state.row key with
          activeLockHeldBy := some runId, activeLockAcquiredAt := some now }
      else state.row other := by
  rw [StateTable.acquireLock]
  by_cases granted : (state.row key).grants runId now maxAgeMs = true
  · simp only [granted, if_true, and_true]
    exact row_set ..
  · simp only [granted, and_false, if_false, Bool.false_eq_true]

theorem row_releaseLock (key other : ScopeKey) (runId : String) :
    (state.releaseLock key runId).row other =
      if other = key ∧ (state.row key).activeLockHeldBy = some runId then
        { state.row key with activeLockHeldBy := none, activeLockAcquiredAt := none }
      else state.row other := by
  rw [StateTable.releaseLock]
  by_cases held : (state.row key).activeLockHeldBy = some runId
  · simp only [held, if_true, and_true]
    exact row_set ..
  · simp only [held, and_false, if_false]

end Graphorin.Memory
