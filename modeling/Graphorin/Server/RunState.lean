import Graphorin.Lib.OrderedMap

namespace Graphorin.Server

open Graphorin.Lib

/-! The tracker of in-flight runs.  Besides its records the model keeps what the
tracker reported, in order, each report with the run it is about. -/

inductive RunKind
  | agent
  | workflow
deriving DecidableEq

inductive RunStatus
  | pending
  | running
  | awaitingApproval
  | completed
  | failed
  | aborted
deriving DecidableEq

inductive TerminalRunStatus
  | completed
  | failed
  | aborted
deriving DecidableEq

def TerminalRunStatus.toStatus : TerminalRunStatus → RunStatus
  | .completed => .completed
  | .failed => .failed
  | .aborted => .aborted

/-- `isTerminalStatus`, with the status it narrows to. -/
def RunStatus.terminal? : RunStatus → Option TerminalRunStatus
  | .completed => some .completed
  | .failed => some .failed
  | .aborted => some .aborted
  | _ => none

def isTerminalStatus (status : RunStatus) : Bool := status.terminal?.isSome

inductive RunDescriptor
  | agent (agentId : String) (sessionId userId : Option String)
  | workflow (workflowId : String) (threadId sessionId userId : Option String)
deriving DecidableEq

def RunDescriptor.kind : RunDescriptor → RunKind
  | .agent .. => .agent
  | .workflow .. => .workflow

structure WireError where
  code : String
  message : String
  hint : Option String
deriving DecidableEq

/-- A thrown value: an object by those of its members that are strings, and what
`String(err)` writes. -/
inductive Thrown
  | object (code kind message hint : Option String) (shown : String)
  | other (shown : String)

def toWireError : Thrown → WireError
  | .object code kind message hint shown =>
    let filled (text : Option String) := text.filter fun text => text ≠ ""
    ⟨((filled code).or (filled kind)).getD "unknown", message.getD shown,
      filled hint⟩
  | .other shown => ⟨"unknown", shown, none⟩

structure TerminalRunInfo where
  status : TerminalRunStatus
  kind : RunKind
  durationMs : Option Int
deriving DecidableEq

inductive ActivityKind
  | runStart
  | runEnd
deriving DecidableEq

structure RunActivityEvent where
  kind : ActivityKind
  runKind : RunKind
deriving DecidableEq

/-- `σ` is the retained `RunState`, which the tracker does not look into; it is
`none` where `suspendedState` is `undefined`. -/
structure RunRecord (σ : Type) where
  runId : String
  kind : RunKind
  descriptor : RunDescriptor
  status : RunStatus
  signalAborted : Bool
  startedAt : Option Int
  completedAt : Option Int
  error : Option WireError
  suspendedState : Option σ

/-- A call of `onTerminal`, of the activity listener or of a persistence hook. -/
inductive Report (σ : Type)
  | terminal (info : TerminalRunInfo)
  | activity (event : RunActivityEvent)
  | suspended (descriptor : RunDescriptor) (state : Option σ)
  | settled

structure RunStateTracker (σ : Type) where
  records : OrderedMap String (RunRecord σ)
  reports : List (String × Report σ)

namespace RunStateTracker

variable {σ : Type}

def empty : RunStateTracker σ := ⟨.empty, []⟩

def report (tracker : RunStateTracker σ) (runId : String) (said : Report σ) :
    RunStateTracker σ :=
  { tracker with reports := tracker.reports ++ [(runId, said)] }

def put (tracker : RunStateTracker σ) (runId : String) (record : RunRecord σ) :
    RunStateTracker σ :=
  { tracker with records := tracker.records.set runId record }

def emitActivity (tracker : RunStateTracker σ) (runId : String)
    (kind : ActivityKind) (runKind : RunKind) : RunStateTracker σ :=
  tracker.report runId (.activity ⟨kind, runKind⟩)

def emitTerminal (tracker : RunStateTracker σ) (runId : String)
    (record : RunRecord σ) : RunStateTracker σ :=
  match record.status.terminal? with
  | none => tracker
  | some status =>
    tracker.report runId (.terminal ⟨status, record.kind, do
      let startedAt ← record.startedAt
      let completedAt ← record.completedAt
      pure (completedAt - startedAt)⟩)

/-- The record `declare`, `start` and `registerSuspended` make. -/
def reserved (runId : String) (descriptor : RunDescriptor) : RunRecord σ where
  runId := runId
  kind := descriptor.kind
  descriptor := descriptor
  status := .pending
  signalAborted := false
  startedAt := none
  completedAt := none
  error := none
  suspendedState := none

def declare (runId : String) (descriptor : RunDescriptor)
    (tracker : RunStateTracker σ) : RunStateTracker σ :=
  match tracker.records.get runId with
  | some _ => tracker
  | none => tracker.put runId (reserved runId descriptor)

def start (now : Int) (runId : String) (descriptor : RunDescriptor)
    (tracker : RunStateTracker σ) : RunStateTracker σ :=
  let record := (tracker.records.get runId).getD (reserved runId descriptor)
  (tracker.put runId { record with status := .running, startedAt := some now
    }).emitActivity runId .runStart record.kind

def complete (now : Int) (runId : String) (status : TerminalRunStatus)
    (err : Option Thrown) (tracker : RunStateTracker σ) : RunStateTracker σ :=
  match tracker.records.get runId with
  | none => tracker
  | some record =>
    let wasTerminal := isTerminalStatus record.status
    let wasSuspended := record.status = .awaitingApproval ∨
      record.suspendedState.isSome
    let updated := { record with
      status := status.toStatus
      completedAt := some now
      suspendedState := none
      error := (err.map toWireError).or record.error }
    let tracker := tracker.put runId updated
    let tracker := if wasSuspended then tracker.report runId .settled else tracker
    if wasTerminal then tracker
    else (tracker.emitTerminal runId updated).emitActivity runId .runEnd record.kind

def suspend (runId : String) (state : Option σ) (tracker : RunStateTracker σ) :
    RunStateTracker σ :=
  match tracker.records.get runId with
  | none => tracker
  | some record =>
    ((tracker.put runId { record with
      status := .awaitingApproval
      suspendedState := state }).report runId
        (.suspended record.descriptor state)).emitActivity runId .runEnd record.kind

def registerSuspended (runId : String) (descriptor : RunDescriptor)
    (state : Option σ) (tracker : RunStateTracker σ) : RunStateTracker σ :=
  let record := (tracker.records.get runId).getD (reserved runId descriptor)
  (tracker.put runId { record with
    status := .awaitingApproval
    suspendedState := state }).report runId (.suspended record.descriptor state)

def abort (now : Int) (runId : String) (tracker : RunStateTracker σ) :
    Bool × RunStateTracker σ :=
  match tracker.records.get runId with
  | none => (false, tracker)
  | some record =>
    let signalled := { record with signalAborted := true }
    if record.status = .pending ∨ record.status = .running ∨
        record.status = .awaitingApproval then
      let updated := { signalled with
        status := .aborted
        completedAt := some now
        suspendedState := none }
      (true, (tracker.put runId updated).emitTerminal runId updated)
    else (true, tracker.put runId signalled)

/-- The body of the loop of `abortPending`. -/
def abortOnePending (now : Int) (tracker : RunStateTracker σ) (runId : String) :
    RunStateTracker σ :=
  match tracker.records.get runId with
  | none => tracker
  | some record =>
    if record.status = .pending then
      let updated := { record with
        signalAborted := true
        status := .aborted
        completedAt := some now }
      (tracker.put runId updated).emitTerminal runId updated
    else tracker

def abortPending (now : Int) (tracker : RunStateTracker σ) : RunStateTracker σ :=
  tracker.records.keys.foldl (abortOnePending now) tracker

def prunable (olderThan : Int) (record : RunRecord σ) : Bool :=
  record.completedAt.any (· ≤ olderThan) && record.status ≠ .pending &&
    record.status ≠ .running && record.status ≠ .awaitingApproval

/-- The body of the loop of `prune`. -/
def pruneOne (olderThan : Int) (tracker : RunStateTracker σ) (runId : String) :
    RunStateTracker σ :=
  match tracker.records.get runId with
  | none => tracker
  | some record =>
    if prunable olderThan record then
      { tracker with records := tracker.records.delete runId }
    else tracker

def prune (olderThan : Int) (tracker : RunStateTracker σ) : RunStateTracker σ :=
  tracker.records.keys.foldl (pruneOne olderThan) tracker

def statusOf (tracker : RunStateTracker σ) (runId : String) : Option RunStatus :=
  (tracker.records.get runId).map RunRecord.status

end RunStateTracker

/-- A call of the tracker, each with the clock it reads. -/
inductive RunOperation (σ : Type)
  | declare (runId : String) (descriptor : RunDescriptor)
  | start (now : Int) (runId : String) (descriptor : RunDescriptor)
  | suspend (runId : String) (state : Option σ)
  | registerSuspended (runId : String) (descriptor : RunDescriptor)
      (state : Option σ)
  | abort (now : Int) (runId : String)
  | abortPending (now : Int)
  | complete (now : Int) (runId : String) (status : TerminalRunStatus)
      (err : Option Thrown)
  | prune (olderThan : Int)

variable {σ : Type}

namespace RunStateTracker

def step (tracker : RunStateTracker σ) : RunOperation σ → RunStateTracker σ
  | .declare runId descriptor => tracker.declare runId descriptor
  | .start now runId descriptor => tracker.start now runId descriptor
  | .suspend runId state => tracker.suspend runId state
  | .registerSuspended runId descriptor state =>
    tracker.registerSuspended runId descriptor state
  | .abort now runId => (tracker.abort now runId).2
  | .abortPending now => tracker.abortPending now
  | .complete now runId status err => tracker.complete now runId status err
  | .prune olderThan => tracker.prune olderThan

def play (operations : List (RunOperation σ)) : RunStateTracker σ :=
  operations.foldl step empty

theorem play_concat (operations : List (RunOperation σ))
    (operation : RunOperation σ) :
    play (operations ++ [operation]) = (play operations).step operation := by
  rw [play, List.foldl_append]
  rfl

end RunStateTracker

end Graphorin.Server
