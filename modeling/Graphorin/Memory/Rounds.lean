import Graphorin.Memory.Consolidation

namespace Graphorin.Memory

open Lib

/-! Consolidator instances over one database. A run of a phase and a drain of the
dead-letter queue advance by the statements they await; between two of them anything else
may happen. -/

structure ConsolidatorConfig where
  lockWaitMs : Nat := 30000
  maxRunDurationMs : Nat := 300000
  cooldownMs : Nat := 0
  maxStandardBatchSize : Nat := 50
  dlqMaxRetries : Nat := 5
  dlqBaseBackoffMs : Nat := 60000
  dlqMaxBackoffMs : Nat := 3600000

inductive PhaseStatus
  | completed
  | partly
  | failed
  | deferred
  deriving DecidableEq

inductive RunStage
  | waiting (start : Int)
  | locked
  | dispatching
  | listing (cursor : Option String)
  | working (window : List SessionMessage)
  | advancing (window : List SessionMessage)
  | caught
  | accounting (status : PhaseStatus)
  | releasing (status : PhaseStatus)
  /-- `none` where `#runPhase` itself threw. -/
  | settled (status : Option PhaseStatus)
  deriving DecidableEq

def RunStage.inside : RunStage → Bool
  | .waiting _ | .settled _ => false
  | _ => true

structure Run where
  /-- The instance it runs in. -/
  owner : Nat
  scope : Scope
  phase : Phase
  /-- `dlq-replay:` stands in the trigger's reason. -/
  replay : Bool
  runId : String
  acquiredAt : Option Int := none
  stage : RunStage

inductive DrainStage
  | ready
  | replaying (run : Nat)
  | skipping
  | looking (cursor : Option String)
  | jumping (tip : String)
  deriving DecidableEq

structure Drain where
  owner : Nat
  scope : Scope
  /-- The claimed rows that are left, the first one under way. -/
  rows : List DlqRow
  stage : DrainStage := .ready

/-- A row from before the phase was kept counts as a standard one. -/
def DlqRow.replayPhase (row : DlqRow) : Phase := row.phase.getD .standard

def Drain.next (drain : Drain) : Drain :=
  { drain with rows := drain.rows.tail, stage := .ready }

structure Eviction where
  runId : String
  since : Option Int
  now : Int
  maxAgeMs : Nat
  deriving DecidableEq

structure World where
  clock : Int := 0
  messages : List SessionMessage := []
  state : StateTable := OrderedMap.empty
  batches : List DlqRow := []
  /-- `#dispatchMessageIdsByScope` of each instance. -/
  dispatchMessageIds : OrderedMap (Nat × String) (List String) := .empty
  runs : OrderedMap Nat Run := .empty
  drains : OrderedMap Nat Drain := .empty
  /-- The instances whose process ended. -/
  dead : List Nat := []
  evictions : List Eviction := []

def World.row (world : World) (scope : Scope) : StateRow :=
  world.state.row scope.stateKey

def World.setRun (world : World) (id : Nat) (run : Run) : World :=
  { world with runs := world.runs.set id run }

def World.setStage (world : World) (id : Nat) (run : Run) (stage : RunStage) : World :=
  world.setRun id { run with stage }

def World.setDrain (world : World) (id : Nat) (drain : Drain) : World :=
  { world with drains := world.drains.set id drain }

def World.forget (world : World) (run : Run) : World :=
  { world with
    dispatchMessageIds :=
      world.dispatchMessageIds.delete (run.owner, scopeKey run.scope) }

inductive RunStep
  | poll (ok : Bool)
  | recordRunStart (ok : Bool)
  | getState (ok : Bool)
  | listMessagesSince (ok : Bool)
  /-- The phase returns a status or throws. -/
  | phase (status : Option PhaseStatus)
  | upsertCursor (ok : Bool)
  | enqueueFailedBatch (rowId : String) (jitter : Rat) (ok : Bool)
  /-- The handler of the phase's error throws in its turn. -/
  | handlerThrows
  | account (ok : Bool)
  | release (ok : Bool)

variable (config : Nat → ConsolidatorConfig)

/-- The holder another run id takes the row from. -/
def evicted (row : StateRow) (runId : String) (now : Int) (maxAgeMs : Nat) :
    List Eviction :=
  match row.activeLockHeldBy with
  | none => []
  | some holder =>
    if holder = runId then [] else [⟨holder, row.activeLockAcquiredAt, now, maxAgeMs⟩]

def World.poll (world : World) (id : Nat) (run : Run) (start : Int) : World :=
  let maxAgeMs := (config run.owner).maxRunDurationMs
  let acquired :=
    world.state.acquireLock run.scope.stateKey run.runId world.clock maxAgeMs
  if acquired.1 then
    { world with
      state := acquired.2
      runs :=
        world.runs.set id { run with acquiredAt := some world.clock, stage := .locked }
      evictions :=
        world.evictions ++ evicted (world.row run.scope) run.runId world.clock maxAgeMs }
  else if world.clock - start ≥ (config run.owner).lockWaitMs then
    world.setStage id run (.settled (some .deferred))
  else world

def World.enqueue (world : World) (run : Run) (rowId : String) (jitter : Rat) : World :=
  if run.replay then world
  else
    let delay := nextBackoffMs 0 (config run.owner).dlqBaseBackoffMs
      (config run.owner).dlqMaxBackoffMs jitter
    { world with
      batches := enqueueFailedBatch world.batches
        { id := rowId
          consolidatorRunId := run.runId
          userId := run.scope.userId
          messageIds :=
            (world.dispatchMessageIds.get (run.owner, scopeKey run.scope)).getD []
          failedAt := world.clock
          nextRetryAt := some (world.clock + delay)
          retryCount := 0
          phase := some run.phase } }

def World.runStep (world : World) (id : Nat) (run : Run) (step : RunStep) : World :=
  match run.stage, step with
  | .waiting start, .poll true => world.poll config id run start
  | .waiting _, .poll false => world.setStage id run (.settled none)
  | .locked, .recordRunStart true => world.setStage id run .dispatching
  -- Nothing on this path gives the lock back.
  | .locked, .recordRunStart false => world.setStage id run (.settled none)
  | .dispatching, .getState true =>
    let cursor := (world.row run.scope).lastProcessedMessageId
    (world.forget run).setStage id run <|
      if run.phase = .standard then .listing cursor else .working []
  | .dispatching, .getState false => (world.forget run).setStage id run .caught
  | .listing cursor, .listMessagesSince true =>
    match listMessagesSince world.messages run.scope cursor
        (config run.owner).maxStandardBatchSize with
    | none => world.setStage id run .caught
    | some window =>
      { world with
        dispatchMessageIds := world.dispatchMessageIds.set
          (run.owner, scopeKey run.scope) (window.map SessionMessage.id) }.setStage id run
        (.working window)
  -- The statement fails, or no provider is configured.
  | .listing _, .listMessagesSince false => world.setStage id run .caught
  | .working _, .phase none => world.setStage id run .caught
  | .working window, .phase (some status) =>
    if run.phase = .standard then
      if window.isEmpty then (world.forget run).setStage id run (.accounting .completed)
      else world.setStage id run (.advancing window)
    else (world.forget run).setStage id run (.accounting status)
  | .advancing window, .upsertCursor true =>
    let state := world.state.upsertState run.scope.stateKey
      { lastProcessedMessageId := tipMessageId window }
    ({ world with state := state }.forget run).setStage id run (.accounting .completed)
  | .advancing _, .upsertCursor false => world.setStage id run .caught
  | .caught, .enqueueFailedBatch rowId jitter true =>
    ((world.enqueue config run rowId jitter).forget run).setStage id run
      (.accounting .failed)
  | .caught, .enqueueFailedBatch _ _ false =>
    (world.forget run).setStage id run (.accounting .failed)
  | .caught, .handlerThrows => (world.forget run).setStage id run (.settled none)
  | .accounting status, .account true =>
    let state := world.state.upsertState run.scope.stateKey
      { lastPhase := some run.phase
        lastCompletedAt := some world.clock
        nextEligibleAt := some (world.clock + (config run.owner).cooldownMs) }
    { world with state := state }.setStage id run (.releasing status)
  | .accounting status, .account false => world.setStage id run (.releasing status)
  | .releasing status, .release true =>
    { world with
      state := world.state.releaseLock run.scope.stateKey run.runId }.setStage id run
      (.settled (some status))
  | .releasing status, .release false => world.setStage id run (.settled (some status))
  | _, _ => world

inductive DrainStep
  | replay (run : Nat) (runId : String) (allowed : Bool)
  | settle (jitter : Rat)
  | getState
  | listNext
  | upsertTip
  /-- A statement the drain awaits outside of a replay throws. -/
  | abandon

/-- `#runPhase` up to the lock; the budget stops any phase but the light one. -/
def World.call (world : World) (id : Nat) (run : Run) (allowed : Bool) : World :=
  if (world.runs.get id).isSome || world.dead.contains run.owner then world
  else
    world.setStage id run <|
      if allowed || run.phase = .light then .waiting world.clock
      else .settled (some .deferred)

def World.reschedule (world : World) (drain : Drain) (row : DlqRow) (retryCount : Nat)
    (jitter : Rat) : World :=
  let delay := nextBackoffMs (row.retryCount + 1)
    (config drain.owner).dlqBaseBackoffMs (config drain.owner).dlqMaxBackoffMs jitter
  { world with
    batches := rescheduleBatch world.batches row.id retryCount (world.clock + delay) }

def World.settleRow (world : World) (id : Nat) (drain : Drain) (row : DlqRow)
    (outcome : Option PhaseStatus) (jitter : Rat) : World :=
  match outcome with
  | some .completed | some .partly =>
    { world with batches := markBatchSucceeded world.batches row.id }.setDrain id drain.next
  | some .deferred =>
    (world.reschedule config drain row row.retryCount jitter).setDrain id drain.next
  | some .failed | none =>
    let nextRetryCount := row.retryCount + 1
    if nextRetryCount ≥ (config drain.owner).dlqMaxRetries then
      { world with
        batches := markBatchExhausted world.batches row.id nextRetryCount }.setDrain id
        (if row.replayPhase = Phase.standard ∧ row.messageIds ≠ [] then
          { drain with stage := .skipping }
        else drain.next)
    else
      (world.reschedule config drain row nextRetryCount jitter).setDrain id drain.next

def World.drainStep (world : World) (id : Nat) (drain : Drain) (step : DrainStep) :
    World :=
  match drain.rows with
  | [] => world
  | row :: _ =>
    match drain.stage, step with
    | .ready, .replay runId' runId allowed =>
      if (world.runs.get runId').isSome then world
      else
        (world.call runId'
          { owner := drain.owner
            scope := drain.scope
            phase := row.replayPhase
            replay := true
            runId := runId
            stage := .waiting world.clock } allowed).setDrain id
          { drain with stage := .replaying runId' }
    | .replaying run, .settle jitter =>
      match (world.runs.get run).map Run.stage with
      | some (.settled outcome) => world.settleRow config id drain row outcome jitter
      | _ => world
    | .skipping, .getState =>
      let cursor := (world.row drain.scope).lastProcessedMessageId
      world.setDrain id <|
        if cursor = row.messageIds.getLast? then drain.next
        else { drain with stage := .looking cursor }
    | .looking cursor, .listNext =>
      match listMessagesSince world.messages drain.scope cursor 1,
          row.messageIds.getLast? with
      | some [next], some tip =>
        world.setDrain id <|
          if next.id ∈ row.messageIds then { drain with stage := .jumping tip }
          else drain.next
      | none, _ => world.setDrain id { drain with rows := [] }
      | _, _ => world.setDrain id drain.next
    | .jumping tip, .upsertTip =>
      { world with
        state := world.state.upsertState drain.scope.stateKey
          { lastProcessedMessageId := some tip } }.setDrain id drain.next
    | _, .abandon => world.setDrain id { drain with rows := [] }
    | _, _ => world

inductive RoundEvent
  | tick (instant : Int)
  | push (sessionId id : String)
  | call (id : Nat) (run : Run) (allowed : Bool)
  | run (id : Nat) (step : RunStep)
  | claim (id owner : Nat) (scope : Scope)
  | drain (id : Nat) (step : DrainStep)
  | crash (owner : Nat)

def World.step (world : World) : RoundEvent → World
  | .tick instant => { world with clock := max world.clock instant }
  | .push sessionId id =>
    { world with messages := pushMessage world.messages sessionId id }
  | .call id run allowed =>
    world.call id { run with acquiredAt := none, replay := false } allowed
  | .run id step =>
    match world.runs.get id with
    | none => world
    | some run =>
      if world.dead.contains run.owner then world else world.runStep config id run step
  | .claim id owner scope =>
    if (world.drains.get id).isSome || world.dead.contains owner then world
    else
      world.setDrain id
        { owner, scope, rows := claimReadyBatches world.batches scope world.clock 50 }
  | .drain id step =>
    match world.drains.get id with
    | none => world
    | some drain =>
      if world.dead.contains drain.owner then world
      else world.drainStep config id drain step
  | .crash owner => { world with dead := owner :: world.dead }

def World.after (world : World) (events : List RoundEvent) : World :=
  events.foldl (World.step config) world

end Graphorin.Memory
