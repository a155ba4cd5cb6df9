import Graphorin.Server.Indexes

namespace Graphorin.Server

open Graphorin.Lib
open Auth (ParsedScope)

/-! The event stream of a session: the responder replays from the buffer, one
write after the other, and then subscribes. -/

/-- What is written on a stream; comments that keep it alive are left out. -/
inductive SseWrite (π : Type)
  | frame (frame : ServerEventFrame π)
  | replayMarker (id : Option String) (frame : ServerReplayMarkerFrame)
  | lifecycle (frame : ServerLifecycleFrame)
  | subscribeFailed (reason : SubscribeFailure)
deriving DecidableEq

/-- Where the responder is suspended: after a write of its own replay, after the
marker, in its loop, or nowhere any more. -/
inductive SsePhase (π : Type)
  | replaying (remaining : List (ServerEventFrame π)) (droppedCount : Nat)
      (lastEventId : Option String)
  | marked (lastEventId : Option String)
  | live
  | ended
deriving DecidableEq

structure SseConnection (π : Type) where
  subject : String
  tokenId : String
  grantedScopes : List ParsedScope
  phase : SsePhase π
  subscriberId : Option String
  queue : List (ServerMessage π)
  closedByBackpressure : Bool
  aborted : Bool
  written : List (SseWrite π)

structure SseSetup (π : Type) where
  dispatcher : DispatcherSetup π
  sanitizer : Sanitizer π
  perConnectionQueueLimit : Nat

/-- A request that passed the scope middleware. -/
structure SseRequest where
  sessionId : String
  tokenId : String
  grantedScopes : List ParsedScope
  sinceEventId : Option String

def SseRequest.subject (request : SseRequest) : String :=
  "session:" ++ request.sessionId ++ "/events"

def Delivery.recipient {π : Type} : Delivery π → String
  | .sent subscriberId _ => subscriberId
  | .closed subscriberId _ _ => subscriberId

def WsDispatcher.deliveriesTo {π : Type} (subscriberId : String)
    (dispatcher : WsDispatcher π) : List (Delivery π) :=
  dispatcher.deliveries.filter fun delivery => delivery.recipient = subscriberId

def LifecycleStatus.terminal : LifecycleStatus → Bool
  | .completed => true
  | .aborted => true
  | .failed => true
  | .running => false
  | .paused => false

namespace SseConnection

variable {π : Type}

def write (connection : SseConnection π) (output : SseWrite π) : SseConnection π :=
  { connection with written := connection.written ++ [output] }

def writeFrame (connection : SseConnection π) (frame : ServerEventFrame π) :
    SseConnection π :=
  if (ServerMessage.event frame).valid then connection.write (.frame frame)
  else connection

def writeReplayMarker (connection : SseConnection π) (now : Int) (droppedCount : Nat)
    (lastEventId : Option String) : SseConnection π :=
  connection.write (.replayMarker lastEventId
    ⟨"sse", lastEventId.getD ("evt-replay-" ++ base36 now), droppedCount, none⟩)

/-- `send` of the handle. -/
def send (limit : Nat) (message : ServerMessage π) (connection : SseConnection π) :
    SseConnection π :=
  if limit ≤ connection.queue.length then
    { connection with closedByBackpressure := true, queue := [] }
  else { connection with queue := connection.queue ++ [message] }

def receive (limit : Nat) (connection : SseConnection π) :
    Delivery π → SseConnection π
  | .sent _ message => connection.send limit message
  | .closed _ _ _ => { connection with queue := [] }

/-- The loop over the queue, up to the next write.  Frames that are neither events
nor lifecycle frames are passed over. -/
def drain : List (ServerMessage π) → SseConnection π → SseConnection π
  | [], connection => { connection with queue := [] }
  | .event frame :: rest, connection =>
    { connection.writeFrame frame with queue := rest }
  | .lifecycle frame :: rest, connection =>
    { connection.write (.lifecycle frame) with
      queue := rest
      aborted := connection.aborted || frame.status.terminal }
  | _ :: rest, connection => drain rest connection

end SseConnection

/-- One stream on one dispatcher, and what was pushed on its subject since it was
requested. -/
structure SseWorld (π : Type) where
  dispatcher : WsDispatcher π
  connection : SseConnection π
  pushed : List (ServerEventFrame π)

/-- What `emit` buffers. -/
def WsDispatcher.emittedFrame {π : Type} (now : Int) (subject : String)
    (bare : BareEventFrame π) (dispatcher : WsDispatcher π) : ServerEventFrame π :=
  ⟨bare.eventId.getD (dispatcher.nextEventId now).1, "__pending__", subject, bare.type,
    bare.payload⟩

def sseSubscriptionId (subscriberId : String) : String := subscriberId ++ "-sub"

namespace SseWorld

variable {π : Type} (setup : SseSetup π)

def hear (dispatcher : WsDispatcher π) (world : SseWorld π) : SseWorld π :=
  match world.connection.subscriberId with
  | none => { world with dispatcher := dispatcher }
  | some subscriberId =>
    let news := (dispatcher.deliveriesTo subscriberId).drop
      (world.dispatcher.deliveriesTo subscriberId).length
    { world with
      dispatcher := dispatcher
      connection := news.foldl
        (SseConnection.receive setup.perConnectionQueueLimit) world.connection }

/-- The `finally` of the loop. -/
def finish (subscriberId : String) (world : SseWorld π) : SseWorld π :=
  let dispatcher :=
    (world.dispatcher.unsubscribe (sseSubscriptionId subscriberId)).2.unregister
      subscriberId
  { world with
    dispatcher := dispatcher
    connection := { world.connection with phase := .ended } }

/-- The loop of the live tail, from where it was resumed to its next `await`. -/
def turn (world : SseWorld π) : SseWorld π :=
  match world.connection.subscriberId with
  | none => world
  | some subscriberId =>
    if world.connection.aborted then world.finish subscriberId
    else if world.connection.closedByBackpressure then
      { world with
        connection := { world.connection.write (.lifecycle
            ⟨sseSubscriptionId subscriberId, .failed, some "flow.throttled"⟩) with
          aborted := true } }
    else
      { world with
        connection := SseConnection.drain world.connection.queue world.connection }

/-- Register, subscribe, and enter the loop.  `subscriberId` is the one drawn. -/
def goLive (now : Int) (subscriberId : String) (lastEventId : Option String)
    (world : SseWorld π) : SseWorld π :=
  let connection := world.connection
  let registered := world.dispatcher.registerSubscriber
    ⟨subscriberId, connection.tokenId, connection.grantedScopes, .sse⟩
  let (result, dispatcher) := registered.subscribe setup.dispatcher now subscriberId
    connection.subject (sseSubscriptionId subscriberId) lastEventId
  match result with
  | .error .threw =>
    { world with
      dispatcher := dispatcher
      connection := { connection with phase := .ended } }
  | .error reason =>
    { world with
      dispatcher := dispatcher.unregister subscriberId
      connection := { connection.write (.subscribeFailed reason) with
        phase := .ended } }
  | .ok subscribed =>
    let world := { world with
      dispatcher := dispatcher
      connection := { connection with
        phase := .live
        subscriberId := some subscriberId } }
    (world.hear setup
      (dispatcher.dispatchReplay setup.dispatcher now subscribed)).turn

/-- The replay of the responder itself, up to its next `await`. -/
def advance (now : Int) (subscriberId : String) (droppedCount : Nat)
    (lastEventId : Option String) (world : SseWorld π) :
    List (ServerEventFrame π) → SseWorld π
  | event :: remaining =>
    let sanitized := setup.sanitizer.sanitize { event with subscriptionId := "sse" }
      .sse
    { world with
      connection := { world.connection.writeFrame sanitized with
        phase := .replaying remaining droppedCount (some sanitized.eventId) } }
  | [] =>
    if 0 < droppedCount then
      { world with
        connection := { world.connection.writeReplayMarker now droppedCount
            lastEventId with
          phase := .marked lastEventId } }
    else world.goLive setup now subscriberId lastEventId

def resume (now : Int) (subscriberId : String) (world : SseWorld π) : SseWorld π :=
  match world.connection.phase with
  | .replaying remaining droppedCount lastEventId =>
    world.advance setup now subscriberId droppedCount lastEventId remaining
  | .marked lastEventId => world.goLive setup now subscriberId lastEventId
  | .live => world.turn
  | .ended => world

def connect (now : Int) (subscriberId : String) (request : SseRequest)
    (dispatcher : WsDispatcher π) : SseWorld π :=
  let (replay, buffer) := dispatcher.replayBuffer.replay setup.dispatcher.replayOptions
    now request.subject request.sinceEventId
  let world : SseWorld π :=
    ⟨{ dispatcher with replayBuffer := buffer },
      ⟨request.subject, request.tokenId, request.grantedScopes, .ended, none, [], false,
        false, []⟩, []⟩
  -- the cursor of the request is not handed on: `lastEventId` starts undefined
  world.advance setup now subscriberId replay.droppedCount none replay.events

/-- What happens while the stream is open.  A resumption comes with the subscriber
id drawn should it subscribe. -/
inductive Move (π : Type)
  | resumed (now : Int) (subscriberId : String)
  | emitted (now : Int) (subject : String) (bare : BareEventFrame π)
  | pruned (now : Int)
  | lifecycle (subscriptionId : String) (status : LifecycleStatus)
      (reason : Option String)
  | aborted

def step (world : SseWorld π) : Move π → SseWorld π
  | .resumed now subscriberId => world.resume setup now subscriberId
  | .emitted now subject bare =>
    let frame := world.dispatcher.emittedFrame now subject bare
    let pushed :=
      if subject = world.connection.subject then world.pushed ++ [frame]
      else world.pushed
    { world.hear setup (world.dispatcher.emit setup.dispatcher now subject bare) with
      pushed := pushed }
  | .pruned now =>
    let buffer := world.dispatcher.replayBuffer.prune setup.dispatcher.replayOptions
      now
    { world with dispatcher := { world.dispatcher with replayBuffer := buffer } }
  | .lifecycle subscriptionId status reason =>
    world.hear setup
      (world.dispatcher.emitLifecycle setup.dispatcher subscriptionId status reason)
  | .aborted =>
    -- the listener is added once the stream is subscribed
    match world.connection.phase with
    | .live => { world with connection := { world.connection with aborted := true } }
    | _ => world

def run (world : SseWorld π) (moves : List (Move π)) : SseWorld π :=
  moves.foldl (step setup) world

end SseWorld

end Graphorin.Server
