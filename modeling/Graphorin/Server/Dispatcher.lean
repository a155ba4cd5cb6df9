import Graphorin.Server.ReplayBuffer
import Graphorin.Server.Subjects

namespace Graphorin.Server

open Graphorin.Lib
open Auth (ParsedScope)

/-! The dispatcher: who is subscribed to what, under three indexes, and where an
event goes. -/

inductive RpcId
  | text (id : String)
  | number (id : Int)
deriving DecidableEq

inductive RpcResult
  | initialized
  | ok
  | subscribed (subscriptionId subject : String) (snapshotEventId : Option String)
      (replayedCount : Nat)
  | unsubscribed (subscriptionId : String)
  | cancelled (runId : String)
deriving DecidableEq

inductive ServerMessage (π : Type)
  | rpcSuccess (id : RpcId) (result : RpcResult)
  | rpcFailure (id : RpcId) (code : Int) (message : String)
  | subscribed (subscriptionId subject : String) (snapshotEventId : Option String)
  | unsubscribed (subscriptionId : String)
  | event (frame : ServerEventFrame π)
  | lifecycle (frame : ServerLifecycleFrame)
  | pong (nonce : Option String)
  | replayMarker (frame : ServerReplayMarkerFrame)
deriving DecidableEq

/-- `ServerMessageSchema`: what may not be empty. -/
def ServerMessage.valid {π : Type} : ServerMessage π → Bool
  | .rpcSuccess _ _ => true
  | .rpcFailure _ _ message => message ≠ ""
  | .subscribed subscriptionId subject snapshotEventId =>
    subscriptionId ≠ "" && subject ≠ "" && snapshotEventId ≠ some ""
  | .unsubscribed subscriptionId => subscriptionId ≠ ""
  | .event frame =>
    frame.eventId ≠ "" && frame.subscriptionId ≠ "" && frame.subject ≠ "" &&
      frame.type ≠ ""
  | .lifecycle frame => frame.subscriptionId ≠ "" && frame.reason ≠ some ""
  | .pong nonce => nonce ≠ some ""
  | .replayMarker frame =>
    frame.subscriptionId ≠ "" && frame.eventId ≠ "" && frame.note ≠ some ""

inductive Transport
  | ws
  | sse
deriving DecidableEq

/-- The commentary sanitizer: what it makes of a payload is the operator's
patterns and policy; nothing else of a frame changes. -/
structure Sanitizer (π : Type) where
  rewrite : Transport → String → π → π

def Sanitizer.sanitize {π : Type} (sanitizer : Sanitizer π)
    (frame : ServerEventFrame π) (transport : Transport) : ServerEventFrame π :=
  { frame with payload := sanitizer.rewrite transport frame.type frame.payload }

/-- The handle of an event stream has no `bufferedAmount`, and its `send` does
not throw; what that of a socket does is sampled. -/
structure WsSubscriberHandle where
  id : String
  tokenId : String
  grantedScopes : List ParsedScope
  transport : Transport
deriving DecidableEq

structure SubscriberRecord where
  handle : WsSubscriberHandle
  subscriptions : List String
  outstandingEvents : Nat
  closed : Bool
deriving DecidableEq

structure SubscriptionRecord where
  subscriberId : String
  tokenId : String
  subscriptionId : String
  subject : String
  parsed : ParsedSubject
  createdAt : Int
  lastEventId : Option String
deriving DecidableEq

structure BareEventFrame (π : Type) where
  type : String
  payload : π
  eventId : Option String

/-- What a socket is found to be like when a frame is handed to it: its buffered
bytes, and whether `send` throws. -/
structure LinkSample where
  buffered : Nat
  throws : Bool

inductive Delivery (π : Type)
  | sent (subscriberId : String) (message : ServerMessage π)
  | closed (subscriberId : String) (code : Nat) (reason : String)
deriving DecidableEq

/-- What the dispatcher is created with, and the sockets, sampled in the order in
which frames are handed to them. -/
structure DispatcherSetup (π : Type) where
  sanitizer : Sanitizer π
  replayOptions : ReplayBufferOptions
  perConnectionQueueLimit : Nat
  link : Nat → LinkSample

structure WsDispatcher (π : Type) where
  replayBuffer : ReplayBuffer π
  subscribers : OrderedMap String SubscriberRecord
  subscriptions : OrderedMap String SubscriptionRecord
  subjectIndex : OrderedMap String (List String)
  eventCounter : Nat
  samples : Nat
  deliveries : List (Delivery π)

def base36Digit (digit : Nat) : Char :=
  if digit < 10 then Char.ofNat (48 + digit) else Char.ofNat (87 + digit)

def base36Loop : Nat → Nat → List Char → List Char
  | 0, _, digits => digits
  | fuel + 1, number, digits =>
    let digits := base36Digit (number % 36) :: digits
    if number / 36 = 0 then digits else base36Loop fuel (number / 36) digits

/-- `toString(36)`. -/
def base36 : Int → String
  | .ofNat number => String.ofList (base36Loop (number + 1) number [])
  | .negSucc number =>
    String.ofList ('-' :: base36Loop (number + 2) (number + 1) [])

inductive SubscribeFailure
  | subjectMalformed
  | subjectUnknown
  | subjectWildcard
  | scopeDenied
  | threw
deriving DecidableEq

/-- What `subscribe` returns, with the frames `dispatchReplay` is to deliver. -/
structure Subscribed (π : Type) where
  subscriptionId : String
  replay : ReplayBufferSlice π
  snapshotEventId : Option String

namespace WsDispatcher

variable {π : Type} (setup : DispatcherSetup π)

def empty : WsDispatcher π := ⟨.empty, .empty, .empty, .empty, 0, 0, []⟩

def indexSubject (subject subscriptionId : String) (dispatcher : WsDispatcher π) :
    WsDispatcher π :=
  { dispatcher with
    subjectIndex := dispatcher.subjectIndex.set subject
      (((dispatcher.subjectIndex.get subject).getD []).insert subscriptionId) }

def deindexSubject (subject subscriptionId : String)
    (dispatcher : WsDispatcher π) : WsDispatcher π :=
  match dispatcher.subjectIndex.get subject with
  | none => dispatcher
  | some set =>
    let set := set.filter (· ≠ subscriptionId)
    { dispatcher with
      subjectIndex :=
        if set = [] then dispatcher.subjectIndex.delete subject
        else dispatcher.subjectIndex.set subject set }

def dropSubscription (dispatcher : WsDispatcher π) (subscriptionId : String) :
    WsDispatcher π :=
  match dispatcher.subscriptions.get subscriptionId with
  | none => dispatcher
  | some record =>
    let dispatcher := dispatcher.deindexSubject record.subject subscriptionId
    { dispatcher with
      subscriptions := dispatcher.subscriptions.delete subscriptionId }

def deleteSubscriber (subscriberId : String) (dispatcher : WsDispatcher π) :
    WsDispatcher π :=
  { dispatcher with subscribers := dispatcher.subscribers.delete subscriberId }

def sampleFor (handle : WsSubscriberHandle) (dispatcher : WsDispatcher π) :
    LinkSample :=
  match handle.transport with
  | .ws => setup.link dispatcher.samples
  | .sse => ⟨0, false⟩

def deliver (delivery : Delivery π) (dispatcher : WsDispatcher π) :
    WsDispatcher π :=
  { dispatcher with deliveries := dispatcher.deliveries ++ [delivery] }

def shutdownSubscriber (subscriber : SubscriberRecord) (code : Nat)
    (reason : String) (dispatcher : WsDispatcher π) : WsDispatcher π :=
  if subscriber.closed then dispatcher
  else
    let dispatcher := dispatcher.deliver (.closed subscriber.handle.id code reason)
    let dispatcher := subscriber.subscriptions.foldl dropSubscription dispatcher
    dispatcher.deleteSubscriber subscriber.handle.id

/-- A frame that is sent leaves `outstandingEvents` as it was. -/
def dispatchToSubscriber (record : SubscriptionRecord) (frame : ServerMessage π)
    (dispatcher : WsDispatcher π) : WsDispatcher π :=
  match dispatcher.subscribers.get record.subscriberId with
  | none => dispatcher
  | some subscriber =>
    if subscriber.closed then dispatcher
    else
      let sample := dispatcher.sampleFor setup subscriber.handle
      let dispatcher := { dispatcher with samples := dispatcher.samples + 1 }
      if setup.perConnectionQueueLimit ≤ subscriber.outstandingEvents ∨
          setup.perConnectionQueueLimit * 1024 ≤ sample.buffered then
        dispatcher.shutdownSubscriber subscriber 4006 "flow.throttled"
      else if sample.throws then
        dispatcher.shutdownSubscriber subscriber 4006 "flow.throttled"
      else dispatcher.deliver (.sent record.subscriberId frame)

def validateAndDispatch (record : SubscriptionRecord) (frame : ServerMessage π)
    (dispatcher : WsDispatcher π) : WsDispatcher π :=
  if frame.valid then dispatcher.dispatchToSubscriber setup record frame
  else dispatcher

def advance (record : SubscriptionRecord) (eventId : String)
    (dispatcher : WsDispatcher π) : WsDispatcher π :=
  match dispatcher.subscriptions.get record.subscriptionId with
  | none => dispatcher
  | some current =>
    { dispatcher with
      subscriptions := dispatcher.subscriptions.set record.subscriptionId
        { current with lastEventId := some eventId } }

def dispatchSanitized (record : SubscriptionRecord) (frame : ServerEventFrame π)
    (dispatcher : WsDispatcher π) : WsDispatcher π :=
  let sanitized := setup.sanitizer.sanitize frame .ws
  (dispatcher.validateAndDispatch setup record (.event sanitized)).advance record
    sanitized.eventId

def registerSubscriber (handle : WsSubscriberHandle)
    (dispatcher : WsDispatcher π) : WsDispatcher π :=
  { dispatcher with
    subscribers := dispatcher.subscribers.set handle.id ⟨handle, [], 0, false⟩ }

/-- The closure `registerSubscriber` returns. -/
def unregister (subscriberId : String) (dispatcher : WsDispatcher π) :
    WsDispatcher π :=
  match dispatcher.subscribers.get subscriberId with
  | none => dispatcher
  | some record =>
    (record.subscriptions.foldl dropSubscription dispatcher).deleteSubscriber
      subscriberId

/-- The checks of `subscribe`, before it changes anything. -/
def accept (subscriberId subject : String) (dispatcher : WsDispatcher π) :
    Except SubscribeFailure (SubscriberRecord × ParsedSubject) :=
  match dispatcher.subscribers.get subscriberId with
  | none => .error .subjectUnknown
  | some subscriber =>
    match tryParseSubject subject with
    | .error .wildcardNotSupported => .error .subjectWildcard
    | .error .unknownSubject => .error .subjectUnknown
    | .error .malformed => .error .subjectMalformed
    | .ok parsed =>
      match isSubjectAllowed subscriber.handle.grantedScopes parsed with
      | none => .error .threw
      | some false => .error .scopeDenied
      | some true => .ok (subscriber, parsed)

def enroll (now : Int) (subscriber : SubscriberRecord) (parsed : ParsedSubject)
    (subscriberId subject subscriptionId : String) (dispatcher : WsDispatcher π) :
    WsDispatcher π :=
  let record : SubscriptionRecord :=
    ⟨subscriberId, subscriber.handle.tokenId, subscriptionId, subject, parsed, now,
      none⟩
  indexSubject subject subscriptionId
    { dispatcher with
      subscriptions := dispatcher.subscriptions.set subscriptionId record
      subscribers := dispatcher.subscribers.set subscriberId
        { subscriber with
          subscriptions := subscriber.subscriptions.insert subscriptionId } }

/-- `subscribe` with `deferReplay`. -/
def subscribe (now : Int) (subscriberId subject subscriptionId : String)
    (sinceEventId : Option String) (dispatcher : WsDispatcher π) :
    Except SubscribeFailure (Subscribed π) × WsDispatcher π :=
  match dispatcher.accept subscriberId subject with
  | .error failure => (.error failure, dispatcher)
  | .ok (subscriber, parsed) =>
    let dispatcher := dispatcher.enroll now subscriber parsed subscriberId subject
      subscriptionId
    let (replay, buffer) := dispatcher.replayBuffer.replay setup.replayOptions now
      subject sinceEventId
    let snapshotEventId := replay.nextEventIdHint.or
      (if 0 < replay.droppedCount then some ("evt-replay-" ++ base36 now) else none)
    (.ok ⟨subscriptionId, replay, snapshotEventId⟩,
      { dispatcher with replayBuffer := buffer })

def dispatchReplayed (subscriptionId : String) (dispatcher : WsDispatcher π)
    (event : ServerEventFrame π) : WsDispatcher π :=
  match dispatcher.subscriptions.get subscriptionId with
  | none => dispatcher
  | some record =>
    dispatcher.dispatchSanitized setup record
      { event with subscriptionId := subscriptionId }

def dispatchReplay (now : Int) (subscribed : Subscribed π)
    (dispatcher : WsDispatcher π) : WsDispatcher π :=
  let dispatcher := subscribed.replay.events.foldl
    (dispatchReplayed setup subscribed.subscriptionId) dispatcher
  if 0 < subscribed.replay.droppedCount then
    match dispatcher.subscriptions.get subscribed.subscriptionId with
    | none => dispatcher
    | some record =>
      dispatcher.validateAndDispatch setup record (.replayMarker
        ⟨subscribed.subscriptionId,
          subscribed.snapshotEventId.getD ("evt-replay-" ++ base36 now),
          subscribed.replay.droppedCount,
          some ("Replay buffer dropped " ++ toString subscribed.replay.droppedCount ++
            " events before resume.")⟩)
  else dispatcher

def unsubscribe (subscriptionId : String) (dispatcher : WsDispatcher π) :
    Bool × WsDispatcher π :=
  match dispatcher.subscriptions.get subscriptionId with
  | none => (false, dispatcher)
  | some record =>
    let dispatcher :=
      match dispatcher.subscribers.get record.subscriberId with
      | none => dispatcher
      | some subscriber =>
        { dispatcher with
          subscribers := dispatcher.subscribers.set record.subscriberId
            { subscriber with
              subscriptions :=
                subscriber.subscriptions.filter (· ≠ subscriptionId) } }
    let dispatcher := dispatcher.deindexSubject record.subject subscriptionId
    (true, { dispatcher with
      subscriptions := dispatcher.subscriptions.delete subscriptionId })

/-- The body of the loop of `emit`. -/
def fanOut (frame : ServerEventFrame π) (dispatcher : WsDispatcher π)
    (subscriptionId : String) : WsDispatcher π :=
  match dispatcher.subscriptions.get subscriptionId with
  | none => dispatcher
  | some record =>
    dispatcher.dispatchSanitized setup record
      { frame with subscriptionId := subscriptionId }

def nextEventId (now : Int) (dispatcher : WsDispatcher π) :
    String × WsDispatcher π :=
  let eventCounter := dispatcher.eventCounter + 1
  ("evt-" ++ base36 now ++ "-" ++ base36 eventCounter,
    { dispatcher with eventCounter := eventCounter })

/-- A subscriber that is shut down while the loop runs takes its subscriptions
out of the set; the loop then no longer meets them. -/
def emit (now : Int) (subject : String) (bare : BareEventFrame π)
    (dispatcher : WsDispatcher π) : WsDispatcher π :=
  let (eventId, dispatcher) :=
    match bare.eventId with
    | some eventId => (eventId, dispatcher)
    | none => dispatcher.nextEventId now
  let bufferedFrame : ServerEventFrame π :=
    ⟨eventId, "__pending__", subject, bare.type, bare.payload⟩
  let dispatcher := { dispatcher with
    replayBuffer := dispatcher.replayBuffer.push setup.replayOptions now subject
      bufferedFrame }
  ((dispatcher.subjectIndex.get subject).getD []).foldl
    (fanOut setup bufferedFrame) dispatcher

def emitLifecycle (subscriptionId : String) (status : LifecycleStatus)
    (reason : Option String) (dispatcher : WsDispatcher π) : WsDispatcher π :=
  match dispatcher.subscriptions.get subscriptionId with
  | none => dispatcher
  | some record =>
    dispatcher.validateAndDispatch setup record
      (.lifecycle ⟨subscriptionId, status, reason⟩)

def shutdown (dispatcher : WsDispatcher π) : WsDispatcher π :=
  let farewells := dispatcher.subscriptions.entries.filterMap fun (_, subscription) =>
    (dispatcher.subscribers.get subscription.subscriberId).map fun _ =>
      Delivery.sent subscription.subscriberId (.lifecycle
        ⟨subscription.subscriptionId, .aborted, some "server-shutdown"⟩)
  let closes := dispatcher.subscribers.entries.map fun (_, subscriber) =>
    Delivery.closed subscriber.handle.id 4007 "server.shutdown"
  { dispatcher with
    subscribers := .empty
    subscriptions := .empty
    subjectIndex := .empty
    deliveries := dispatcher.deliveries ++ farewells ++ closes }

end WsDispatcher

end Graphorin.Server
