import Graphorin.Server.Connections

namespace Graphorin.Server

open Graphorin.Lib

/-! Connections do not disturb each other's subscriptions, as long as none
unsubscribes what is not its own. -/

variable {π σ : Type} (setup : DispatcherSetup π)

/-- What happens to a server.  A received message comes with the subscription id
drawn for it. -/
inductive ServerStep (π : Type)
  | opened (handle : WsSubscriberHandle)
  | received (now : Int) (subscriberId subscriptionId : String) (incoming : Incoming)
  | closed (subscriberId : String)
  | emitted (now : Int) (subject : String) (bare : BareEventFrame π)
  | lifecycle (subscriptionId : String) (status : LifecycleStatus)
      (reason : Option String)
  | shutdown

def ServerStep.sender : ServerStep π → Option String
  | .opened handle => some handle.id
  | .received _ subscriberId _ _ => some subscriberId
  | .closed subscriberId => some subscriberId
  | _ => none

namespace WsServer

def step (server : WsServer π σ) : ServerStep π → WsServer π σ
  | .opened handle => server.onOpen handle
  | .received now subscriberId subscriptionId incoming =>
    match server.connections.get subscriberId with
    | none => server
    | some connection =>
      server.onMessage setup now connection subscriptionId incoming
  | .closed subscriberId =>
    match server.connections.get subscriberId with
    | none => server
    | some connection => server.onClose connection
  | .emitted now subject bare =>
    { server with dispatcher := server.dispatcher.emit setup now subject bare }
  | .lifecycle subscriptionId status reason =>
    { server with
      dispatcher := server.dispatcher.emitLifecycle setup subscriptionId status
        reason }
  | .shutdown => { server with dispatcher := server.dispatcher.shutdown }

def AdmitsMessage (dispatcher : WsDispatcher π) (subscriberId subscriptionId : String) :
    Incoming → Prop
  | .message (.subscribe _ subject _) =>
    (dispatcher.accept subscriberId subject).toOption.isSome →
      dispatcher.Free subscriberId subject subscriptionId
  | .message (.unsubscribe _ named) => dispatcher.Owned subscriberId named
  | _ => True

/-- The ids that are drawn are new, and a connection unsubscribes only what is
its own, or nothing. -/
def Admits (server : WsServer π σ) : ServerStep π → Prop
  | .opened handle =>
    (server.connections.get handle.id).isNone ∧
      (server.dispatcher.subscribers.get handle.id).isNone
  | .received _ subscriberId subscriptionId incoming =>
    (server.connections.get subscriberId).any Connection.initialized →
      AdmitsMessage server.dispatcher subscriberId subscriptionId incoming
  | _ => True

instance (dispatcher : WsDispatcher π) (subscriberId subscriptionId : String) :
    Decidable (dispatcher.Owned subscriberId subscriptionId) :=
  decidable_of_iff ((dispatcher.subscriptions.get subscriptionId).all
      fun record => record.subscriberId = subscriberId) (by
    unfold WsDispatcher.Owned
    cases dispatcher.subscriptions.get subscriptionId <;> simp)

instance (dispatcher : WsDispatcher π) (subscriberId subject subscriptionId : String) :
    Decidable (dispatcher.Free subscriberId subject subscriptionId) :=
  decidable_of_iff ((dispatcher.subscriptions.get subscriptionId).all
      fun record => record.subscriberId = subscriberId ∧ record.subject = subject) (by
    unfold WsDispatcher.Free
    cases dispatcher.subscriptions.get subscriptionId <;> simp)

instance (dispatcher : WsDispatcher π) (subscriberId subscriptionId : String) :
    (incoming : Incoming) →
      Decidable (AdmitsMessage dispatcher subscriberId subscriptionId incoming)
  | .message (.subscribe _ subject _) => inferInstanceAs (Decidable
      ((dispatcher.accept subscriberId subject).toOption.isSome →
        dispatcher.Free subscriberId subject subscriptionId))
  | .message (.unsubscribe _ named) =>
    inferInstanceAs (Decidable (dispatcher.Owned subscriberId named))
  | .message (.initializeRequest _) => isTrue trivial
  | .message (.ping _ _) => isTrue trivial
  | .message (.runCancel _ _) => isTrue trivial
  | .message (.cancelled _) => isTrue trivial
  | .notJson => isTrue trivial
  | .invalid _ => isTrue trivial

instance (server : WsServer π σ) : (step : ServerStep π) →
    Decidable (server.Admits step)
  | .opened handle => inferInstanceAs (Decidable
      ((server.connections.get handle.id).isNone ∧
        (server.dispatcher.subscribers.get handle.id).isNone))
  | .received _ subscriberId subscriptionId incoming => inferInstanceAs (Decidable
      ((server.connections.get subscriberId).any Connection.initialized →
        AdmitsMessage server.dispatcher subscriberId subscriptionId incoming))
  | .closed _ => isTrue trivial
  | .emitted _ _ _ => isTrue trivial
  | .lifecycle _ _ _ => isTrue trivial
  | .shutdown => isTrue trivial

def Follows (server : WsServer π σ) : List (ServerStep π) → Prop
  | [] => True
  | first :: rest => server.Admits first ∧ (server.step setup first).Follows rest

instance followsDecidable : (server : WsServer π σ) → (steps : List (ServerStep π)) →
    Decidable (server.Follows setup steps)
  | _, [] => isTrue trivial
  | server, first :: rest =>
    have := followsDecidable (server.step setup first) rest
    inferInstanceAs (Decidable
      (server.Admits first ∧ (server.step setup first).Follows setup rest))

/-- The indexes agree all along, and no step of a connection touches a
subscription of another one. -/
def Isolated (server : WsServer π σ) : List (ServerStep π) → Prop
  | [] => server.dispatcher.Consistent
  | first :: rest =>
    server.dispatcher.Consistent ∧
      (∀ sender, first.sender = some sender →
        server.dispatcher.Leaves sender (server.step setup first).dispatcher) ∧
      (server.step setup first).Isolated rest

structure Sound (server : WsServer π σ) : Prop where
  consistent : server.dispatcher.Consistent
  filed : ∀ {subscriberId connection},
    server.connections.get subscriberId = some connection →
      connection.handle.id = subscriberId

theorem sound_initially : (empty : WsServer π σ).Sound where
  consistent := WsDispatcher.shutdown_consistent WsDispatcher.empty
  filed := fun found => by cases found

structure Keeps (subscriberId : String) (before after : WsServer π σ) : Prop where
  sound : after.Sound
  leaves : before.dispatcher.Leaves subscriberId after.dispatcher

variable {subscriberId : String}

theorem keeps_of_serves {before after : WsServer π σ} (sound : before.Sound)
    (serves : before.dispatcher.Serves subscriberId after.dispatcher)
    (same : after.connections = before.connections) :
    before.Keeps subscriberId after :=
  ⟨⟨serves.consistent, by rw [same]; exact sound.filed⟩, serves.leaves⟩

variable {server : WsServer π σ}

theorem Keeps.refl (sound : server.Sound) (subscriberId : String) :
    server.Keeps subscriberId server :=
  ⟨sound, .refl subscriberId server.dispatcher⟩

theorem Keeps.trans {first second third : WsServer π σ}
    (left : first.Keeps subscriberId second) (right : second.Keeps subscriberId third) :
    first.Keeps subscriberId third :=
  ⟨right.sound, left.leaves.trans right.leaves⟩

theorem send_keeps (sound : server.Sound) (subscriberId : String) (connection : Connection)
    (message : ServerMessage π) :
    server.Keeps subscriberId (server.send connection message) :=
  keeps_of_serves sound ⟨sound.consistent.congr rfl rfl rfl, .of_eq rfl⟩ rfl

theorem closeSocket_keeps (sound : server.Sound) (subscriberId : String)
    (connection : Connection) :
    server.Keeps subscriberId (server.closeSocket connection) :=
  keeps_of_serves sound ⟨sound.consistent.congr rfl rfl rfl, .of_eq rfl⟩ rfl

theorem runs_keeps (sound : server.Sound) (subscriberId : String) (runs : RunStateTracker σ) :
    server.Keeps subscriberId { server with runs := runs } :=
  keeps_of_serves sound (.refl sound.consistent subscriberId) rfl

variable {connection : Connection}

theorem sound_set (sound : server.Sound) (own : connection.handle.id = subscriberId)
    {dispatcher : WsDispatcher π} (consistent : dispatcher.Consistent) :
    Sound { server with
      dispatcher := dispatcher
      connections := server.connections.set subscriberId connection } := by
  refine ⟨consistent, ?_⟩
  intro other found there
  rw [OrderedMap.get_set] at there
  split at there
  · rename_i same
    cases there
    rw [own, same]
  · exact sound.filed there

theorem onCancelled_keeps (sound : server.Sound) (subscriberId : String) (now : Int)
    (connection : Connection) (requestId : String) :
    server.Keeps subscriberId (server.onCancelled now connection requestId) := by
  unfold onCancelled
  split
  · split
    · exact .refl sound subscriberId
    · split
      · exact runs_keeps sound subscriberId _
      · exact .refl sound subscriberId
  · exact .refl sound subscriberId

theorem onRunCancel_keeps (sound : server.Sound) (subscriberId : String) (now : Int)
    (connection : Connection) (id : RpcId) (runId : String) :
    server.Keeps subscriberId (server.onRunCancel now connection id runId) := by
  unfold onRunCancel
  split
  · exact send_keeps sound subscriberId connection _
  · split
    · have aborted := runs_keeps sound subscriberId (server.runs.abort now runId).2
      exact aborted.trans (send_keeps aborted.sound subscriberId connection _)
    · exact send_keeps sound subscriberId connection _

variable {subscriptionId : String}

theorem onSubscribe_keeps (sound : server.Sound) (now : Int) (id : RpcId) {subject : String}
    (sinceEventId : Option String)
    (free : (server.dispatcher.accept connection.handle.id subject).toOption.isSome →
      server.dispatcher.Free connection.handle.id subject subscriptionId) :
    server.Keeps connection.handle.id (server.onSubscribe setup now connection id
      subject subscriptionId sinceEventId) := by
  have served := WsDispatcher.subscribe_serves setup sound.consistent now sinceEventId
    free
  unfold onSubscribe
  cases made : server.dispatcher.subscribe setup now connection.handle.id subject
    subscriptionId sinceEventId with
  | mk result dispatcher =>
    rw [made] at served
    have enrolled : server.Keeps connection.handle.id
        { server with dispatcher := dispatcher } :=
      keeps_of_serves sound served rfl
    cases result with
    | error =>
      simp only
      split
      · exact enrolled
      · exact enrolled.trans (send_keeps enrolled.sound _ connection _)
    | ok subscribed =>
      simp only
      obtain ⟨named, owned⟩ := WsDispatcher.subscribe_owned setup made
      have replied := enrolled.trans (send_keeps enrolled.sound connection.handle.id
        connection (.rpcSuccess id (.subscribed subscriptionId subject
          subscribed.snapshotEventId subscribed.replay.events.length)))
      have told := replied.trans (send_keeps replied.sound connection.handle.id
        connection (.subscribed subscriptionId subject subscribed.snapshotEventId))
      refine told.trans (keeps_of_serves told.sound ?_ rfl)
      refine WsDispatcher.dispatchReplay_serves setup told.sound.consistent now ?_
      rw [named]
      exact owned

theorem onUnsubscribe_keeps (sound : server.Sound) (id : RpcId)
    (owned : server.dispatcher.Owned connection.handle.id subscriptionId) :
    server.Keeps connection.handle.id
      (server.onUnsubscribe connection id subscriptionId) := by
  have removed : server.Keeps connection.handle.id
      { server with dispatcher := (server.dispatcher.unsubscribe subscriptionId).2 } :=
    keeps_of_serves sound (WsDispatcher.unsubscribe_serves sound.consistent owned) rfl
  simp only [onUnsubscribe]
  split
  · have replied := removed.trans (send_keeps removed.sound connection.handle.id
      connection (.rpcSuccess id (.unsubscribed subscriptionId)))
    exact replied.trans (send_keeps replied.sound _ connection _)
  · exact removed.trans (send_keeps removed.sound _ connection _)

theorem onMessage_keeps (sound : server.Sound) (now : Int) {incoming : Incoming}
    (admitted : connection.initialized = true →
      AdmitsMessage server.dispatcher connection.handle.id subscriptionId incoming) :
    server.Keeps connection.handle.id
      (server.onMessage setup now connection subscriptionId incoming) := by
  have refused : ∀ (id : RpcId) (code : RpcErrorCode) (text : String),
      server.Keeps connection.handle.id (server.sendRpcError connection id code text) :=
    fun _ _ _ => send_keeps sound _ connection _
  cases incoming with
  | notJson =>
    have told := refused (.number 0) .parseError "Frame is not valid JSON."
    exact told.trans (closeSocket_keeps told.sound _ connection)
  | invalid id =>
    have told := refused (id.getD (.number 0)) .invalidRequest
      "Frame failed schema validation."
    exact told.trans (closeSocket_keeps told.sound _ connection)
  | message message =>
    cases message with
    | cancelled requestId => exact onCancelled_keeps sound _ now connection requestId
    | initializeRequest =>
      have noted : server.Keeps connection.handle.id { server with
          connections := server.connections.set connection.handle.id
            { connection with initialized := true } } :=
        ⟨sound_set sound (by rfl) sound.consistent, .of_eq rfl⟩
      exact noted.trans (send_keeps noted.sound _ connection _)
    | ping _ nonce =>
      have answered := send_keeps sound connection.handle.id connection (.pong nonce)
      exact answered.trans (send_keeps answered.sound _ connection _)
    | subscribe id subject sinceEventId =>
      simp only [onMessage]
      split
      · rename_i ready
        exact onSubscribe_keeps setup sound now id sinceEventId (admitted ready)
      · exact refused _ _ _
    | unsubscribe id named =>
      simp only [onMessage]
      split
      · rename_i ready
        exact onUnsubscribe_keeps sound id (admitted ready)
      · exact refused _ _ _
    | runCancel id runId =>
      simp only [onMessage]
      split
      · exact onRunCancel_keeps sound _ now connection id runId
      · exact refused _ _ _

theorem onClose_keeps (sound : server.Sound) (connection : Connection) :
    server.Keeps connection.handle.id (server.onClose connection) := by
  unfold onClose
  split
  · have served := WsDispatcher.unregister_serves sound.consistent connection.handle.id
    exact ⟨sound_set sound (by rfl) served.consistent, served.leaves⟩
  · exact .refl sound _

theorem step_keeps (sound : server.Sound) {step : ServerStep π}
    (admitted : server.Admits step) : (server.step setup step).Sound ∧
      ∀ sender, step.sender = some sender →
        server.dispatcher.Leaves sender (server.step setup step).dispatcher := by
  have whole : ∀ {subscriberId : String} {after : WsServer π σ},
      step.sender = some subscriberId → server.Keeps subscriberId after →
      after.Sound ∧ ∀ sender, step.sender = some sender →
        server.dispatcher.Leaves sender after.dispatcher := by
    intro subscriberId after sent keeps
    refine ⟨keeps.sound, ?_⟩
    intro sender found
    rw [sent] at found
    cases found
    exact keeps.leaves
  have served : ∀ {dispatcher : WsDispatcher π}, dispatcher.Consistent →
      step.sender = none → Sound { server with dispatcher := dispatcher } ∧
        ∀ sender, step.sender = some sender →
          server.dispatcher.Leaves sender dispatcher := by
    intro dispatcher consistent unsent
    refine ⟨⟨consistent, sound.filed⟩, ?_⟩
    intro sender found
    rw [unsent] at found
    cases found
  cases step with
  | opened =>
    obtain ⟨-, fresh⟩ := admitted
    have registered := WsDispatcher.registerSubscriber_serves sound.consistent
      (Option.isNone_iff_eq_none.mp fresh)
    exact whole rfl ⟨sound_set sound (by rfl) registered.consistent, registered.leaves⟩
  | received now subscriberId =>
    simp only [WsServer.step]
    cases found : server.connections.get subscriberId with
    | none => exact whole rfl (.refl sound subscriberId)
    | some =>
      obtain rfl := sound.filed found
      refine whole rfl (onMessage_keeps setup sound now fun ready => admitted ?_)
      rw [found]
      exact ready
  | closed subscriberId =>
    simp only [WsServer.step]
    cases found : server.connections.get subscriberId with
    | none => exact whole rfl (.refl sound subscriberId)
    | some connection =>
      obtain rfl := sound.filed found
      exact whole rfl (onClose_keeps sound connection)
  | emitted now subject bare =>
    exact served (WsDispatcher.emit_consistent setup sound.consistent now subject bare)
      rfl
  | lifecycle subscriptionId status reason =>
    exact served (WsDispatcher.emitLifecycle_consistent setup sound.consistent
      subscriptionId status reason) rfl
  | shutdown => exact served (WsDispatcher.shutdown_consistent server.dispatcher) rfl

theorem isolated_from (sound : server.Sound) (steps : List (ServerStep π))
    (follows : server.Follows setup steps) : server.Isolated setup steps := by
  induction steps generalizing server with
  | nil => exact sound.consistent
  | cons first rest ih =>
    obtain ⟨kept, leaves⟩ := step_keeps setup sound follows.1
    exact ⟨sound.consistent, leaves, ih kept follows.2⟩

end WsServer

/-- In every run whose connections unsubscribe only what is their own, the three
indexes agree in every state, and no connection adds, removes or alters a
subscription of another. -/
theorem connections_isolated (steps : List (ServerStep π))
    (follows : (WsServer.empty : WsServer π σ).Follows setup steps) :
    (WsServer.empty : WsServer π σ).Isolated setup steps :=
  WsServer.isolated_from setup WsServer.sound_initially steps follows

/-- Default limits, idle sockets, and no commentary to take out. -/
def plainSetup : DispatcherSetup Unit where
  sanitizer := ⟨fun _ _ payload => payload⟩
  replayOptions := ⟨1000, 300000⟩
  perConnectionQueueLimit := 1000
  link := fun _ => ⟨0, false⟩

/-- Two connections, and a subscription of the first. -/
def twoConnections : List (ServerStep Unit) :=
  [.opened ⟨"first", "t1", [.twoSegment "sessions" "read" "sessions:read"], .ws⟩,
    .received 0 "first" "" (.message (.initializeRequest (.number 1))),
    .received 1 "first" "first-1"
      (.message (.subscribe (.number 2) "session:s/events" none)),
    .opened ⟨"second", "t2", [], .ws⟩,
    .received 2 "second" "" (.message (.initializeRequest (.number 1)))]

/-- The second unsubscribes nothing, and the first its own. -/
theorem own_unsubscribe_isolated :
    (WsServer.empty : WsServer Unit Unit).Isolated plainSetup (twoConnections ++
      [.received 3 "second" "" (.message (.unsubscribe (.number 2) "second-1")),
        .received 4 "first" "" (.message (.unsubscribe (.number 3) "first-1"))]) :=
  connections_isolated plainSetup _ (by decide)

/-- The second unsubscribes what is the first's. -/
theorem stray_unsubscribe_removes : ¬ ∀ steps : List (ServerStep Unit),
      (WsServer.empty : WsServer Unit Unit).Isolated plainSetup steps := by
  intro isolated
  have whole := isolated (twoConnections ++
    [.received 3 "second" "" (.message (.unsubscribe (.number 2) "first-1"))])
  have leaves := whole.2.2.2.2.2.2.2.2.2.2.2.1 "second" rfl "first-1"
    ⟨"first", "t1", "first-1", "session:s/events", .sessionEvents "s", 1, none⟩
    (by decide)
  have kept := leaves.mpr (by decide)
  exact absurd kept (by decide)

end Graphorin.Server
