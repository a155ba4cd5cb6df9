import Graphorin.Server.Sse

namespace Graphorin.Server

open Graphorin.Lib

/-! What the dispatcher hands to the one subscription of an event stream. -/

namespace WsDispatcher

variable {π : Type} (setup : DispatcherSetup π)
  {subscriberId subscriptionId subject : String} {ids : List String}

structure Streams (dispatcher : WsDispatcher π)
    (subscriberId subscriptionId subject : String) : Prop where
  subscriber : ∃ handle, handle.transport = .sse ∧
    dispatcher.subscribers.get subscriberId = some ⟨handle, [subscriptionId], 0, false⟩
  record : ∃ record, dispatcher.subscriptions.get subscriptionId = some record ∧
    record.subscriptionId = subscriptionId ∧ record.subscriberId = subscriberId ∧
    record.subject = subject
  once : ((dispatcher.subjectIndex.get subject).getD []).count subscriptionId = 1

structure Hands (subscriberId subscriptionId subject : String)
    (before after : WsDispatcher π) (news : List (Delivery π)) : Prop where
  consistent : after.Consistent
  streams : after.Streams subscriberId subscriptionId subject
  heard : after.deliveriesTo subscriberId = before.deliveriesTo subscriberId ++ news
  buffer : after.replayBuffer = before.replayBuffer

variable {news : List (Delivery π)}

theorem Hands.trans {first second third : WsDispatcher π} {more : List (Delivery π)}
    (left : first.Hands subscriberId subscriptionId subject second news)
    (right : second.Hands subscriberId subscriptionId subject third more) :
    first.Hands subscriberId subscriptionId subject third (news ++ more) :=
  ⟨right.consistent, right.streams,
    by rw [right.heard, left.heard, List.append_assoc],
    right.buffer.trans left.buffer⟩

variable {dispatcher : WsDispatcher π}

theorem Streams.congr {other : WsDispatcher π}
    (streams : dispatcher.Streams subscriberId subscriptionId subject)
    (subscribers : other.subscribers = dispatcher.subscribers)
    (subscriptions : other.subscriptions = dispatcher.subscriptions)
    (subjectIndex : other.subjectIndex = dispatcher.subjectIndex) :
    other.Streams subscriberId subscriptionId subject := by
  obtain ⟨subscriber, record, once⟩ := streams
  exact ⟨by rwa [subscribers], by rwa [subscriptions], by rwa [subjectIndex]⟩

variable {other : String} {record : SubscriptionRecord}

/-- Whatever is the stream's is its one subscription. -/
theorem Streams.sole (streams : dispatcher.Streams subscriberId subscriptionId subject)
    (consistent : dispatcher.Consistent)
    (found : dispatcher.subscriptions.get other = some record)
    (own : record.subscriberId = subscriberId) : other = subscriptionId := by
  obtain ⟨handle, -, there⟩ := streams.subscriber
  obtain ⟨subscriber, found', member⟩ :=
    (consistent.listed subscriberId other).mpr ⟨record, found, own⟩
  rw [there] at found'
  cases found'
  simpa using member

theorem count_deindex (dispatcher : WsDispatcher π) (apart : other ≠ subscriptionId)
    (other' : String) :
    (((dispatcher.deindexSubject other' other).subjectIndex.get subject).getD []).count
        subscriptionId =
      ((dispatcher.subjectIndex.get subject).getD []).count subscriptionId := by
  unfold deindexSubject
  cases found : dispatcher.subjectIndex.get other' with
  | none => rfl
  | some set =>
    have kept : (set.filter (· ≠ other)).count subscriptionId =
        set.count subscriptionId := by
      rw [List.count_filter]
      simpa using Ne.symm apart
    by_cases same : subject = other'
    · subst same
      by_cases last : set.filter (· ≠ other) = []
      · simp only [last, if_true, OrderedMap.get_delete, found, Option.getD_none,
          Option.getD_some, List.count_nil]
        rw [last, List.count_nil] at kept
        exact kept
      · simp only [last, if_false, OrderedMap.get_set, if_true, found,
          Option.getD_some]
        exact kept
    · have alike : ∀ set' : List String,
          (if set' = [] then dispatcher.subjectIndex.delete other'
            else dispatcher.subjectIndex.set other' set').get subject =
            dispatcher.subjectIndex.get subject := by
        intro set'
        split
        · rw [OrderedMap.get_delete, if_neg same]
        · rw [OrderedMap.get_set, if_neg same]
      simp only [alike]

theorem Streams.drop (streams : dispatcher.Streams subscriberId subscriptionId subject)
    (apart : other ≠ subscriptionId) :
    (dispatcher.dropSubscription other).Streams subscriberId subscriptionId subject := by
  refine ⟨?_, ?_, ?_⟩
  · rw [dropSubscription_subscribers]
    exact streams.subscriber
  · rw [dropSubscription_get, if_neg (Ne.symm apart)]
    exact streams.record
  · unfold dropSubscription
    cases dispatcher.subscriptions.get other with
    | none => exact streams.once
    | some record => exact (count_deindex dispatcher apart record.subject).trans streams.once

/-- Taking subscriptions away hands nothing out. -/
theorem dropAll_quiet (dropped : List String) (dispatcher : WsDispatcher π) :
    (dropped.foldl dropSubscription dispatcher).deliveries = dispatcher.deliveries ∧
      (dropped.foldl dropSubscription dispatcher).replayBuffer =
        dispatcher.replayBuffer := by
  induction dropped generalizing dispatcher with
  | nil => exact ⟨rfl, rfl⟩
  | cons first _ ih =>
    obtain ⟨deliveries, buffer⟩ := ih (dispatcher.dropSubscription first)
    rw [List.foldl_cons, deliveries, buffer]
    unfold dropSubscription
    split
    · exact ⟨rfl, rfl⟩
    · unfold deindexSubject
      split
      · exact ⟨rfl, rfl⟩
      · exact ⟨rfl, rfl⟩

theorem deliveriesTo_deliver (dispatcher : WsDispatcher π) (delivery : Delivery π) :
    (dispatcher.deliver delivery).deliveriesTo subscriberId =
      dispatcher.deliveriesTo subscriberId ++
        if delivery.recipient = subscriberId then [delivery] else [] := by
  simp only [deliveriesTo, deliver, List.filter_append, List.filter_cons,
    List.filter_nil, decide_eq_true_eq]

theorem Streams.expel (streams : dispatcher.Streams subscriberId subscriptionId subject)
    (consistent : dispatcher.Consistent) (apart : other ≠ subscriberId)
    {subscriber : SubscriberRecord}
    (found : dispatcher.subscribers.get other = some subscriber) :
    (dispatcher.expel other subscriber).Streams subscriberId subscriptionId subject := by
  have dropped : ∀ (names : List String) {dispatcher : WsDispatcher π},
      subscriptionId ∉ names →
      dispatcher.Streams subscriberId subscriptionId subject →
      (names.foldl dropSubscription dispatcher).Streams subscriberId subscriptionId
        subject := by
    intro names
    induction names with
    | nil => exact fun _ streams => streams
    | cons first rest ih =>
      intro dispatcher absent streams
      simp only [List.mem_cons, not_or] at absent
      exact ih absent.2 (streams.drop (Ne.symm absent.1))
  have absent : subscriptionId ∉ subscriber.subscriptions := by
    intro member
    obtain ⟨record, there, own⟩ :=
      (consistent.listed other subscriptionId).mp ⟨subscriber, found, member⟩
    obtain ⟨record', there', -, own', -⟩ := streams.record
    rw [there] at there'
    cases there'
    exact apart (own.symm.trans own')
  obtain ⟨handle, kind, there⟩ := streams.subscriber
  have kept := dropped subscriber.subscriptions absent streams
  refine ⟨⟨handle, kind, ?_⟩, kept.record, kept.once⟩
  rw [WsDispatcher.expel, deleteSubscriber, OrderedMap.get_delete,
    if_neg (Ne.symm apart), dropAll_subscribers]
  exact there

theorem shutdownSubscriber_spares
    (streams : dispatcher.Streams subscriberId subscriptionId subject)
    (consistent : dispatcher.Consistent) (apart : other ≠ subscriberId)
    (found : dispatcher.subscribers.get other = some subscriber) (code : Nat)
    (reason : String) : dispatcher.Hands subscriberId subscriptionId subject
      (dispatcher.shutdownSubscriber subscriber code reason) [] := by
  obtain ⟨handle, closed⟩ := consistent.handled found
  have served := (shutdownSubscriber_serves consistent found code reason).consistent
  have told : (dispatcher.deliver (.closed subscriber.handle.id code reason)).Consistent :=
    consistent.congr rfl rfl rfl
  simp only [shutdownSubscriber, closed, Bool.false_eq_true, if_false] at served ⊢
  obtain ⟨deliveries, buffer⟩ := dropAll_quiet subscriber.subscriptions
    (dispatcher.deliver (.closed subscriber.handle.id code reason))
  refine ⟨served, ?_, ?_, buffer⟩
  · rw [handle]
    rw [handle] at told
    have streams' : (dispatcher.deliver (.closed other code reason)).Streams subscriberId
        subscriptionId subject := streams.congr rfl rfl rfl
    exact streams'.expel told apart found
  · refine (congrArg (List.filter _) deliveries).trans ?_
    exact (deliveriesTo_deliver dispatcher _).trans
      (by rw [Delivery.recipient, handle, if_neg apart])

theorem dispatchToSubscriber_spares
    (streams : dispatcher.Streams subscriberId subscriptionId subject)
    (consistent : dispatcher.Consistent) (foreign : record.subscriberId ≠ subscriberId)
    (frame : ServerMessage π) : dispatcher.Hands subscriberId subscriptionId subject
      (dispatcher.dispatchToSubscriber setup record frame) [] := by
  have served := (dispatchToSubscriber_serves setup consistent record frame).consistent
  have same : dispatcher.Hands subscriberId subscriptionId subject dispatcher [] :=
    ⟨consistent, streams, (List.append_nil _).symm, rfl⟩
  unfold dispatchToSubscriber at served ⊢
  cases found : dispatcher.subscribers.get record.subscriberId with
  | none => exact same
  | some =>
    rw [found] at served
    simp only at served ⊢
    have streams' : { dispatcher with samples := dispatcher.samples + 1 }.Streams
        subscriberId subscriptionId subject := streams.congr rfl rfl rfl
    have consistent' : { dispatcher with
        samples := dispatcher.samples + 1 }.Consistent :=
      consistent.congr rfl rfl rfl
    have shut := shutdownSubscriber_spares streams' consistent' foreign found 4006
      "flow.throttled"
    split
    · exact same
    · split
      · exact ⟨shut.consistent, shut.streams, shut.heard, shut.buffer⟩
      · split
        · exact ⟨shut.consistent, shut.streams, shut.heard, shut.buffer⟩
        · refine ⟨consistent.congr rfl rfl rfl, streams.congr rfl rfl rfl, ?_, rfl⟩
          refine (deliveriesTo_deliver { dispatcher with
            samples := dispatcher.samples + 1 } _).trans ?_
          rw [Delivery.recipient, if_neg foreign]
          rfl

/-- The stream itself is handed every frame: it has no buffer to fill, and does
not throw. -/
theorem dispatchToSubscriber_hands (positive : 0 < setup.perConnectionQueueLimit)
    (streams : dispatcher.Streams subscriberId subscriptionId subject)
    (consistent : dispatcher.Consistent) (own : record.subscriberId = subscriberId)
    (frame : ServerMessage π) : dispatcher.Hands subscriberId subscriptionId subject
      (dispatcher.dispatchToSubscriber setup record frame)
      [.sent subscriberId frame] := by
  obtain ⟨handle, kind, found⟩ := streams.subscriber
  have sent : dispatcher.dispatchToSubscriber setup record frame =
      { dispatcher with samples := dispatcher.samples + 1 }.deliver
        (.sent subscriberId frame) := by
    simp only [dispatchToSubscriber, own, found, sampleFor, kind, Bool.false_eq_true,
      if_false]
    rw [if_neg]
    omega
  rw [sent]
  refine ⟨consistent.congr rfl rfl rfl, streams.congr rfl rfl rfl, ?_, rfl⟩
  refine (deliveriesTo_deliver { dispatcher with
    samples := dispatcher.samples + 1 } _).trans ?_
  rw [Delivery.recipient, if_pos rfl]
  rfl

theorem advance_keeps {before : WsDispatcher π}
    (hands : before.Hands subscriberId subscriptionId subject dispatcher news)
    (owned : dispatcher.Owned record.subscriberId record.subscriptionId) (eventId : String)
    : before.Hands subscriberId subscriptionId subject
      (dispatcher.advance record eventId) news := by
  have served := (advance_serves hands.consistent owned eventId).consistent
  unfold advance at served ⊢
  cases found : dispatcher.subscriptions.get record.subscriptionId with
  | none => exact hands
  | some =>
    rw [found] at served
    obtain ⟨-, ⟨subscriber, ⟨record', there, facts⟩, once⟩, heard, buffer⟩ := hands
    refine ⟨served, ⟨subscriber, ?_, once⟩, heard, buffer⟩
    simp only [OrderedMap.get_set]
    by_cases same : subscriptionId = record.subscriptionId
    · rw [same] at there
      rw [found] at there
      cases there
      exact ⟨_, if_pos same, facts⟩
    · exact ⟨record', by rw [if_neg same]; exact there, facts⟩

theorem dispatchSanitized_spares
    (streams : dispatcher.Streams subscriberId subscriptionId subject)
    (consistent : dispatcher.Consistent) (foreign : record.subscriberId ≠ subscriberId)
    (owned : dispatcher.Owned record.subscriberId record.subscriptionId)
    (frame : ServerEventFrame π) :
    dispatcher.Hands subscriberId subscriptionId subject
      (dispatcher.dispatchSanitized setup record frame) [] := by
  have served := validateAndDispatch_serves setup consistent record
    (.event (setup.sanitizer.sanitize frame .ws))
  refine advance_keeps ?_ (served.leaves.owned owned) _
  unfold validateAndDispatch
  split
  · exact dispatchToSubscriber_spares setup streams consistent foreign _
  · exact ⟨consistent, streams, (List.append_nil _).symm, rfl⟩

variable {frame : ServerEventFrame π}

theorem dispatchSanitized_hands (positive : 0 < setup.perConnectionQueueLimit)
    (streams : dispatcher.Streams subscriberId subscriptionId subject)
    (consistent : dispatcher.Consistent) (own : record.subscriberId = subscriberId)
    (owned : dispatcher.Owned record.subscriberId record.subscriptionId)
    (valid : (ServerMessage.event (setup.sanitizer.sanitize frame .ws)).valid = true) :
    dispatcher.Hands subscriberId subscriptionId subject
      (dispatcher.dispatchSanitized setup record frame)
      [.sent subscriberId (.event (setup.sanitizer.sanitize frame .ws))] := by
  have served := validateAndDispatch_serves setup consistent record
    (.event (setup.sanitizer.sanitize frame .ws))
  refine advance_keeps ?_ (served.leaves.owned owned) _
  rw [validateAndDispatch, if_pos valid]
  exact dispatchToSubscriber_hands setup positive streams consistent own _

theorem dispatchToSubscriber_buffer (dispatcher : WsDispatcher π)
    (record : SubscriptionRecord) (frame : ServerMessage π) :
    (dispatcher.dispatchToSubscriber setup record frame).replayBuffer =
      dispatcher.replayBuffer := by
  have shut : ∀ (dispatcher : WsDispatcher π) (subscriber : SubscriberRecord),
      (dispatcher.shutdownSubscriber subscriber 4006 "flow.throttled").replayBuffer =
        dispatcher.replayBuffer := by
    intro dispatcher subscriber
    unfold shutdownSubscriber
    split
    · rfl
    · exact (dropAll_quiet subscriber.subscriptions _).2
  unfold dispatchToSubscriber
  split
  · rfl
  · simp only
    split
    · rfl
    · split
      · exact shut _ _
      · split
        · exact shut _ _
        · rfl

theorem validateAndDispatch_buffer (dispatcher : WsDispatcher π)
    (record : SubscriptionRecord) (frame : ServerMessage π) :
    (dispatcher.validateAndDispatch setup record frame).replayBuffer =
      dispatcher.replayBuffer := by
  unfold validateAndDispatch
  split
  · exact dispatchToSubscriber_buffer setup dispatcher record frame
  · rfl

theorem dispatchSanitized_buffer (dispatcher : WsDispatcher π)
    (record : SubscriptionRecord) (frame : ServerEventFrame π) :
    (dispatcher.dispatchSanitized setup record frame).replayBuffer =
      dispatcher.replayBuffer := by
  refine Eq.trans ?_ (validateAndDispatch_buffer setup dispatcher record
    (.event (setup.sanitizer.sanitize frame .ws)))
  simp only [dispatchSanitized, advance]
  split
  · rfl
  · rfl

/-- Admitted by the wire schema, once it is addressed. -/
def Wellformed (frame : ServerEventFrame π) : Prop :=
  frame.eventId ≠ "" ∧ frame.subject ≠ "" ∧ frame.type ≠ ""

theorem Wellformed.valid (wellformed : Wellformed frame) (sanitizer : Sanitizer π)
    (named : name ≠ "") (transport : Transport) :
    (ServerMessage.event (sanitizer.sanitize { frame with subscriptionId := name }
      transport)).valid = true := by
  obtain ⟨id, subject, type⟩ := wellformed
  simp [ServerMessage.valid, Sanitizer.sanitize, id, subject, type, named]

def handed (setup : DispatcherSetup π) (subscriberId subscriptionId : String)
    (frame : ServerEventFrame π) : Delivery π :=
  .sent subscriberId (.event (setup.sanitizer.sanitize
    { frame with subscriptionId := subscriptionId } .ws))

theorem Consistent.owned (consistent : dispatcher.Consistent)
    (found : dispatcher.subscriptions.get other = some record) :
    dispatcher.Owned record.subscriberId record.subscriptionId := by
  intro current there
  rw [consistent.named found, found] at there
  cases there
  rfl

theorem fanOut_hands (positive : 0 < setup.perConnectionQueueLimit)
    (streams : dispatcher.Streams subscriberId subscriptionId subject)
    (consistent : dispatcher.Consistent) (named : subscriptionId ≠ "")
    (wellformed : Wellformed frame) :
    dispatcher.Hands subscriberId subscriptionId subject
      (dispatcher.fanOut setup frame subscriptionId)
      [handed setup subscriberId subscriptionId frame] := by
  obtain ⟨record, found, -, own, -⟩ := streams.record
  simp only [fanOut, found]
  exact dispatchSanitized_hands setup positive streams consistent own
    (consistent.owned found) (wellformed.valid setup.sanitizer named .ws)

theorem fanOut_spares (streams : dispatcher.Streams subscriberId subscriptionId subject)
    (consistent : dispatcher.Consistent) (apart : other ≠ subscriptionId)
    (frame : ServerEventFrame π) :
    dispatcher.Hands subscriberId subscriptionId subject
      (dispatcher.fanOut setup frame other) [] := by
  unfold fanOut
  cases found : dispatcher.subscriptions.get other with
  | none => exact ⟨consistent, streams, (List.append_nil _).symm, rfl⟩
  | some =>
    exact dispatchSanitized_spares setup streams consistent
      (fun own => apart (streams.sole consistent found own))
      (consistent.owned found) _

/-- The loop of `emit` hands the stream the event as often as it meets it. -/
theorem fanOutAll_hands (positive : 0 < setup.perConnectionQueueLimit)
    (named : subscriptionId ≠ "") (wellformed : subscriptionId ∈ ids → Wellformed frame)
    (streams : dispatcher.Streams subscriberId subscriptionId subject)
    (consistent : dispatcher.Consistent) :
    dispatcher.Hands subscriberId subscriptionId subject
      (ids.foldl (fanOut setup frame) dispatcher)
      (List.replicate (ids.count subscriptionId)
        (handed setup subscriberId subscriptionId frame)) := by
  induction ids generalizing dispatcher with
  | nil => exact ⟨consistent, streams, (List.append_nil _).symm, rfl⟩
  | cons head _ ih =>
    have rest' := fun member => wellformed (List.mem_cons_of_mem head member)
    by_cases here : head = subscriptionId
    · subst here
      have own := fanOut_hands setup positive streams consistent named
        (wellformed List.mem_cons_self)
      rw [List.count_cons_self, List.replicate_succ, ← List.singleton_append]
      exact own.trans (ih rest' own.streams own.consistent)
    · have other := fanOut_spares setup streams consistent here frame
      rw [List.count_cons_of_ne here]
      exact other.trans (ih rest' other.streams other.consistent)

/-- What `emit` has done before its loop. -/
def buffered (now : Int) (subject : String) (bare : BareEventFrame π)
    (dispatcher : WsDispatcher π) : WsDispatcher π :=
  let counted :=
    match bare.eventId with
    | some _ => dispatcher
    | none => (dispatcher.nextEventId now).2
  { counted with
    replayBuffer := dispatcher.replayBuffer.push setup.replayOptions now subject
      (dispatcher.emittedFrame now subject bare) }

theorem emit_eq (now : Int) (subject : String) (bare : BareEventFrame π)
    (dispatcher : WsDispatcher π) : dispatcher.emit setup now subject bare =
      ((dispatcher.subjectIndex.get subject).getD []).foldl
        (fanOut setup (dispatcher.emittedFrame now subject bare))
        (dispatcher.buffered setup now subject bare) := by
  unfold emit buffered emittedFrame
  cases bare.eventId with
  | none => rfl
  | some => rfl

theorem buffered_indexes (now : Int) (subject : String) (bare : BareEventFrame π)
    (dispatcher : WsDispatcher π) :
    let after := dispatcher.buffered setup now subject bare
    after.subscribers = dispatcher.subscribers ∧
      after.subscriptions = dispatcher.subscriptions ∧
      after.subjectIndex = dispatcher.subjectIndex ∧
      after.deliveries = dispatcher.deliveries := by
  unfold buffered
  cases bare.eventId with
  | none => exact ⟨rfl, rfl, rfl, rfl⟩
  | some => exact ⟨rfl, rfl, rfl, rfl⟩

/-- An event of the subject reaches the stream once, an event of another subject
not at all. -/
theorem emit_hands (positive : 0 < setup.perConnectionQueueLimit)
    (streams : dispatcher.Streams subscriberId subscriptionId subject)
    (consistent : dispatcher.Consistent) (named : subscriptionId ≠ "") (now : Int)
    (emitted : String) (bare : BareEventFrame π)
    (wellformed : emitted = subject → Wellformed (dispatcher.emittedFrame now emitted bare)) :
    (dispatcher.buffered setup now emitted bare).Hands subscriberId subscriptionId
      subject (dispatcher.emit setup now emitted bare)
      (if emitted = subject then
        [handed setup subscriberId subscriptionId
          (dispatcher.emittedFrame now emitted bare)]
      else []) := by
  obtain ⟨subscribers, subscriptions, subjectIndex, -⟩ :=
    buffered_indexes setup now emitted bare dispatcher
  have streams' := streams.congr subscribers subscriptions subjectIndex
  have consistent' := consistent.congr subscribers subscriptions subjectIndex
  have only : subscriptionId ∈ (dispatcher.subjectIndex.get emitted).getD [] →
      emitted = subject := by
    intro member
    obtain ⟨record, there, -, -, about⟩ := streams.record
    cases found : dispatcher.subjectIndex.get emitted with
    | none =>
      rw [found] at member
      cases member
    | some set =>
      rw [found] at member
      obtain ⟨record', there', about'⟩ :=
        (consistent.indexed emitted subscriptionId).mp ⟨set, found, member⟩
      rw [there] at there'
      cases there'
      exact about'.symm.trans about
  have times : ((dispatcher.subjectIndex.get emitted).getD []).count subscriptionId =
      if emitted = subject then 1 else 0 := by
    split
    · rename_i same
      rw [same]
      exact streams.once
    · rename_i apart
      exact List.count_eq_zero.mpr fun member => apart (only member)
  have all := fanOutAll_hands setup positive named
    (fun member => wellformed (only member)) streams' consistent'
  rw [times] at all
  rw [emit_eq]
  split
  · rename_i same
    rw [if_pos same] at all
    exact all
  · rename_i apart
    rw [if_neg apart] at all
    exact all

theorem validateAndDispatch_hands (positive : 0 < setup.perConnectionQueueLimit)
    (streams : dispatcher.Streams subscriberId subscriptionId subject)
    (consistent : dispatcher.Consistent) (record : SubscriptionRecord)
    (message : ServerMessage π) :
    ∃ news, dispatcher.Hands subscriberId subscriptionId subject
      (dispatcher.validateAndDispatch setup record message) news ∧
      ∀ delivery ∈ news, delivery = .sent subscriberId message := by
  have silent : ∀ {after : WsDispatcher π},
      dispatcher.Hands subscriberId subscriptionId subject after [] →
      ∃ news, dispatcher.Hands subscriberId subscriptionId subject after news ∧
        ∀ delivery ∈ news, delivery = .sent subscriberId message :=
    fun hands => ⟨[], hands, by rintro _ ⟨⟩⟩
  unfold validateAndDispatch
  split
  · by_cases own : record.subscriberId = subscriberId
    · refine ⟨_, dispatchToSubscriber_hands setup positive streams consistent own _, ?_⟩
      intro delivery member
      exact List.mem_singleton.mp member
    · exact silent (dispatchToSubscriber_spares setup streams consistent own _)
  · exact silent ⟨consistent, streams, (List.append_nil _).symm, rfl⟩

theorem emitLifecycle_hands (positive : 0 < setup.perConnectionQueueLimit)
    (streams : dispatcher.Streams subscriberId subscriptionId subject)
    (consistent : dispatcher.Consistent) (other : String) (status : LifecycleStatus)
    (reason : Option String) :
    ∃ news, dispatcher.Hands subscriberId subscriptionId subject
      (dispatcher.emitLifecycle setup other status reason) news ∧
      ∀ delivery ∈ news, ∃ frame,
        delivery = .sent subscriberId (.lifecycle frame) := by
  unfold emitLifecycle
  split
  · exact ⟨[], ⟨consistent, streams, (List.append_nil _).symm, rfl⟩,
      by rintro _ ⟨⟩⟩
  · obtain ⟨news, hands, all⟩ := validateAndDispatch_hands setup positive streams
      consistent _ _
    exact ⟨news, hands, fun delivery member => ⟨_, all delivery member⟩⟩

theorem dispatchReplay_hands (positive : 0 < setup.perConnectionQueueLimit)
    (named : subscriptionId ≠ "") (now : Int) {subscribed : Subscribed π}
    (same : subscribed.subscriptionId = subscriptionId)
    (streams : dispatcher.Streams subscriberId subscriptionId subject)
    (consistent : dispatcher.Consistent)
    (wellformed : ∀ event ∈ subscribed.replay.events, Wellformed event) :
    ∃ extra, dispatcher.Hands subscriberId subscriptionId subject
      (dispatcher.dispatchReplay setup now subscribed)
      (subscribed.replay.events.map (handed setup subscriberId subscriptionId) ++
        extra) ∧ ∀ delivery ∈ extra, ∃ frame,
        delivery = .sent subscriberId (.replayMarker frame) := by
  have replayed : ∀ (events : List (ServerEventFrame π)) {dispatcher : WsDispatcher π},
      (∀ event ∈ events, Wellformed event) →
      dispatcher.Streams subscriberId subscriptionId subject → dispatcher.Consistent →
      dispatcher.Hands subscriberId subscriptionId subject
        (events.foldl (dispatchReplayed setup subscriptionId) dispatcher)
        (events.map (handed setup subscriberId subscriptionId)) := by
    intro events
    induction events with
    | nil =>
      exact fun _ streams consistent =>
        ⟨consistent, streams, (List.append_nil _).symm, rfl⟩
    | cons event _ ih =>
      intro dispatcher wellformed streams consistent
      have first : dispatcher.Hands subscriberId subscriptionId subject
          (dispatcher.dispatchReplayed setup subscriptionId event)
          [handed setup subscriberId subscriptionId event] :=
        fanOut_hands setup positive streams consistent named
          (wellformed event List.mem_cons_self)
      exact first.trans (ih (fun other member =>
        wellformed other (List.mem_cons_of_mem event member)) first.streams
        first.consistent)
  have sent := replayed subscribed.replay.events wellformed streams consistent
  simp only [dispatchReplay, same]
  have plain : ∃ extra, dispatcher.Hands subscriberId subscriptionId subject
      (subscribed.replay.events.foldl (dispatchReplayed setup subscriptionId) dispatcher)
      (subscribed.replay.events.map (handed setup subscriberId subscriptionId) ++
        extra) ∧
      ∀ delivery ∈ extra, ∃ frame,
        delivery = .sent subscriberId (.replayMarker frame) :=
    ⟨[], by rwa [List.append_nil], by rintro _ ⟨⟩⟩
  split
  · split
    · exact plain
    · obtain ⟨extra, marked, all⟩ := validateAndDispatch_hands setup positive
        sent.streams sent.consistent _ _
      exact ⟨extra, sent.trans marked, fun delivery member => ⟨_, all delivery member⟩⟩
  · exact plain

theorem subscribe_streams (consistent : dispatcher.Consistent)
    (kind : handle.transport = .sse) (fresh : dispatcher.subscribers.get handle.id = none)
    (free : dispatcher.subscriptions.get subscriptionId = none)
    (accepted : (dispatcher.registerSubscriber handle).subscribe setup now handle.id subject
      subscriptionId sinceEventId = (.ok subscribed, final)) :
    final.Consistent ∧ final.Streams handle.id subscriptionId subject ∧
      subscribed.subscriptionId = subscriptionId ∧
      (subscribed.replay, final.replayBuffer) =
        dispatcher.replayBuffer.replay setup.replayOptions now subject sinceEventId := by
  have registered := (registerSubscriber_serves consistent fresh).consistent
  have found : (dispatcher.registerSubscriber handle).subscribers.get handle.id =
      some ⟨handle, [], 0, false⟩ := by
    rw [registerSubscriber, OrderedMap.get_set, if_pos rfl]
  have unused : (dispatcher.registerSubscriber handle).Free handle.id subject
      subscriptionId := by
    intro current there
    have absent : (dispatcher.registerSubscriber handle).subscriptions.get
      subscriptionId = none := free
    rw [absent] at there
    cases there
  have served := subscribe_serves setup registered now sinceEventId fun _ => unused
  rw [accepted] at served
  refine ⟨served.consistent, ?_⟩
  have unlisted : subscriptionId ∉ (dispatcher.subjectIndex.get subject).getD [] := by
    intro member
    cases there : dispatcher.subjectIndex.get subject with
    | none =>
      rw [there] at member
      cases member
    | some set =>
      rw [there] at member
      obtain ⟨record, there', -⟩ :=
        (consistent.indexed subject subscriptionId).mp ⟨set, there, member⟩
      rw [free] at there'
      cases there'
  unfold subscribe at accepted
  cases checked : (dispatcher.registerSubscriber handle).accept handle.id subject with
  | error =>
    rw [checked] at accepted
    cases accepted
  | ok both =>
    obtain ⟨subscriber, parsed⟩ := both
    rw [checked] at accepted
    have there := accept_found checked
    rw [found] at there
    cases there
    cases accepted
    refine ⟨⟨⟨handle, kind, ?_⟩, ?_, ?_⟩, rfl, rfl⟩
    · simp [enroll, indexSubject, OrderedMap.get_set]
    · refine ⟨⟨handle.id, handle.tokenId, subscriptionId, subject, parsed, now, none⟩,
        ?_, rfl, rfl, rfl⟩
      simp [enroll, indexSubject, OrderedMap.get_set]
    · simp only [enroll, indexSubject, OrderedMap.get_set, if_true, Option.getD_some,
        registerSubscriber]
      rw [List.insert_of_not_mem unlisted, List.count_cons_self,
        List.count_eq_zero.mpr unlisted]

end WsDispatcher

end Graphorin.Server
