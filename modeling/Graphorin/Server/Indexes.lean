import Graphorin.Server.Dispatcher

namespace Graphorin.Server

open Graphorin.Lib

/-! The three indexes say the same. -/

namespace WsDispatcher

variable {π : Type}

def Listed (dispatcher : WsDispatcher π) (subscriberId subscriptionId : String) :
    Prop :=
  ∃ subscriber, dispatcher.subscribers.get subscriberId = some subscriber ∧
    subscriptionId ∈ subscriber.subscriptions

def Indexed (dispatcher : WsDispatcher π) (subject subscriptionId : String) :
    Prop :=
  ∃ set, dispatcher.subjectIndex.get subject = some set ∧ subscriptionId ∈ set

/-- The subject index against the subscriptions. -/
structure Filed (dispatcher : WsDispatcher π) : Prop where
  named : ∀ {subscriptionId record},
    dispatcher.subscriptions.get subscriptionId = some record →
      record.subscriptionId = subscriptionId
  indexed : ∀ subject subscriptionId,
    dispatcher.Indexed subject subscriptionId ↔
      ∃ record, dispatcher.subscriptions.get subscriptionId = some record ∧
        record.subject = subject
  occupied : ∀ subject, dispatcher.subjectIndex.get subject ≠ some []

structure Consistent (dispatcher : WsDispatcher π) : Prop extends
    dispatcher.Filed where
  listed : ∀ subscriberId subscriptionId,
    dispatcher.Listed subscriberId subscriptionId ↔
      ∃ record, dispatcher.subscriptions.get subscriptionId = some record ∧
        record.subscriberId = subscriberId
  handled : ∀ {subscriberId subscriber},
    dispatcher.subscribers.get subscriberId = some subscriber →
      subscriber.handle.id = subscriberId ∧ subscriber.closed = false

variable {dispatcher : WsDispatcher π}

theorem Consistent.congr {other : WsDispatcher π} (consistent : dispatcher.Consistent)
    (subscribers : other.subscribers = dispatcher.subscribers)
    (subscriptions : other.subscriptions = dispatcher.subscriptions)
    (subjectIndex : other.subjectIndex = dispatcher.subjectIndex) :
    other.Consistent := by
  obtain ⟨⟨named, indexed, occupied⟩, listed, handled⟩ := consistent
  refine ⟨⟨?_, ?_, ?_⟩, ?_, ?_⟩
  · rwa [subscriptions]
  · simpa only [Indexed, subscriptions, subjectIndex] using indexed
  · rwa [subjectIndex]
  · simpa only [Listed, subscriptions, subscribers] using listed
  · rwa [subscribers]

theorem indexed_deindex (dispatcher : WsDispatcher π)
    (subject subscriptionId other otherId : String) :
    (dispatcher.deindexSubject subject subscriptionId).Indexed other otherId ↔
      dispatcher.Indexed other otherId ∧
        ¬ (other = subject ∧ otherId = subscriptionId) := by
  unfold deindexSubject
  cases found : dispatcher.subjectIndex.get subject with
  | none =>
    refine ⟨fun indexed => ⟨indexed, ?_⟩, And.left⟩
    rintro ⟨rfl, -⟩
    obtain ⟨set, there, -⟩ := indexed
    rw [found] at there
    cases there
  | some set =>
    by_cases same : other = subject
    · subst same
      by_cases last : set.filter (· ≠ subscriptionId) = []
      · simp only [last, if_true, Indexed, OrderedMap.get_delete, found]
        simp only [List.filter_eq_nil_iff, ne_eq, decide_not, Bool.not_eq_true',
          decide_eq_false_iff_not, not_not] at last
        constructor
        · rintro ⟨set, there, -⟩
          cases there
        · rintro ⟨⟨set', there, member⟩, apart⟩
          cases there
          exact absurd ⟨trivial, last otherId member⟩ apart
      · simp only [last, if_false, Indexed, OrderedMap.get_set, if_true, found]
        simp
    · have kept : ∀ set' : List String,
          (if set' = [] then dispatcher.subjectIndex.delete subject
            else dispatcher.subjectIndex.set subject set').get other =
            dispatcher.subjectIndex.get other := by
        intro set'
        split
        · rw [OrderedMap.get_delete, if_neg same]
        · rw [OrderedMap.get_set, if_neg same]
      simp only [Indexed, kept, same, false_and, not_false_eq_true, and_true]

theorem indexed_index (dispatcher : WsDispatcher π)
    (subject subscriptionId other otherId : String) :
    (dispatcher.indexSubject subject subscriptionId).Indexed other otherId ↔
      dispatcher.Indexed other otherId ∨
        (other = subject ∧ otherId = subscriptionId) := by
  by_cases same : other = subject
  · subst same
    simp only [indexSubject, Indexed, OrderedMap.get_set, if_true]
    cases dispatcher.subjectIndex.get other with
    | none => simp
    | some => simp [List.mem_insert_iff, or_comm]
  · simp only [indexSubject, Indexed, OrderedMap.get_set, if_neg same]
    simp [same]

theorem occupied_deindex
    (occupied : ∀ subject, dispatcher.subjectIndex.get subject ≠ some [])
    (subject subscriptionId other : String) :
    (dispatcher.deindexSubject subject subscriptionId).subjectIndex.get other ≠
      some [] := by
  unfold deindexSubject
  cases found : dispatcher.subjectIndex.get subject with
  | none => exact occupied other
  | some set =>
    simp only
    split
    · rw [OrderedMap.get_delete]
      split
      · exact fun empty => by cases empty
      · exact occupied other
    · rename_i some'
      rw [OrderedMap.get_set]
      split
      · exact fun empty => some' (Option.some.inj empty)
      · exact occupied other

theorem occupied_index (occupied : ∀ subject, dispatcher.subjectIndex.get subject ≠ some [])
    (subject subscriptionId other : String) :
    (dispatcher.indexSubject subject subscriptionId).subjectIndex.get other ≠
      some [] := by
  rw [indexSubject, OrderedMap.get_set]
  split
  · intro empty
    have member : subscriptionId ∈
        ((dispatcher.subjectIndex.get subject).getD []).insert subscriptionId :=
      List.mem_insert_self
    rw [Option.some.inj empty] at member
    cases member
  · exact occupied other

theorem deindex_subscriptions (dispatcher : WsDispatcher π)
    (subject subscriptionId : String) :
    (dispatcher.deindexSubject subject subscriptionId).subscriptions =
      dispatcher.subscriptions := by
  unfold deindexSubject
  split <;> rfl

theorem deindex_subscribers (dispatcher : WsDispatcher π)
    (subject subscriptionId : String) :
    (dispatcher.deindexSubject subject subscriptionId).subscribers =
      dispatcher.subscribers := by
  unfold deindexSubject
  split <;> rfl

variable {subscriptionId : String} {record : SubscriptionRecord}

theorem Filed.without (filed : dispatcher.Filed)
    (found : dispatcher.subscriptions.get subscriptionId = some record) :
    Filed { dispatcher.deindexSubject record.subject subscriptionId with
      subscriptions := dispatcher.subscriptions.delete subscriptionId } := by
  refine ⟨?_, ?_, ?_⟩
  · intro other record' there
    rw [OrderedMap.get_delete] at there
    split at there
    · cases there
    · exact filed.named there
  · intro subject other
    refine (indexed_deindex dispatcher record.subject subscriptionId subject other).trans ?_
    rw [filed.indexed]
    simp only [OrderedMap.get_delete]
    by_cases same : other = subscriptionId
    · subst same
      simp only [if_true, found, Option.some.injEq, exists_eq_left', and_true,
        reduceCtorEq, false_and, exists_false, iff_false, not_and, not_not]
      exact fun equal => equal.symm
    · simp [same]
  · exact occupied_deindex filed.occupied record.subject subscriptionId

theorem dropSubscription_filed (filed : dispatcher.Filed) (subscriptionId : String) :
    (dispatcher.dropSubscription subscriptionId).Filed := by
  unfold dropSubscription
  cases found : dispatcher.subscriptions.get subscriptionId with
  | none => exact filed
  | some =>
    simp only [deindex_subscriptions]
    exact filed.without found

theorem dropSubscription_get (dispatcher : WsDispatcher π)
    (subscriptionId other : String) :
    (dispatcher.dropSubscription subscriptionId).subscriptions.get other =
      if other = subscriptionId then none else dispatcher.subscriptions.get other := by
  unfold dropSubscription
  cases found : dispatcher.subscriptions.get subscriptionId with
  | none =>
    by_cases same : other = subscriptionId
    · simp [same, found]
    · simp [same]
  | some =>
    simp only [deindex_subscriptions, OrderedMap.get_delete]

theorem dropSubscription_subscribers (dispatcher : WsDispatcher π)
    (subscriptionId : String) :
    (dispatcher.dropSubscription subscriptionId).subscribers =
      dispatcher.subscribers := by
  unfold dropSubscription
  split
  · rfl
  · exact deindex_subscribers dispatcher _ _

variable (dropped : List String)

theorem dropAll_filed (filed : dispatcher.Filed) :
    (dropped.foldl dropSubscription dispatcher).Filed := by
  induction dropped generalizing dispatcher with
  | nil => exact filed
  | cons first _ ih => exact ih (dropSubscription_filed filed first)

theorem dropAll_get (dispatcher : WsDispatcher π) (other : String) :
    (dropped.foldl dropSubscription dispatcher).subscriptions.get other =
      if other ∈ dropped then none else dispatcher.subscriptions.get other := by
  induction dropped generalizing dispatcher with
  | nil => rfl
  | cons first _ ih =>
    rw [List.foldl_cons, ih, dropSubscription_get]
    by_cases here : other = first
    · simp [here]
    · simp [here]

theorem dropAll_subscribers (dispatcher : WsDispatcher π) :
    (dropped.foldl dropSubscription dispatcher).subscribers =
      dispatcher.subscribers := by
  induction dropped generalizing dispatcher with
  | nil => rfl
  | cons first rest ih => rw [List.foldl_cons, ih, dropSubscription_subscribers]

def expel (dispatcher : WsDispatcher π) (subscriberId : String)
    (subscriber : SubscriberRecord) : WsDispatcher π :=
  (subscriber.subscriptions.foldl dropSubscription dispatcher).deleteSubscriber
    subscriberId

variable {subscriberId : String} {subscriber : SubscriberRecord}

theorem Consistent.expel (consistent : dispatcher.Consistent)
    (found : dispatcher.subscribers.get subscriberId = some subscriber) :
    (dispatcher.expel subscriberId subscriber).Consistent := by
  have filed := dropAll_filed subscriber.subscriptions consistent.toFiled
  refine ⟨⟨filed.named, filed.indexed, filed.occupied⟩, ?_, ?_⟩
  · intro other subscriptionId
    have own : subscriptionId ∈ subscriber.subscriptions ↔
        ∃ record, dispatcher.subscriptions.get subscriptionId = some record ∧
          record.subscriberId = subscriberId := by
      rw [← consistent.listed]
      simp [Listed, found]
    have before := consistent.listed other subscriptionId
    simp only [Listed, WsDispatcher.expel, deleteSubscriber, OrderedMap.get_delete,
      dropAll_subscribers, dropAll_get] at before ⊢
    by_cases same : other = subscriberId
    · subst same
      simp only [if_true, reduceCtorEq, false_and, exists_false, false_iff,
        not_exists, not_and]
      intro record there
      split at there
      · cases there
      · rename_i apart
        exact fun equal => apart (own.mpr ⟨record, there, equal⟩)
    · simp only [same, if_false]
      rw [before]
      constructor
      · rintro ⟨record, there, equal⟩
        refine ⟨record, ?_, equal⟩
        rw [if_neg]
        · exact there
        · intro member
          obtain ⟨record', there', equal'⟩ := own.mp member
          rw [there] at there'
          cases there'
          exact same (equal.symm.trans equal')
      · rintro ⟨record, there, equal⟩
        split at there
        · cases there
        · exact ⟨record, there, equal⟩
  · intro other subscriber' there
    simp only [WsDispatcher.expel, deleteSubscriber, OrderedMap.get_delete,
      dropAll_subscribers] at there
    split at there
    · cases there
    · exact consistent.handled there

/-- Only its own subscriptions go with it. -/
theorem expel_get (consistent : dispatcher.Consistent)
    (found : dispatcher.subscribers.get subscriberId = some subscriber)
    (foreign : record.subscriberId ≠ subscriberId) :
    (dispatcher.expel subscriberId subscriber).subscriptions.get subscriptionId =
        some record ↔
      dispatcher.subscriptions.get subscriptionId = some record := by
  simp only [expel, deleteSubscriber, dropAll_get]
  split
  · rename_i member
    constructor
    · intro none'
      cases none'
    · intro there
      obtain ⟨record', there', own⟩ := (consistent.listed subscriberId
        subscriptionId).mp ⟨subscriber, found, member⟩
      rw [there] at there'
      cases there'
      exact absurd own foreign
  · rfl

def Leaves (subscriberId : String) (before after : WsDispatcher π) : Prop :=
  ∀ subscriptionId record, record.subscriberId ≠ subscriberId →
    (after.subscriptions.get subscriptionId = some record ↔
      before.subscriptions.get subscriptionId = some record)

theorem Leaves.refl (subscriberId : String) (dispatcher : WsDispatcher π) :
    dispatcher.Leaves subscriberId dispatcher :=
  fun _ _ _ => Iff.rfl

variable {before after : WsDispatcher π}

theorem Leaves.of_eq (same : after.subscriptions = before.subscriptions) :
    before.Leaves subscriberId after := by
  intro subscriptionId record _
  rw [same]

variable {first second third : WsDispatcher π}

theorem Leaves.trans (left : first.Leaves subscriberId second)
    (right : second.Leaves subscriberId third) : first.Leaves subscriberId third :=
  fun subscriptionId record foreign =>
    (right subscriptionId record foreign).trans (left subscriptionId record foreign)

def Owned (dispatcher : WsDispatcher π) (subscriberId subscriptionId : String) :
    Prop :=
  ∀ record, dispatcher.subscriptions.get subscriptionId = some record →
    record.subscriberId = subscriberId

theorem Leaves.owned (leaves : before.Leaves subscriberId after)
    (owned : before.Owned subscriberId subscriptionId) :
    after.Owned subscriberId subscriptionId := by
  intro record found
  by_contra foreign
  exact foreign (owned record ((leaves subscriptionId record foreign).mp found))

structure Serves (subscriberId : String) (before after : WsDispatcher π) : Prop where
  consistent : after.Consistent
  leaves : before.Leaves subscriberId after

theorem Serves.refl (consistent : dispatcher.Consistent) (subscriberId : String) :
    dispatcher.Serves subscriberId dispatcher :=
  ⟨consistent, .refl subscriberId dispatcher⟩

theorem Serves.trans (left : first.Serves subscriberId second)
    (right : second.Serves subscriberId third) : first.Serves subscriberId third :=
  ⟨right.consistent, left.leaves.trans right.leaves⟩

theorem shutdownSubscriber_serves (consistent : dispatcher.Consistent)
    (found : dispatcher.subscribers.get subscriberId = some subscriber) (code : Nat)
    (reason : String) : dispatcher.Serves subscriberId
      (dispatcher.shutdownSubscriber subscriber code reason) := by
  obtain ⟨handle, closed⟩ := consistent.handled found
  have told : (dispatcher.deliver (.closed subscriber.handle.id code reason)).Consistent :=
    consistent.congr rfl rfl rfl
  simp only [shutdownSubscriber, closed, Bool.false_eq_true, if_false, handle]
  rw [handle] at told
  refine ⟨told.expel found, ?_⟩
  intro subscriptionId record foreign
  exact expel_get told found foreign

variable (setup : DispatcherSetup π)

theorem dispatchToSubscriber_serves (consistent : dispatcher.Consistent)
    (record : SubscriptionRecord) (frame : ServerMessage π) :
    dispatcher.Serves record.subscriberId
      (dispatcher.dispatchToSubscriber setup record frame) := by
  unfold dispatchToSubscriber
  cases found : dispatcher.subscribers.get record.subscriberId with
  | none => exact .refl consistent _
  | some =>
    simp only
    have sampled : dispatcher.Serves record.subscriberId
        { dispatcher with samples := dispatcher.samples + 1 } :=
      ⟨consistent.congr rfl rfl rfl, .of_eq rfl⟩
    split
    · exact .refl consistent _
    · split
      · exact sampled.trans (shutdownSubscriber_serves sampled.consistent found 4006
          "flow.throttled")
      · split
        · exact sampled.trans (shutdownSubscriber_serves sampled.consistent found 4006
            "flow.throttled")
        · exact ⟨consistent.congr rfl rfl rfl, .of_eq rfl⟩

theorem validateAndDispatch_serves (consistent : dispatcher.Consistent)
    (record : SubscriptionRecord) (frame : ServerMessage π) :
    dispatcher.Serves record.subscriberId
      (dispatcher.validateAndDispatch setup record frame) := by
  unfold validateAndDispatch
  split
  · exact dispatchToSubscriber_serves setup consistent record frame
  · exact .refl consistent _

theorem Consistent.update (consistent : dispatcher.Consistent)
    (found : dispatcher.subscriptions.get subscriptionId = some current)
    (own : updated.subscriberId = current.subscriberId)
    (named : updated.subscriptionId = current.subscriptionId)
    (subject : updated.subject = current.subject) :
    Consistent { dispatcher with
      subscriptions := dispatcher.subscriptions.set subscriptionId updated } := by
  have alike : ∀ (other : String) (property : SubscriptionRecord → Prop),
      (property updated ↔ property current) →
      ((∃ record, (dispatcher.subscriptions.set subscriptionId updated).get other =
          some record ∧ property record) ↔
        ∃ record, dispatcher.subscriptions.get other = some record ∧
          property record) := by
    intro other property same
    rw [OrderedMap.get_set]
    by_cases here : other = subscriptionId
    · subst here
      simp [found, same]
    · simp [here]
  refine ⟨⟨?_, ?_, consistent.occupied⟩, ?_, consistent.handled⟩
  · intro other record there
    rw [OrderedMap.get_set] at there
    split at there
    · rename_i same
      cases there
      rw [named, same]
      exact consistent.named found
    · exact consistent.named there
  · intro other otherId
    refine (consistent.indexed other otherId).trans ?_
    exact (alike otherId (fun record => record.subject = other) (by rw [subject])).symm
  · intro other otherId
    refine (consistent.listed other otherId).trans ?_
    exact (alike otherId (fun record => record.subscriberId = other) (by rw [own])).symm

theorem advance_serves (consistent : dispatcher.Consistent)
    (owned : dispatcher.Owned subscriberId record.subscriptionId) (eventId : String) :
    dispatcher.Serves subscriberId (dispatcher.advance record eventId) := by
  unfold advance
  cases found : dispatcher.subscriptions.get record.subscriptionId with
  | none => exact .refl consistent _
  | some current =>
    refine ⟨consistent.update found rfl rfl rfl, ?_⟩
    intro subscriptionId other foreign
    simp only [OrderedMap.get_set]
    split
    · rename_i same
      have own := owned current found
      rw [same, found, Option.some.injEq, Option.some.injEq]
      constructor
      · rintro rfl
        exact absurd own foreign
      · rintro rfl
        exact absurd own foreign
    · rfl

theorem dispatchSanitized_serves (consistent : dispatcher.Consistent)
    (owned : dispatcher.Owned record.subscriberId record.subscriptionId)
    (frame : ServerEventFrame π) : dispatcher.Serves record.subscriberId
      (dispatcher.dispatchSanitized setup record frame) := by
  have sent := validateAndDispatch_serves setup consistent record
    (.event (setup.sanitizer.sanitize frame .ws))
  exact sent.trans (advance_serves sent.consistent (sent.leaves.owned owned) _)

theorem Consistent.insert {dispatcher : WsDispatcher π}
    (consistent : dispatcher.Consistent) {record : SubscriptionRecord}
    {subscriber : SubscriberRecord}
    (found : dispatcher.subscribers.get record.subscriberId = some subscriber)
    (free : ∀ current,
      dispatcher.subscriptions.get record.subscriptionId = some current →
        current.subscriberId = record.subscriberId ∧
          current.subject = record.subject) :
    Consistent (indexSubject record.subject record.subscriptionId
      { dispatcher with
        subscriptions := dispatcher.subscriptions.set record.subscriptionId record
        subscribers := dispatcher.subscribers.set record.subscriberId
          { subscriber with
            subscriptions :=
              subscriber.subscriptions.insert record.subscriptionId } }) := by
  have filled : ∀ (other : String) (property : SubscriptionRecord → Prop),
      (∀ current, dispatcher.subscriptions.get record.subscriptionId = some current →
        property current → property record) →
      ((∃ current, (dispatcher.subscriptions.set record.subscriptionId record).get other =
          some current ∧ property current) ↔
        (∃ current, dispatcher.subscriptions.get other = some current ∧
          property current) ∨ (other = record.subscriptionId ∧ property record)) := by
    intro other property same
    rw [OrderedMap.get_set]
    by_cases here : other = record.subscriptionId
    · subst here
      simp only [if_true, Option.some.injEq, exists_eq_left', true_and]
      constructor
      · exact .inr
      · rintro (⟨current, there, holds⟩ | holds)
        · exact same current there holds
        · exact holds
    · simp [here]
  refine ⟨⟨?_, ?_, occupied_index consistent.occupied _ _⟩, ?_, ?_⟩
  · intro other current there
    rw [indexSubject, OrderedMap.get_set] at there
    split at there
    · rename_i same
      cases there
      exact same.symm
    · exact consistent.named there
  · intro subject other
    rw [indexed_index]
    refine Iff.trans ?_ (filled other (fun record => record.subject = subject) ?_).symm
    · refine or_congr (consistent.indexed subject other) ?_
      rw [and_comm, eq_comm (a := subject)]
    · intro current there equal
      exact (free current there).2.symm.trans equal
  · intro subscriberId other
    refine Iff.trans ?_ (filled other
      (fun record => record.subscriberId = subscriberId) ?_).symm
    · rw [← consistent.listed subscriberId other]
      simp only [Listed, indexSubject, OrderedMap.get_set]
      by_cases same : subscriberId = record.subscriberId
      · subst same
        simp [found, or_comm]
      · simp [same, Ne.symm same]
    · intro current there equal
      exact (free current there).1.symm.trans equal
  · intro other subscriber' there
    rw [indexSubject, OrderedMap.get_set] at there
    split at there
    · rename_i same
      cases there
      rw [same]
      show subscriber.handle.id = _ ∧ subscriber.closed = false
      exact consistent.handled found
    · exact consistent.handled there

variable {subject : String}

theorem accept_found
    (accepted : dispatcher.accept subscriberId subject = .ok (subscriber, parsed)) :
    dispatcher.subscribers.get subscriberId = some subscriber := by
  unfold accept at accepted
  cases found : dispatcher.subscribers.get subscriberId with
  | none =>
    rw [found] at accepted
    cases accepted
  | some =>
    rw [found] at accepted
    simp only at accepted
    split at accepted
    · cases accepted
    · cases accepted
    · cases accepted
    · split at accepted
      · cases accepted
      · cases accepted
      · cases accepted
        rfl

def Free (dispatcher : WsDispatcher π) (subscriberId subject subscriptionId : String) :
    Prop :=
  ∀ current, dispatcher.subscriptions.get subscriptionId = some current →
    current.subscriberId = subscriberId ∧ current.subject = subject

theorem enroll_serves (consistent : dispatcher.Consistent)
    (found : dispatcher.subscribers.get subscriberId = some subscriber)
    (free : dispatcher.Free subscriberId subject subscriptionId) (now : Int)
    (parsed : ParsedSubject) : dispatcher.Serves subscriberId
      (dispatcher.enroll now subscriber parsed subscriberId subject subscriptionId) := by
  refine ⟨@Consistent.insert _ _ consistent ⟨subscriberId, subscriber.handle.tokenId,
    subscriptionId, subject, parsed, now, none⟩ _ found free, ?_⟩
  intro other record foreign
  simp only [enroll, indexSubject, OrderedMap.get_set]
  split
  · rename_i same
    subst same
    constructor
    · rintro ⟨⟩
      exact absurd rfl foreign
    · intro there
      exact absurd (free record there).1 foreign
  · rfl

theorem subscribe_serves (consistent : dispatcher.Consistent) (now : Int)
    (sinceEventId : Option String)
    (free : (dispatcher.accept subscriberId subject).toOption.isSome →
      dispatcher.Free subscriberId subject subscriptionId)
    :
    dispatcher.Serves subscriberId (dispatcher.subscribe setup now subscriberId subject
      subscriptionId sinceEventId).2 := by
  unfold subscribe
  cases accepted : dispatcher.accept subscriberId subject with
  | error => exact .refl consistent _
  | ok both =>
    obtain ⟨subscriber, parsed⟩ := both
    have enrolled := enroll_serves consistent (accept_found accepted)
      (free (by rw [accepted]; rfl)) now parsed
    exact enrolled.trans ⟨enrolled.consistent.congr rfl rfl rfl, .of_eq rfl⟩

theorem subscribe_owned
    (accepted : dispatcher.subscribe setup now subscriberId subject subscriptionId sinceEventId =
      (.ok subscribed, final))
    : subscribed.subscriptionId = subscriptionId ∧
      final.Owned subscriberId subscriptionId := by
  unfold subscribe at accepted
  split at accepted
  · cases accepted
  · cases accepted
    refine ⟨rfl, ?_⟩
    intro record found
    simp only [enroll, indexSubject, OrderedMap.get_set, if_true] at found
    cases found
    rfl

theorem dispatchReplayed_serves (consistent : dispatcher.Consistent)
    (owned : dispatcher.Owned subscriberId subscriptionId) (event : ServerEventFrame π) :
    dispatcher.Serves subscriberId
      (dispatcher.dispatchReplayed setup subscriptionId event) := by
  unfold dispatchReplayed
  cases found : dispatcher.subscriptions.get subscriptionId with
  | none => exact .refl consistent _
  | some record =>
    obtain rfl := owned record found
    refine dispatchSanitized_serves setup consistent ?_ _
    rw [consistent.named found]
    exact owned

theorem dispatchReplay_serves (consistent : dispatcher.Consistent) (now : Int)
    {subscribed : Subscribed π}
    (owned : dispatcher.Owned subscriberId subscribed.subscriptionId) :
    dispatcher.Serves subscriberId
      (dispatcher.dispatchReplay setup now subscribed) := by
  have replayed : ∀ (events : List (ServerEventFrame π)) {dispatcher : WsDispatcher π},
      dispatcher.Consistent →
      dispatcher.Owned subscriberId subscribed.subscriptionId →
      dispatcher.Serves subscriberId (events.foldl
        (dispatchReplayed setup subscribed.subscriptionId) dispatcher) := by
    intro events
    induction events with
    | nil => exact fun consistent _ => .refl consistent _
    | cons event _ ih =>
      intro dispatcher consistent owned
      have first := dispatchReplayed_serves setup consistent owned event
      exact first.trans (ih first.consistent (first.leaves.owned owned))
  have sent := replayed subscribed.replay.events consistent owned
  simp only [dispatchReplay]
  split
  · split
    · exact sent
    · rename_i record found
      obtain rfl := sent.leaves.owned owned record found
      exact sent.trans (validateAndDispatch_serves setup sent.consistent record _)
  · exact sent

theorem unsubscribe_serves (consistent : dispatcher.Consistent)
    (owned : dispatcher.Owned subscriberId subscriptionId) :
    dispatcher.Serves subscriberId (dispatcher.unsubscribe subscriptionId).2 := by
  unfold unsubscribe
  cases found : dispatcher.subscriptions.get subscriptionId with
  | none => exact .refl consistent _
  | some record =>
    obtain rfl := owned record found
    obtain ⟨subscriber, there, member⟩ := (consistent.listed record.subscriberId
      subscriptionId).mpr ⟨record, found, rfl⟩
    simp only [there, deindex_subscriptions]
    have delisted : Filed { dispatcher with
        subscribers := dispatcher.subscribers.set record.subscriberId
          { subscriber with
            subscriptions := subscriber.subscriptions.filter (· ≠ subscriptionId) } } :=
      ⟨consistent.named, consistent.indexed, consistent.occupied⟩
    refine ⟨⟨delisted.without found, ?_, ?_⟩, ?_⟩
    · intro other otherId
      have before := consistent.listed other otherId
      simp only [Listed, deindex_subscribers, OrderedMap.get_set,
        OrderedMap.get_delete] at before ⊢
      by_cases same : other = record.subscriberId
      · subst same
        simp only [there, Option.some.injEq, exists_eq_left', if_true,
          List.mem_filter] at before ⊢
        by_cases here : otherId = subscriptionId
        · simp [here]
        · simpa [here] using before
      · simp only [same, if_false, before]
        by_cases here : otherId = subscriptionId
        · subst here
          simp only [found, Option.some.injEq, exists_eq_left', if_true, reduceCtorEq,
            false_and, exists_false, iff_false]
          exact Ne.symm same
        · simp [here]
    · intro other subscriber' there'
      simp only [deindex_subscribers, OrderedMap.get_set] at there'
      split at there'
      · rename_i same
        cases there'
        rw [same]
        show subscriber.handle.id = _ ∧ subscriber.closed = false
        exact consistent.handled there
      · exact consistent.handled there'
    · intro other current foreign
      simp only [OrderedMap.get_delete]
      split
      · rename_i same
        subst same
        constructor
        · intro none'
          cases none'
        · intro there'
          exact absurd (owned current there') foreign
      · rfl

theorem unregister_serves (consistent : dispatcher.Consistent) (subscriberId : String) :
    dispatcher.Serves subscriberId (dispatcher.unregister subscriberId) := by
  unfold unregister
  cases found : dispatcher.subscribers.get subscriberId with
  | none => exact .refl consistent _
  | some =>
    refine ⟨consistent.expel found, ?_⟩
    intro subscriptionId record foreign
    exact expel_get consistent found foreign

theorem registerSubscriber_serves (consistent : dispatcher.Consistent)
    {handle : WsSubscriberHandle} (fresh : dispatcher.subscribers.get handle.id = none) :
    dispatcher.Serves handle.id (dispatcher.registerSubscriber handle) := by
  refine ⟨⟨⟨consistent.named, consistent.indexed, consistent.occupied⟩, ?_, ?_⟩,
    .of_eq rfl⟩
  · intro other subscriptionId
    refine Iff.trans ?_ (consistent.listed other subscriptionId)
    simp only [Listed, registerSubscriber, OrderedMap.get_set]
    by_cases same : other = handle.id
    · simp [same, fresh]
    · simp [same]
  · intro other subscriber there
    rw [registerSubscriber, OrderedMap.get_set] at there
    split at there
    · rename_i same
      cases there
      exact ⟨same.symm, rfl⟩
    · exact consistent.handled there

theorem fanOut_consistent (consistent : dispatcher.Consistent) (frame : ServerEventFrame π)
    (subscriptionId : String) :
    (dispatcher.fanOut setup frame subscriptionId).Consistent := by
  unfold fanOut
  cases found : dispatcher.subscriptions.get subscriptionId with
  | none => exact consistent
  | some =>
    refine (dispatchSanitized_serves setup consistent ?_ _).consistent
    rw [consistent.named found]
    intro current there
    rw [found] at there
    cases there
    rfl

theorem emit_consistent (consistent : dispatcher.Consistent) (now : Int) (subject : String)
    (bare : BareEventFrame π) :
    (dispatcher.emit setup now subject bare).Consistent := by
  have fanned : ∀ (ids : List String) (frame : ServerEventFrame π)
      {dispatcher : WsDispatcher π}, dispatcher.Consistent →
      (ids.foldl (fanOut setup frame) dispatcher).Consistent := by
    intro ids frame
    induction ids with
    | nil => exact fun consistent => consistent
    | cons first _ ih =>
      exact fun consistent => ih (fanOut_consistent setup consistent frame first)
  simp only [emit]
  split
  · exact fanned _ _ (consistent.congr rfl rfl rfl)
  · exact fanned _ _ (consistent.congr rfl rfl rfl)

theorem emitLifecycle_consistent (consistent : dispatcher.Consistent)
    (subscriptionId : String) (status : LifecycleStatus) (reason : Option String) :
    (dispatcher.emitLifecycle setup subscriptionId status reason).Consistent := by
  unfold emitLifecycle
  split
  · exact consistent
  · exact (validateAndDispatch_serves setup consistent _ _).consistent

theorem shutdown_consistent (dispatcher : WsDispatcher π) :
    dispatcher.shutdown.Consistent := by
  refine ⟨⟨?_, ?_, ?_⟩, ?_, ?_⟩
  · intro subscriptionId record found
    cases found
  · intro subject subscriptionId
    constructor
    · rintro ⟨set, found, -⟩
      cases found
    · rintro ⟨record, found, -⟩
      cases found
  · intro subject found
    cases found
  · intro subscriberId subscriptionId
    constructor
    · rintro ⟨subscriber, found, -⟩
      cases found
    · rintro ⟨record, found, -⟩
      cases found
  · intro subscriberId subscriber found
    cases found

end WsDispatcher

end Graphorin.Server
