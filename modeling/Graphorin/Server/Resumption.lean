import Graphorin.Server.Audience

namespace Graphorin.Server

open Graphorin.Lib WsDispatcher

/-! A stream that resumes writes each missed event once, as long as its own replay
had something to write. -/

variable {π : Type} (setup : SseSetup π)

def Shows (written pushed : ServerEventFrame π) : Prop :=
  ∃ name,
    written = setup.sanitizer.sanitize { pushed with subscriptionId := name } .sse ∨
      written = setup.dispatcher.sanitizer.sanitize
        { pushed with subscriptionId := name } .ws

namespace SseConnection

def writtenFrames (connection : SseConnection π) : List (ServerEventFrame π) :=
  connection.written.filterMap fun
    | .frame frame => some frame
    | _ => none

def queuedFrames (connection : SseConnection π) : List (ServerEventFrame π) :=
  connection.queue.filterMap fun
    | .event frame => some frame
    | _ => none

/-- Subscribed, with nothing left to write. -/
def waiting (connection : SseConnection π) : Prop :=
  connection.phase = .live ∧ connection.queue = [] ∧ connection.aborted = false ∧
    connection.closedByBackpressure = false

/-- It was told that the stream ends, or the scope its subject asks for has no name. -/
def concluded (connection : SseConnection π) : Prop :=
  (∃ frame, .lifecycle frame ∈ connection.written ∧ frame.status.terminal = true) ∨
    (∃ reason, .subscribeFailed reason ∈ connection.written) ∨
    ∃ parsed, tryParseSubject connection.subject = .ok parsed ∧
      isSubjectAllowed connection.grantedScopes parsed = none

end SseConnection

/-- The event frames written are what is expected, as far as they go; and all of it
while the stream waits for more. -/
structure Exact (expected : List (ServerEventFrame π))
    (connection : SseConnection π) : Prop where
  ordered : ∃ shown, shown <+: expected ∧
    List.Forall₂ (Shows setup) connection.writtenFrames shown
  whole : connection.waiting →
    List.Forall₂ (Shows setup) connection.writtenFrames expected

structure Owes (expected : List (ServerEventFrame π))
    (connection : SseConnection π) : Prop where
  ordered : ∃ shown, shown <+: expected ∧
    List.Forall₂ (Shows setup) connection.writtenFrames shown
  queued : connection.closedByBackpressure = false →
    List.Forall₂ (Shows setup) (connection.writtenFrames ++ connection.queuedFrames)
      expected
  valid : ∀ frame, .event frame ∈ connection.queue →
    (ServerMessage.event frame).valid = true

variable {expected : List (ServerEventFrame π)}

theorem ordered_of_queued (all : List.Forall₂ (Shows setup) (written ++ queued) expected) :
    ∃ shown, shown <+: expected ∧ List.Forall₂ (Shows setup) written shown := by
  refine ⟨expected.take written.length, List.take_prefix _ _, ?_⟩
  have cut := List.forall₂_take written.length all
  rwa [List.take_left] at cut

variable {connection : SseConnection π}

theorem Owes.exact (owes : Owes setup expected connection) :
    Exact setup expected connection := by
  refine ⟨owes.ordered, ?_⟩
  rintro ⟨-, empty, -, open'⟩
  have all := owes.queued open'
  rwa [SseConnection.queuedFrames, empty, List.filterMap_nil, List.append_nil] at all

variable (limit : Nat)

theorem receive_written (connection : SseConnection π) (delivery : Delivery π) :
    (connection.receive limit delivery).writtenFrames = connection.writtenFrames ∧
      (connection.receive limit delivery).phase = connection.phase ∧
      (connection.receive limit delivery).subject = connection.subject ∧
      (connection.receive limit delivery).subscriberId = connection.subscriberId := by
  cases delivery with
  | sent =>
    simp only [SseConnection.receive, SseConnection.send]
    split
    · exact ⟨rfl, rfl, rfl, rfl⟩
    · exact ⟨rfl, rfl, rfl, rfl⟩
  | closed => exact ⟨rfl, rfl, rfl, rfl⟩

theorem Owes.hand (owes : Owes setup expected connection) (limit : Nat)
    (wellformed : Wellformed frame) (subscriberId : String) (named : name ≠ "") :
    Owes setup (expected ++ [frame]) (connection.receive limit
      (handed setup.dispatcher subscriberId name frame)) := by
  obtain ⟨shown, before, ordered⟩ := owes.ordered
  have written := (receive_written limit connection
    (handed setup.dispatcher subscriberId name frame)).1
  refine ⟨⟨shown, before.trans (List.prefix_append _ _), by rwa [written]⟩, ?_, ?_⟩
  · simp only [handed, SseConnection.receive, SseConnection.send]
    split
    · intro open'
      cases open'
    · intro open'
      have all := owes.queued open'
      have shows : Shows setup (setup.dispatcher.sanitizer.sanitize
          { frame with subscriptionId := name } .ws) frame := ⟨name, .inr rfl⟩
      have longer := List.rel_append all (List.Forall₂.cons shows .nil)
      simpa [SseConnection.queuedFrames, SseConnection.writtenFrames] using longer
  · simp only [handed, SseConnection.receive, SseConnection.send]
    split
    · intro other member
      cases member
    · intro other member
      rcases List.mem_append.mp member with old | new
      · exact owes.valid other old
      · cases List.mem_singleton.mp new
        exact wellformed.valid setup.dispatcher.sanitizer named .ws

theorem Owes.hear (owes : Owes setup expected connection) (limit : Nat)
    (subscriberId : String) (other : ∀ frame, message ≠ .event frame) :
    Owes setup expected
      (connection.receive limit (.sent subscriberId message)) := by
  have written := (receive_written limit connection (.sent subscriberId message)).1
  refine ⟨by rw [written]; exact owes.ordered, ?_, ?_⟩
  · simp only [SseConnection.receive, SseConnection.send]
    split
    · intro open'
      cases open'
    · intro open'
      have all := owes.queued open'
      have skipped : (connection.queue ++ [message]).filterMap (fun
          | .event frame => some frame
          | _ => none) = connection.queuedFrames := by
        rw [List.filterMap_append, ← SseConnection.queuedFrames]
        cases message with
        | event frame => exact absurd rfl (other frame)
        | _ => exact List.append_nil _
      rw [SseConnection.queuedFrames, skipped]
      exact all
  · simp only [SseConnection.receive, SseConnection.send]
    split
    · intro frame member
      cases member
    · intro frame member
      rcases List.mem_append.mp member with old | new
      · exact owes.valid frame old
      · exact absurd (List.mem_singleton.mp new).symm (other frame)

theorem Owes.handAll (subscriberId : String) (named : name ≠ "")
    (wellformed : ∀ frame ∈ frames, Wellformed frame)
    (owes : Owes setup expected connection) :
    Owes setup (expected ++ frames) ((frames.map
      (handed setup.dispatcher subscriberId name)).foldl
        (SseConnection.receive limit) connection) := by
  induction frames generalizing expected connection with
  | nil => rwa [List.append_nil]
  | cons frame _ ih =>
    have first := owes.hand setup limit (wellformed frame List.mem_cons_self)
      subscriberId named
    have later := ih (fun other member =>
      wellformed other (List.mem_cons_of_mem frame member)) first
    rwa [List.append_assoc, List.singleton_append] at later

theorem Owes.hearAll {subscriberId : String} {news : List (Delivery π)}
    (others : ∀ delivery ∈ news, ∃ message, delivery = .sent subscriberId message ∧ ∀ frame,
      message ≠ .event frame)
    (owes : Owes setup expected connection) :
    Owes setup expected (news.foldl (SseConnection.receive limit) connection) := by
  induction news generalizing connection with
  | nil => exact owes
  | cons delivery _ ih =>
    obtain ⟨message, rfl, other⟩ := others delivery List.mem_cons_self
    exact ih (fun later member => others later (List.mem_cons_of_mem _ member))
      (owes.hear setup limit subscriberId other)

theorem receiveAll_written (news : List (Delivery π)) (connection : SseConnection π) :
    let after := news.foldl (SseConnection.receive limit) connection
    after.writtenFrames = connection.writtenFrames ∧
      after.phase = connection.phase ∧ after.subject = connection.subject ∧
      after.subscriberId = connection.subscriberId := by
  induction news generalizing connection with
  | nil => exact ⟨rfl, rfl, rfl, rfl⟩
  | cons delivery _ ih =>
    obtain ⟨written, phase, subject, own⟩ := receive_written limit connection delivery
    obtain ⟨written', phase', subject', own'⟩ := ih (connection.receive limit delivery)
    exact ⟨written'.trans written, phase'.trans phase, subject'.trans subject,
      own'.trans own⟩

theorem drain_frame (queue : List (ServerMessage π)) (connection : SseConnection π) :
    (connection.drain queue).phase = connection.phase ∧
      (connection.drain queue).subject = connection.subject ∧
      (connection.drain queue).subscriberId = connection.subscriberId ∧
      (connection.drain queue).closedByBackpressure =
        connection.closedByBackpressure := by
  induction queue with
  | nil => exact ⟨rfl, rfl, rfl, rfl⟩
  | cons next rest ih =>
    cases next with
    | event =>
      simp only [SseConnection.drain, SseConnection.writeFrame]
      split
      · exact ⟨rfl, rfl, rfl, rfl⟩
      · exact ⟨rfl, rfl, rfl, rfl⟩
    | lifecycle => exact ⟨rfl, rfl, rfl, rfl⟩
    | _ => exact ih

theorem drain_frames (queue : List (ServerMessage π)) (connection : SseConnection π)
    (valid : ∀ frame, .event frame ∈ queue →
      (ServerMessage.event frame).valid = true) :
    (connection.drain queue).writtenFrames ++ (connection.drain queue).queuedFrames =
      connection.writtenFrames ++ ({ connection with queue := queue }).queuedFrames ∧
    ∀ message, message ∈ (connection.drain queue).queue → message ∈ queue := by
  induction queue with
  | nil => exact ⟨rfl, fun message member => member⟩
  | cons next rest ih =>
    have rest' := ih fun frame member => valid frame (List.mem_cons_of_mem next member)
    cases next with
    | event frame =>
      simp only [SseConnection.drain, SseConnection.writeFrame,
        valid frame List.mem_cons_self, if_true]
      refine ⟨?_, fun message member => List.mem_cons_of_mem _ member⟩
      simp [SseConnection.writtenFrames, SseConnection.queuedFrames,
        SseConnection.write]
    | lifecycle =>
      refine ⟨?_, fun message member => List.mem_cons_of_mem _ member⟩
      simp [SseConnection.drain, SseConnection.writtenFrames,
        SseConnection.queuedFrames, SseConnection.write]
    | _ =>
      refine ⟨?_, fun message member =>
        List.mem_cons_of_mem _ (rest'.2 message member)⟩
      refine rest'.1.trans ?_
      simp [SseConnection.queuedFrames]

theorem Owes.drain (owes : Owes setup expected connection)
    (open' : connection.closedByBackpressure = false) :
    Owes setup expected (connection.drain connection.queue) := by
  obtain ⟨frames, kept⟩ := drain_frames connection.queue connection owes.valid
  have all : List.Forall₂ (Shows setup)
      ((connection.drain connection.queue).writtenFrames ++
        (connection.drain connection.queue).queuedFrames) expected := by
    rw [frames]
    exact owes.queued open'
  exact ⟨ordered_of_queued setup all, fun _ => all,
    fun frame member => owes.valid frame (kept _ member)⟩

def WsDispatcher.retained (subject : String) (dispatcher : WsDispatcher π) :
    List (ServerEventFrame π) :=
  (dispatcher.replayBuffer.listOf subject).map BufferedEvent.event

theorem fanOutAll_buffer (setup : DispatcherSetup π) (frame : ServerEventFrame π)
    (ids : List String) (dispatcher : WsDispatcher π) :
    (ids.foldl (fanOut setup frame) dispatcher).replayBuffer =
      dispatcher.replayBuffer := by
  induction ids generalizing dispatcher with
  | nil => rfl
  | cons first rest ih =>
    rw [List.foldl_cons, ih]
    unfold fanOut
    split
    · rfl
    · exact dispatchSanitized_buffer setup _ _ _

theorem emit_retained (setup : DispatcherSetup π) (now : Int) (subject other : String)
    (bare : BareEventFrame π) (dispatcher : WsDispatcher π) :
    (dispatcher.emit setup now other bare).retained subject <:+
      dispatcher.retained subject ++
        if other = subject then [dispatcher.emittedFrame now other bare] else [] := by
  have pushed : (dispatcher.emit setup now other bare).replayBuffer =
      dispatcher.replayBuffer.push setup.replayOptions now other
        (dispatcher.emittedFrame now other bare) := by
    rw [emit_eq, fanOutAll_buffer]
    rfl
  rw [retained, pushed]
  split
  · rename_i same
    subst same
    have kept := (dispatcher.replayBuffer.push_suffix setup.replayOptions now other
      (dispatcher.emittedFrame now other bare)).map BufferedEvent.event
    rwa [List.map_append] at kept
  · rename_i apart
    rw [ReplayBuffer.listOf_push_other setup.replayOptions now (Ne.symm apart),
      List.append_nil]
    exact List.suffix_refl _

theorem emitLifecycle_retained (setup : DispatcherSetup π) (subject other : String)
    (status : LifecycleStatus) (reason : Option String)
    (dispatcher : WsDispatcher π) :
    (dispatcher.emitLifecycle setup other status reason).retained subject =
      dispatcher.retained subject := by
  unfold emitLifecycle
  split
  · rfl
  · rw [retained, validateAndDispatch_buffer]
    rfl

/-- The buffer still holds what was pushed since the stream was requested, and a
search for the last event the stream replayed finds no other one. -/
structure LinesUp (buffer pushed : List (ServerEventFrame π))
    (lastEventId : Option String) : Prop where
  holds : pushed.length ≤ buffer.length
  first : ∀ event ∈ (buffer.take (buffer.length - pushed.length)).dropLast,
    some event.eventId ≠ lastEventId
  apart : buffer.length = pushed.length →
    ∀ event ∈ pushed, some event.eventId ≠ lastEventId

/-- Then the second replay is what was pushed since. -/
theorem slice_pushed {buffer : ReplayBuffer π} {subject since : String}
    {held pushed : List (ServerEventFrame π)} {last : ServerEventFrame π}
    (suffix : (buffer.listOf subject).map BufferedEvent.event <:+ held ++ pushed)
    (newest : held.getLast? = some last) (named : last.eventId = since)
    (linesUp : LinesUp ((buffer.listOf subject).map BufferedEvent.event) pushed
      (some since)) : (buffer.slice subject (some since)).events = pushed := by
  generalize shape : (buffer.listOf subject).map BufferedEvent.event = events at *
  obtain ⟨dropped, whole⟩ := suffix
  have split : events = held.drop dropped.length ++ pushed := by
    have lengths := congrArg List.length whole
    rw [List.length_append, List.length_append] at lengths
    have cut := congrArg (List.drop dropped.length) whole
    rw [List.drop_left, List.drop_append_of_le_length
      (by have := linesUp.holds; omega)] at cut
    exact cut
  have older : events.take (events.length - pushed.length) =
      held.drop dropped.length := by
    rw [split, List.length_append, Nat.add_sub_cancel, List.take_left]
  cases empty : held.drop dropped.length with
  | nil =>
    rw [empty, List.nil_append] at split
    rw [← split]
    rw [← shape]
    refine ReplayBuffer.slice_missing ?_
    rw [shape]
    intro event member same
    rw [split] at member
    exact linesUp.apart (by rw [split]) event member (congrArg some same)
  | cons =>
    have ends : (held.drop dropped.length).getLast? = some last := by
      rw [List.getLast?_drop, if_neg, newest]
      intro short
      rw [List.drop_eq_nil_of_le short] at empty
      cases empty
    obtain ⟨before, decomposed⟩ := List.getLast?_eq_some_iff.mp ends
    have listing : (buffer.listOf subject).map BufferedEvent.event =
        before ++ last :: pushed := by
      rw [shape, split, decomposed, List.append_assoc, List.singleton_append]
    refine (ReplayBuffer.slice_after listing named ?_).1
    intro event member same
    have there := linesUp.first event
    rw [older, decomposed, List.dropLast_concat] at there
    exact there member (congrArg some same)

namespace SseWorld

structure Replaying (held missed remaining : List (ServerEventFrame π))
    (lastEventId : Option String) (world : SseWorld π) : Prop where
  consistent : world.dispatcher.Consistent
  unregistered : world.connection.subscriberId = none
  empty : world.connection.queue = []
  open' : world.connection.closedByBackpressure = false
  buffer : world.dispatcher.retained world.connection.subject <:+ held ++ world.pushed
  shown : ∃ done last, done ++ last :: remaining = missed ∧
    lastEventId = some last.eventId ∧
    List.Forall₂ (Shows setup) world.connection.writtenFrames (done ++ [last])

structure Live (missed : List (ServerEventFrame π)) (world : SseWorld π) : Prop where
  consistent : world.dispatcher.Consistent
  registered : ∃ subscriberId, world.connection.subscriberId = some subscriberId ∧
    world.dispatcher.Streams subscriberId (sseSubscriptionId subscriberId)
      world.connection.subject
  owes : Owes setup (missed ++ world.pushed) world.connection

/-- What holds of a stream between two moves.  `held` is what the buffer had for its
subject when it was requested. -/
structure Sound (held missed : List (ServerEventFrame π)) (world : SseWorld π) :
    Prop where
  wellformed : ∀ event ∈ missed ++ world.pushed, Wellformed event
  replaying : ∀ {remaining droppedCount lastEventId},
    world.connection.phase = .replaying remaining droppedCount lastEventId →
      droppedCount = 0 ∧ world.Replaying setup held missed remaining lastEventId
  unmarked : ∀ lastEventId, world.connection.phase ≠ .marked lastEventId
  live : world.connection.phase = .live → world.Live setup missed
  ended : world.connection.phase = .ended → ∃ shown, shown <+: missed ++ world.pushed ∧
    List.Forall₂ (Shows setup) world.connection.writtenFrames shown

variable {held missed : List (ServerEventFrame π)} {world : SseWorld π}

theorem Sound.exact (sound : world.Sound setup held missed) :
    Exact setup (missed ++ world.pushed) world.connection := by
  cases phase : world.connection.phase with
  | replaying remaining =>
    obtain ⟨-, replaying⟩ := sound.replaying phase
    obtain ⟨done, last, whole, -, shows⟩ := replaying.shown
    refine ⟨⟨done ++ [last], ?_, shows⟩, ?_⟩
    · refine ⟨remaining ++ world.pushed, ?_⟩
      rw [← whole]
      simp
    · rintro ⟨live, -⟩
      rw [phase] at live
      cases live
  | marked lastEventId => exact absurd phase (sound.unmarked lastEventId)
  | live => exact (sound.live phase).owes.exact
  | ended =>
    refine ⟨sound.ended phase, ?_⟩
    rintro ⟨live, -⟩
    rw [phase] at live
    cases live

def AdmitsResumed (world : SseWorld π) (now : Int) (subscriberId : String) :
    SsePhase π → Prop
  | .replaying [] _ lastEventId =>
    world.dispatcher.subscribers.get subscriberId = none ∧
      world.dispatcher.subscriptions.get (sseSubscriptionId subscriberId) = none ∧
      LinesUp (((world.dispatcher.replayBuffer.pruneSubject
        setup.dispatcher.replayOptions now world.connection.subject).listOf
          world.connection.subject).map BufferedEvent.event) world.pushed lastEventId
  | _ => True

/-- The conditions on a move; a frame pushed on the subject is well formed. -/
def Admits (world : SseWorld π) : Move π → Prop
  | .resumed now subscriberId =>
    world.AdmitsResumed setup now subscriberId world.connection.phase
  | .emitted now subject bare =>
    subject = world.connection.subject →
      Wellformed (world.dispatcher.emittedFrame now subject bare)
  | _ => True

def Follows (world : SseWorld π) : List (Move π) → Prop
  | [] => True
  | first :: rest => world.Admits setup first ∧ (world.step setup first).Follows rest

instance (frame : ServerEventFrame π) : Decidable (Wellformed frame) :=
  inferInstanceAs (Decidable
    (frame.eventId ≠ "" ∧ frame.subject ≠ "" ∧ frame.type ≠ ""))

instance (buffer pushed : List (ServerEventFrame π)) (lastEventId : Option String) :
    Decidable (LinesUp buffer pushed lastEventId) :=
  decidable_of_iff (pushed.length ≤ buffer.length ∧
      (∀ event ∈ (buffer.take (buffer.length - pushed.length)).dropLast,
        some event.eventId ≠ lastEventId) ∧
      (buffer.length = pushed.length →
        ∀ event ∈ pushed, some event.eventId ≠ lastEventId))
    ⟨fun ⟨holds, first, apart⟩ => ⟨holds, first, apart⟩,
      fun ⟨holds, first, apart⟩ => ⟨holds, first, apart⟩⟩

instance (world : SseWorld π) (now : Int) (subscriberId : String) :
    (phase : SsePhase π) →
      Decidable (world.AdmitsResumed setup now subscriberId phase)
  | .replaying [] _ _ => inferInstanceAs (Decidable (_ ∧ _ ∧ _))
  | .replaying (_ :: _) _ _ => isTrue trivial
  | .marked _ => isTrue trivial
  | .live => isTrue trivial
  | .ended => isTrue trivial

instance (world : SseWorld π) : (move : Move π) → Decidable (world.Admits setup move)
  | .resumed now subscriberId => inferInstanceAs (Decidable
      (world.AdmitsResumed setup now subscriberId world.connection.phase))
  | .emitted now subject bare => inferInstanceAs (Decidable
      (subject = world.connection.subject →
        Wellformed (world.dispatcher.emittedFrame now subject bare)))
  | .pruned _ => isTrue trivial
  | .lifecycle _ _ _ => isTrue trivial
  | .aborted => isTrue trivial

instance followsDecidable : (world : SseWorld π) → (moves : List (Move π)) →
    Decidable (world.Follows setup moves)
  | _, [] => isTrue trivial
  | world, first :: rest =>
    have := followsDecidable (world.step setup first) rest
    inferInstanceAs (Decidable
      (world.Admits setup first ∧ (world.step setup first).Follows setup rest))

theorem sseSubscriptionId_named (subscriberId : String) :
    sseSubscriptionId subscriberId ≠ "" := by
  intro empty
  have lengths := congrArg String.length empty
  have ending : "-sub".length = 4 := by decide
  rw [sseSubscriptionId, String.length_append, ending, String.length_empty] at lengths
  omega

variable {subscriberId : String}

variable {dispatcher : WsDispatcher π}

theorem hear_eq (own : world.connection.subscriberId = some subscriberId)
    {news : List (Delivery π)}
    (heard : dispatcher.deliveriesTo subscriberId = world.dispatcher.deliveriesTo subscriberId ++
      news)
    : world.hear setup dispatcher =
      { world with
        dispatcher := dispatcher
        connection := news.foldl
          (SseConnection.receive setup.perConnectionQueueLimit) world.connection } := by
  simp only [hear, own, heard, List.drop_left]

/-- Whatever the dispatcher does, what is written stays. -/
theorem hear_frame (world : SseWorld π) (dispatcher : WsDispatcher π) :
    let after := world.hear setup dispatcher
    after.dispatcher = dispatcher ∧ after.pushed = world.pushed ∧
      after.connection.writtenFrames = world.connection.writtenFrames ∧
      after.connection.phase = world.connection.phase ∧
      after.connection.subject = world.connection.subject := by
  unfold hear
  split
  · exact ⟨rfl, rfl, rfl, rfl, rfl⟩
  · obtain ⟨written, phase, subject, -⟩ := receiveAll_written
      setup.perConnectionQueueLimit _ world.connection
    exact ⟨rfl, rfl, written, phase, subject⟩

theorem hear_unregistered (unregistered : world.connection.subscriberId = none)
    (dispatcher : WsDispatcher π) :
    world.hear setup dispatcher = { world with dispatcher := dispatcher } := by
  simp only [hear, unregistered]

theorem sound_ended (wellformed : ∀ event ∈ missed ++ world.pushed, Wellformed event)
    (phase : world.connection.phase = .ended)
    (ordered : ∃ shown, shown <+: missed ++ world.pushed ∧
      List.Forall₂ (Shows setup) world.connection.writtenFrames shown) :
    world.Sound setup held missed := by
  refine ⟨wellformed, ?_, ?_, ?_, fun _ => ordered⟩
  · intro remaining droppedCount lastEventId other
    rw [phase] at other
    cases other
  · intro lastEventId other
    rw [phase] at other
    cases other
  · intro other
    rw [phase] at other
    cases other

theorem sound_live (wellformed : ∀ event ∈ missed ++ world.pushed, Wellformed event)
    (phase : world.connection.phase = .live) (live : world.Live setup missed) :
    world.Sound setup held missed := by
  refine ⟨wellformed, ?_, ?_, fun _ => live, ?_⟩
  · intro remaining droppedCount lastEventId other
    rw [phase] at other
    cases other
  · intro lastEventId other
    rw [phase] at other
    cases other
  · intro other
    rw [phase] at other
    cases other

theorem sound_replaying (wellformed : ∀ event ∈ missed ++ world.pushed, Wellformed event)
    (phase : world.connection.phase = .replaying remaining 0 lastEventId)
    (replaying : world.Replaying setup held missed remaining lastEventId) :
    world.Sound setup held missed := by
  refine ⟨wellformed, ?_, ?_, ?_, ?_⟩
  · intro remaining' droppedCount lastEventId' other
    rw [phase] at other
    cases other
    exact ⟨rfl, replaying⟩
  · intro lastEventId other
    rw [phase] at other
    cases other
  · intro other
    rw [phase] at other
    cases other
  · intro other
    rw [phase] at other
    cases other

theorem turn_sound (wellformed : ∀ event ∈ missed ++ world.pushed, Wellformed event)
    (phase : world.connection.phase = .live) (live : world.Live setup missed) :
    world.turn.Sound setup held missed := by
  obtain ⟨consistent, ⟨subscriberId, own, streams⟩, owes⟩ := live
  simp only [turn, own]
  split
  · exact sound_ended setup wellformed rfl owes.ordered
  · split
    · rename_i closed
      refine sound_live setup wellformed phase ⟨consistent, ⟨subscriberId, own, streams⟩,
        ?_⟩
      obtain ⟨ordered, -, valid⟩ := owes
      have same : ∀ frame, ({ world.connection.write (.lifecycle frame) with
          aborted := true } : SseConnection π).writtenFrames =
          world.connection.writtenFrames := by
        intro frame
        simp [SseConnection.writtenFrames, SseConnection.write]
      refine ⟨by rw [same]; exact ordered, ?_, valid⟩
      intro open'
      exact absurd (closed.symm.trans open') Bool.noConfusion
    · rename_i open'
      obtain ⟨phase', subject', own', -⟩ := drain_frame world.connection.queue
        world.connection
      refine sound_live setup wellformed (phase'.trans phase) ⟨consistent,
        ⟨subscriberId, own'.trans own, ?_⟩, ?_⟩
      · rw [subject']
        exact streams
      · exact owes.drain setup (Bool.eq_false_iff.mpr open')

variable {now : Int}

theorem goLive_sound (positive : 0 < setup.dispatcher.perConnectionQueueLimit)
    (ends : missed <:+ held)
    (wellformed : ∀ event ∈ missed ++ world.pushed, Wellformed event)
    {lastEventId : Option String}
    (replaying : world.Replaying setup held missed [] lastEventId)
    (fresh : world.dispatcher.subscribers.get subscriberId = none)
    (free : world.dispatcher.subscriptions.get (sseSubscriptionId subscriberId) = none)
    (linesUp : LinesUp
      (((world.dispatcher.replayBuffer.pruneSubject setup.dispatcher.replayOptions now
        world.connection.subject).listOf world.connection.subject).map BufferedEvent.event)
          world.pushed lastEventId) :
    (world.goLive setup now subscriberId lastEventId).Sound setup held missed := by
  obtain ⟨done, last, whole, named, shows⟩ := replaying.shown
  have ordered : ∃ shown, shown <+: missed ++ world.pushed ∧
      List.Forall₂ (Shows setup) world.connection.writtenFrames shown := by
    refine ⟨missed, List.prefix_append _ _, ?_⟩
    rw [← whole]
    exact shows
  simp only [goLive]
  cases made : (world.dispatcher.registerSubscriber ⟨subscriberId,
      world.connection.tokenId, world.connection.grantedScopes, .sse⟩).subscribe
      setup.dispatcher now subscriberId world.connection.subject
      (sseSubscriptionId subscriberId) lastEventId with
  | mk result =>
    cases result with
    | error reason =>
      cases reason with
      | threw => exact sound_ended setup wellformed rfl ordered
      | _ =>
        obtain ⟨shown, before, shows'⟩ := ordered
        refine sound_ended setup wellformed rfl ⟨shown, before, ?_⟩
        simpa [SseConnection.writtenFrames, SseConnection.write] using shows'
    | ok subscribed =>
      obtain ⟨consistent, streams, same, replay⟩ := subscribe_streams
        setup.dispatcher replaying.consistent rfl fresh free made
      have later : subscribed.replay.events = world.pushed := by
        have events := congrArg (fun both => both.1.events) replay
        refine events.trans ?_
        rw [named] at linesUp ⊢
        have newest : held.getLast? = some last := by
          obtain ⟨before, rfl⟩ := ends
          rw [← whole, ← List.append_assoc, List.getLast?_concat]
        refine slice_pushed (List.IsSuffix.trans ?_ replaying.buffer) newest rfl
          linesUp
        rw [ReplayBuffer.listOf_pruneSubject_self]
        exact (List.dropWhile_suffix _).map _
      have named' := sseSubscriptionId_named subscriberId
      obtain ⟨extra, hands, markers⟩ := dispatchReplay_hands setup.dispatcher
        positive named' now same streams consistent (by
          intro event member
          rw [later] at member
          exact wellformed event (List.mem_append_right _ member))
      have owed : Owes setup missed { world.connection with
          phase := .live
          subscriberId := some subscriberId } := by
        have none' : world.connection.queuedFrames = [] := by
          rw [SseConnection.queuedFrames, replaying.empty, List.filterMap_nil]
        refine ⟨⟨missed, List.prefix_refl _, ?_⟩, fun _ => ?_, ?_⟩
        · rw [← whole]
          exact shows
        · show List.Forall₂ (Shows setup)
            (world.connection.writtenFrames ++ world.connection.queuedFrames) missed
          rw [none', List.append_nil, ← whole]
          exact shows
        · intro frame member
          have member' : ServerMessage.event frame ∈ world.connection.queue := member
          rw [replaying.empty] at member'
          cases member'
      have handed' := owed.handAll setup setup.perConnectionQueueLimit subscriberId
        named' fun frame member =>
          wellformed frame (List.mem_append_right missed member)
      have others : ∀ delivery ∈ extra, ∃ message,
          delivery = Delivery.sent subscriberId message ∧
            ∀ frame, message ≠ .event frame := by
        intro delivery member
        obtain ⟨frame, shape⟩ := markers delivery member
        exact ⟨_, shape, fun frame same => by cases same⟩
      have owes := handed'.hearAll setup setup.perConnectionQueueLimit others
      rw [← List.foldl_append] at owes
      rw [later] at hands
      simp only
      rw [hear_eq setup rfl hands.heard]
      obtain ⟨-, phase, subject, own⟩ := receiveAll_written
        setup.perConnectionQueueLimit (world.pushed.map (handed setup.dispatcher
          subscriberId (sseSubscriptionId subscriberId)) ++ extra)
        { world.connection with
          phase := .live
          subscriberId := some subscriberId }
      refine turn_sound setup wellformed phase ⟨hands.consistent,
        ⟨subscriberId, own, ?_⟩, owes⟩
      rw [subject]
      exact hands.streams

theorem replayed_frame (connection : SseConnection π) (wellformed : Wellformed event)
    (phase : SsePhase π) :
    ({ connection.writeFrame (setup.sanitizer.sanitize
        { event with subscriptionId := "sse" } .sse) with
      phase := phase } : SseConnection π).writtenFrames =
      connection.writtenFrames ++
        [setup.sanitizer.sanitize { event with subscriptionId := "sse" } .sse] := by
  have named : "sse" ≠ "" := by decide
  have valid := wellformed.valid setup.sanitizer named .sse
  simp [SseConnection.writeFrame, valid, SseConnection.writtenFrames,
    SseConnection.write]

theorem advance_sound (wellformed : ∀ event ∈ missed ++ world.pushed, Wellformed event)
    (consistent : world.dispatcher.Consistent)
    (unregistered : world.connection.subscriberId = none)
    (empty : world.connection.queue = [])
    (open' : world.connection.closedByBackpressure = false)
    (buffer : world.dispatcher.retained world.connection.subject <:+ held ++ world.pushed)
    (done : List (ServerEventFrame π)) (whole : done ++ event :: remaining = missed)
    (shows : List.Forall₂ (Shows setup) world.connection.writtenFrames done) (now : Int)
    (subscriberId : String) (lastEventId : Option String) :
    (world.advance setup now subscriberId 0 lastEventId
      (event :: remaining)).Sound setup held missed := by
  have own : Wellformed event := by
    refine wellformed event (List.mem_append_left _ ?_)
    rw [← whole]
    exact List.mem_append_right _ List.mem_cons_self
  have frames := replayed_frame setup world.connection own
    (.replaying remaining 0 (some event.eventId))
  have kept : ∀ frame, (world.connection.writeFrame frame).subscriberId = none ∧
      (world.connection.writeFrame frame).queue = [] ∧
      (world.connection.writeFrame frame).closedByBackpressure = false ∧
      (world.connection.writeFrame frame).subject = world.connection.subject := by
    intro frame
    unfold SseConnection.writeFrame
    split
    · exact ⟨unregistered, empty, open', rfl⟩
    · exact ⟨unregistered, empty, open', rfl⟩
  obtain ⟨unregistered', empty', open'', subject⟩ := kept
    (setup.sanitizer.sanitize { event with subscriptionId := "sse" } .sse)
  refine sound_replaying setup wellformed rfl ⟨consistent, unregistered', empty', open'',
    ?_, done, event, whole, rfl, ?_⟩
  · simp only [advance, subject]
    exact buffer
  · refine (congrArg (List.Forall₂ (Shows setup) · (done ++ [event])) frames).mpr ?_
    exact List.rel_append shows (.cons ⟨"sse", .inl rfl⟩ .nil)

theorem resume_sound (positive : 0 < setup.dispatcher.perConnectionQueueLimit)
    (ends : missed <:+ held) (sound : world.Sound setup held missed)
    (admitted : world.Admits setup (.resumed now subscriberId)) :
    (world.resume setup now subscriberId).Sound setup held missed := by
  simp only [Admits] at admitted
  unfold resume
  cases phase : world.connection.phase with
  | replaying remaining _ lastEventId =>
    obtain ⟨rfl, replaying⟩ := sound.replaying phase
    cases remaining with
    | nil =>
      rw [phase] at admitted
      obtain ⟨fresh, free, linesUp⟩ := admitted
      exact goLive_sound setup positive ends sound.wellformed replaying fresh free
        linesUp
    | cons =>
      obtain ⟨done, last, whole, -, shows⟩ := replaying.shown
      rw [List.append_cons] at whole
      exact advance_sound setup sound.wellformed replaying.consistent
        replaying.unregistered replaying.empty replaying.open' replaying.buffer
        (done ++ [last]) whole shows now subscriberId lastEventId
  | marked lastEventId => exact absurd phase (sound.unmarked lastEventId)
  | live => exact turn_sound setup sound.wellformed phase (sound.live phase)
  | ended => exact sound

theorem quiet_sound (sound : world.Sound setup held missed)
    (consistent : world.dispatcher.Consistent → dispatcher.Consistent)
    (buffer : dispatcher.retained world.connection.subject <:+ world.dispatcher.retained
      world.connection.subject)
    (streams : ∀ subscriberId,
      world.dispatcher.Streams subscriberId (sseSubscriptionId subscriberId)
        world.connection.subject → dispatcher.Streams subscriberId
          (sseSubscriptionId subscriberId) world.connection.subject)
    :
    Sound setup held missed { world with dispatcher := dispatcher } := by
  refine ⟨sound.wellformed, ?_, sound.unmarked, ?_, sound.ended⟩
  · intro remaining droppedCount lastEventId phase
    obtain ⟨none', replaying⟩ := sound.replaying phase
    exact ⟨none', consistent replaying.consistent, replaying.unregistered,
      replaying.empty, replaying.open', buffer.trans replaying.buffer, replaying.shown⟩
  · intro phase
    obtain ⟨consistent', ⟨subscriberId, own, streams'⟩, owes⟩ := sound.live phase
    exact ⟨consistent consistent', ⟨subscriberId, own, streams subscriberId streams'⟩,
      owes⟩

theorem lifecycle_sound (positive : 0 < setup.dispatcher.perConnectionQueueLimit)
    (sound : world.Sound setup held missed) (subscriptionId : String)
    (status : LifecycleStatus) (reason : Option String) :
    (world.step setup (.lifecycle subscriptionId status reason)).Sound setup held
      missed := by
  obtain ⟨same, pushed, written, phase, subject⟩ := hear_frame setup world
    (world.dispatcher.emitLifecycle setup.dispatcher subscriptionId status reason)
  simp only [step]
  cases now : world.connection.phase with
  | replaying =>
    obtain ⟨rfl, replaying⟩ := sound.replaying now
    rw [hear_unregistered setup replaying.unregistered]
    refine sound_replaying setup sound.wellformed now
      ⟨emitLifecycle_consistent _ replaying.consistent _ _ _, replaying.unregistered,
        replaying.empty, replaying.open', ?_, replaying.shown⟩
    simp only [emitLifecycle_retained]
    exact replaying.buffer
  | marked lastEventId => exact absurd now (sound.unmarked lastEventId)
  | live =>
    obtain ⟨consistent, ⟨subscriberId, own, streams⟩, owes⟩ := sound.live now
    obtain ⟨news, hands, all⟩ := emitLifecycle_hands setup.dispatcher positive streams
      consistent subscriptionId status reason
    have others : ∀ delivery ∈ news, ∃ message,
        delivery = Delivery.sent subscriberId message ∧
          ∀ frame, message ≠ .event frame := by
      intro delivery member
      obtain ⟨frame, shape⟩ := all delivery member
      exact ⟨_, shape, fun frame same => by cases same⟩
    have owes' := owes.hearAll setup setup.perConnectionQueueLimit others
    rw [hear_eq setup own hands.heard]
    obtain ⟨-, phase', subject', own'⟩ := receiveAll_written
      setup.perConnectionQueueLimit news world.connection
    refine sound_live setup sound.wellformed (phase'.trans now) ⟨hands.consistent,
      ⟨subscriberId, own'.trans own, ?_⟩, owes'⟩
    rw [subject']
    exact hands.streams
  | ended =>
    refine sound_ended setup ?_ (phase.trans now) ?_
    · rw [pushed]
      exact sound.wellformed
    · rw [pushed, written]
      exact sound.ended now

theorem emitted_sound (positive : 0 < setup.dispatcher.perConnectionQueueLimit)
    (sound : world.Sound setup held missed)
    (admitted : world.Admits setup (.emitted now subject bare)) :
    (world.step setup (.emitted now subject bare)).Sound setup held missed := by
  simp only [step]
  generalize fresh : (if subject = world.connection.subject then
    [world.dispatcher.emittedFrame now subject bare] else []) = news
  have grown : (if subject = world.connection.subject then
      world.pushed ++ [world.dispatcher.emittedFrame now subject bare]
      else world.pushed) = world.pushed ++ news := by
    rw [← fresh]
    split
    · rfl
    · exact (List.append_nil _).symm
  have welcome : ∀ event ∈ news, Wellformed event := by
    intro event member
    rw [← fresh] at member
    split at member
    · rename_i here
      rw [List.mem_singleton.mp member]
      exact admitted here
    · cases member
  have wellformed : ∀ event ∈ missed ++ (world.pushed ++ news), Wellformed event := by
    intro event member
    rw [← List.append_assoc] at member
    rcases List.mem_append.mp member with old | new
    · exact sound.wellformed event old
    · exact welcome event new
  rw [grown]
  obtain ⟨-, -, written, phase, -⟩ := hear_frame setup world
    (world.dispatcher.emit setup.dispatcher now subject bare)
  cases current : world.connection.phase with
  | replaying =>
    obtain ⟨rfl, replaying⟩ := sound.replaying current
    rw [hear_unregistered setup replaying.unregistered]
    refine sound_replaying setup wellformed current
      ⟨emit_consistent _ replaying.consistent _ _ _, replaying.unregistered,
        replaying.empty, replaying.open', ?_, replaying.shown⟩
    refine (emit_retained setup.dispatcher now world.connection.subject subject bare
      world.dispatcher).trans ?_
    rw [fresh]
    obtain ⟨dropped, whole⟩ := replaying.buffer
    exact ⟨dropped, by rw [← List.append_assoc, whole, List.append_assoc]⟩
  | marked lastEventId => exact absurd current (sound.unmarked lastEventId)
  | live =>
    obtain ⟨consistent, ⟨subscriberId, own, streams⟩, owes⟩ := sound.live current
    have hands := emit_hands setup.dispatcher positive streams consistent
      (sseSubscriptionId_named subscriberId) now subject bare admitted
    have handed' : (if subject = world.connection.subject then
        [handed setup.dispatcher subscriberId (sseSubscriptionId subscriberId)
          (world.dispatcher.emittedFrame now subject bare)] else []) =
        news.map (handed setup.dispatcher subscriberId
          (sseSubscriptionId subscriberId)) := by
      rw [← fresh]
      split
      · rfl
      · rfl
    rw [handed'] at hands
    have heard := hands.heard
    have quiet : (world.dispatcher.buffered setup.dispatcher now subject
        bare).deliveriesTo subscriberId = world.dispatcher.deliveriesTo subscriberId :=
      congrArg (List.filter _)
        (buffered_indexes setup.dispatcher now subject bare world.dispatcher).2.2.2
    rw [quiet] at heard
    rw [hear_eq setup own heard]
    have owes' := owes.handAll setup setup.perConnectionQueueLimit subscriberId
      (sseSubscriptionId_named subscriberId) welcome
    rw [List.append_assoc] at owes'
    obtain ⟨-, phase', subject', own'⟩ := receiveAll_written
      setup.perConnectionQueueLimit (news.map (handed setup.dispatcher subscriberId
        (sseSubscriptionId subscriberId))) world.connection
    refine sound_live setup wellformed (phase'.trans current) ⟨hands.consistent,
      ⟨subscriberId, own'.trans own, ?_⟩, owes'⟩
    rw [subject']
    exact hands.streams
  | ended =>
    refine sound_ended setup wellformed (phase.trans current) ?_
    obtain ⟨shown, before, shows⟩ := sound.ended current
    refine ⟨shown, before.trans ?_, ?_⟩
    · exact ⟨news, List.append_assoc _ _ _⟩
    · exact written.symm ▸ shows

theorem step_sound (positive : 0 < setup.dispatcher.perConnectionQueueLimit)
    (ends : missed <:+ held) (sound : world.Sound setup held missed)
    (admitted : world.Admits setup move) :
    (world.step setup move).Sound setup held missed := by
  cases move with
  | resumed => exact resume_sound setup positive ends sound admitted
  | emitted => exact emitted_sound setup positive sound admitted
  | pruned now =>
    refine quiet_sound setup sound (fun consistent => consistent.congr rfl rfl rfl) ?_
      fun subscriberId streams => streams.congr rfl rfl rfl
    exact (world.dispatcher.replayBuffer.prune_suffix setup.dispatcher.replayOptions now
      world.connection.subject).map BufferedEvent.event
  | lifecycle subscriptionId status reason =>
    exact lifecycle_sound setup positive sound subscriptionId status reason
  | aborted =>
    simp only [step]
    split
    · rename_i live
      obtain ⟨consistent, registered, ⟨ordered, queued, valid⟩⟩ := sound.live live
      exact sound_live setup sound.wellformed live
        ⟨consistent, registered, ⟨ordered, queued, valid⟩⟩
    · exact sound

theorem run_sound (positive : 0 < setup.dispatcher.perConnectionQueueLimit)
    (ends : missed <:+ held) (sound : world.Sound setup held missed)
    (follows : world.Follows setup moves) :
    (world.run setup moves).Sound setup held missed := by
  induction moves generalizing world with
  | nil => exact sound
  | cons first rest ih =>
    exact ih (step_sound setup positive ends sound follows.1) follows.2

/-- Resumed often enough, it has written all of what is expected, or the stream is
over. -/
inductive Delivers (gone : Prop) (expected : List (ServerEventFrame π)) :
    SseWorld π → Prop
  | whole {world : SseWorld π}
      (all : List.Forall₂ (Shows setup) world.connection.writtenFrames expected) :
      Delivers gone expected world
  | concluded {world : SseWorld π} (concluded : gone ∨ world.connection.concluded) :
      Delivers gone expected world
  | resumed {world : SseWorld π}
      (next : ∀ now subscriberId, world.Admits setup (.resumed now subscriberId) →
        Delivers gone expected (world.resume setup now subscriberId)) :
      Delivers gone expected world

/-- A stream that leaves its loop was told to. -/
structure Ending (gone : Prop) (connection : SseConnection π) : Prop where
  aborted : connection.aborted = true → gone ∨ connection.concluded
  ended : connection.phase = .ended → gone ∨ connection.concluded

variable {gone : Prop}

theorem concluded_write {connection : SseConnection π} (output : SseWrite π)
    (concluded : gone ∨ connection.concluded) : gone ∨ (connection.write output).concluded := by
  refine concluded.imp_right ?_
  rintro (⟨frame, member, terminal⟩ | ⟨reason, member⟩ | unnamed)
  · exact .inl ⟨frame, List.mem_append_left _ member, terminal⟩
  · exact .inr (.inl ⟨reason, List.mem_append_left _ member⟩)
  · exact .inr (.inr unnamed)

theorem concluded_writeFrame {connection : SseConnection π} (frame : ServerEventFrame π)
    (concluded : gone ∨ connection.concluded) : gone ∨ (connection.writeFrame frame).concluded := by
  unfold SseConnection.writeFrame
  split
  · exact concluded_write _ concluded
  · exact concluded

theorem Ending.receiveAll {connection : SseConnection π} (limit : Nat)
    (ending : Ending gone connection) (news : List (Delivery π)) :
    Ending gone (news.foldl (SseConnection.receive limit) connection) := by
  induction news generalizing connection with
  | nil => exact ending
  | cons delivery _ ih =>
    refine ih ?_
    cases delivery with
    | sent =>
      simp only [SseConnection.receive, SseConnection.send]
      split
      · exact ⟨ending.aborted, ending.ended⟩
      · exact ⟨ending.aborted, ending.ended⟩
    | closed => exact ⟨ending.aborted, ending.ended⟩

theorem Ending.hear (ending : Ending gone world.connection)
    (dispatcher : WsDispatcher π) :
    Ending gone (world.hear setup dispatcher).connection := by
  unfold SseWorld.hear
  split
  · exact ending
  · exact ending.receiveAll _ _

theorem Ending.drain {connection : SseConnection π} (ending : Ending gone connection)
    (queue : List (ServerMessage π)) :
    Ending gone (connection.drain queue) := by
  induction queue with
  | nil => exact ⟨ending.aborted, ending.ended⟩
  | cons next rest ih =>
    cases next with
    | event frame =>
      have phase : (connection.writeFrame frame).phase = connection.phase ∧
          (connection.writeFrame frame).aborted = connection.aborted := by
        unfold SseConnection.writeFrame
        split
        · exact ⟨rfl, rfl⟩
        · exact ⟨rfl, rfl⟩
      refine ⟨fun aborted => ?_, fun ended => ?_⟩
      · exact concluded_writeFrame frame (ending.aborted (phase.2.symm.trans aborted))
      · exact concluded_writeFrame frame (ending.ended (phase.1.symm.trans ended))
    | lifecycle frame =>
      refine ⟨fun aborted => ?_, fun ended => ?_⟩
      · rcases Bool.or_eq_true_iff.mp aborted with before | terminal
        · exact concluded_write (.lifecycle frame) (ending.aborted before)
        · exact .inr (.inl ⟨frame, List.mem_append_right _ List.mem_cons_self,
            terminal⟩)
      · exact concluded_write (.lifecycle frame) (ending.ended ended)
    | _ => exact ih

theorem Ending.turn (ending : Ending gone world.connection) :
    Ending gone world.turn.connection := by
  unfold SseWorld.turn
  split
  · exact ending
  · split
    · rename_i aborted
      exact ⟨ending.aborted, fun _ => ending.aborted aborted⟩
    · split
      · have told : ∀ frame : ServerLifecycleFrame, frame.status = .failed →
            (world.connection.write (.lifecycle frame)).concluded := by
          intro frame failed
          refine .inl ⟨frame, List.mem_append_right _ List.mem_cons_self, ?_⟩
          rw [failed]
          rfl
        exact ⟨fun _ => .inr (told _ rfl), fun _ => .inr (told _ rfl)⟩
      · exact ending.drain _

theorem accept_threw {subject : String}
    (found : dispatcher.subscribers.get subscriberId = some subscriber)
    (threw : dispatcher.accept subscriberId subject = .error .threw) :
    ∃ parsed, tryParseSubject subject = .ok parsed ∧
      isSubjectAllowed subscriber.handle.grantedScopes parsed = none := by
  simp only [accept, found] at threw
  split at threw
  · cases threw
  · cases threw
  · cases threw
  · rename_i parsed shape
    split at threw
    · exact ⟨parsed, shape, ‹_›⟩
    · cases threw
    · cases threw

theorem subscribe_threw {handle : WsSubscriberHandle} (own : handle.id = subscriberId)
    {subject subscriptionId : String}
    (made : (dispatcher.registerSubscriber handle).subscribe setup.dispatcher now
      subscriberId subject subscriptionId lastEventId = (.error .threw, after)) :
    ∃ parsed, tryParseSubject subject = .ok parsed ∧
      isSubjectAllowed handle.grantedScopes parsed = none := by
  subst own
  have found : (dispatcher.registerSubscriber handle).subscribers.get handle.id =
      some ⟨handle, [], 0, false⟩ :=
    (OrderedMap.get_set _ _ _ _).trans (if_pos rfl)
  refine accept_threw found ?_
  unfold subscribe at made
  split at made
  · rename_i failure refused
    rw [refused]
    cases made
    rfl
  · cases made

theorem Ending.goLive (ending : Ending gone world.connection) (now : Int)
    (subscriberId : String) (lastEventId : Option String) :
    Ending gone (world.goLive setup now subscriberId lastEventId).connection := by
  simp only [SseWorld.goLive]
  cases made : (world.dispatcher.registerSubscriber ⟨subscriberId,
      world.connection.tokenId, world.connection.grantedScopes, .sse⟩).subscribe
      setup.dispatcher now subscriberId world.connection.subject
      (sseSubscriptionId subscriberId) lastEventId with
  | mk result dispatcher =>
    cases result with
    | error reason =>
      cases reason with
      | threw =>
        have unnamed := subscribe_threw setup rfl made
        exact ⟨ending.aborted, fun _ => .inr (.inr (.inr unnamed))⟩
      | _ =>
        have told : ∀ reason, (world.connection.write (.subscribeFailed reason)).concluded :=
          fun reason => .inr (.inl ⟨reason, List.mem_append_right _ List.mem_cons_self⟩)
        exact ⟨fun _ => .inr (told _), fun _ => .inr (told _)⟩
    | ok =>
      have live : Ending gone { world.connection with
          phase := .live
          subscriberId := some subscriberId } :=
        ⟨ending.aborted, fun ended => by cases ended⟩
      exact Ending.turn (Ending.hear setup live _)

theorem replays_ending (calm : world.connection.aborted = true →
      gone ∨ world.connection.concluded) (event : ServerEventFrame π)
    (remaining : List (ServerEventFrame π)) (now : Int) (subscriberId : String)
    (droppedCount : Nat) (lastEventId : Option String) :
    Ending gone (world.advance setup now subscriberId droppedCount lastEventId
      (event :: remaining)).connection := by
  refine ⟨fun aborted => concluded_writeFrame _ (calm ?_),
    fun ended => by cases ended⟩
  simp only [SseWorld.advance, SseConnection.writeFrame] at aborted
  split at aborted
  · exact aborted
  · exact aborted

theorem Ending.advance (ending : Ending gone world.connection) (now : Int)
    (subscriberId : String) (droppedCount : Nat) (lastEventId : Option String)
    (remaining : List (ServerEventFrame π)) :
    Ending gone (world.advance setup now subscriberId droppedCount lastEventId
      remaining).connection := by
  cases remaining with
  | nil =>
    simp only [SseWorld.advance]
    split
    · exact ⟨fun aborted => concluded_write _ (ending.aborted aborted),
        fun ended => by cases ended⟩
    · exact ending.goLive setup now subscriberId lastEventId
  | cons event remaining =>
    exact replays_ending setup ending.aborted event remaining now subscriberId
      droppedCount lastEventId

theorem Ending.resume (ending : Ending gone world.connection) (now : Int)
    (subscriberId : String) :
    Ending gone (world.resume setup now subscriberId).connection := by
  unfold SseWorld.resume
  split
  · exact ending.advance setup now subscriberId _ _ _
  · exact ending.goLive setup now subscriberId _
  · exact ending.turn
  · exact ending

/-- A client that leaves a live stream is what `gone` stands for. -/
theorem Ending.step (ending : Ending gone world.connection) (move : Move π)
    (leaves : move = .aborted → gone) :
    Ending gone (world.step setup move).connection := by
  cases move with
  | resumed now subscriberId => exact ending.resume setup now subscriberId
  | emitted => exact ending.hear setup _
  | pruned => exact ending
  | lifecycle => exact ending.hear setup _
  | aborted =>
    simp only [SseWorld.step]
    split
    · exact ⟨fun _ => .inl (leaves rfl), fun _ => .inl (leaves rfl)⟩
    · exact ending

theorem Ending.run (ending : Ending gone world.connection) (moves : List (Move π))
    (leaves : .aborted ∈ moves → gone) :
    Ending gone (world.run setup moves).connection := by
  induction moves generalizing world with
  | nil => exact ending
  | cons first rest ih =>
    refine ih (ending.step setup first fun same => ?_) fun member => ?_
    · exact leaves (same ▸ List.mem_cons_self)
    · exact leaves (List.mem_cons_of_mem first member)

theorem turn_pushed (world : SseWorld π) : world.turn.pushed = world.pushed := by
  unfold turn
  split
  · rfl
  · split
    · rfl
    · split
      · rfl
      · rfl

/-- Its subscription made, the stream is in its loop; or it left. -/
theorem goLive_phase (world : SseWorld π) (now : Int) (subscriberId : String)
    (lastEventId : Option String) :
    let after := world.goLive setup now subscriberId lastEventId
    after.pushed = world.pushed ∧
      (after.connection.phase = .live ∨ after.connection.phase = .ended) := by
  simp only [goLive]
  split
  · exact ⟨rfl, .inr rfl⟩
  · exact ⟨rfl, .inr rfl⟩
  · rename_i subscribed _
    generalize heard : SseWorld.hear setup _ _ = entered
    have frame := heard ▸ hear_frame setup _ _
    refine ⟨(turn_pushed entered).trans frame.2.1, ?_⟩
    have live : entered.connection.phase = .live := frame.2.2.2.1
    unfold turn
    split
    · exact .inl live
    · split
      · exact .inr rfl
      · split
        · exact .inl live
        · exact .inl ((drain_frame _ _).1.trans live)

theorem drain_shorter (next : ServerMessage π) (rest : List (ServerMessage π))
    (connection : SseConnection π) :
    (connection.drain (next :: rest)).queue.length ≤ rest.length := by
  induction rest generalizing next with
  | nil =>
    cases next with
    | event => exact Nat.le_refl _
    | lifecycle => exact Nat.le_refl _
    | _ => exact Nat.le_refl _
  | cons second rest ih =>
    cases next with
    | event => exact Nat.le_refl _
    | lifecycle => exact Nat.le_refl _
    | _ => exact (ih second).trans (Nat.le_succ _)

/-- Each turn of the loop takes a message from the queue. -/
theorem live_delivers (sound : world.Sound setup held missed)
    (ending : Ending gone world.connection) (live : world.connection.phase = .live) :
    world.Delivers setup gone (missed ++ world.pushed) := by
  obtain ⟨-, ⟨subscriberId, own, -⟩, -⟩ := sound.live live
  induction size : world.connection.queue.length using Nat.strong_induction_on
    generalizing world with
  | h size ih =>
    cases aborted : world.connection.aborted with
    | true => exact .concluded (ending.aborted aborted)
    | false =>
      refine .resumed fun now other _ => ?_
      have resumed : world.resume setup now other = world.turn := by
        simp only [resume, live]
      have later : world.turn.Sound setup held missed :=
        turn_sound setup sound.wellformed live (sound.live live)
      have ending' := ending.turn
      rw [resumed]
      cases closed : world.connection.closedByBackpressure with
      | true =>
        refine .concluded (ending'.aborted ?_)
        simp only [turn, own, aborted, closed, if_true, Bool.false_eq_true, if_false]
      | false =>
        have drained : world.turn = { world with
            connection := world.connection.drain world.connection.queue } := by
          simp only [turn, own, aborted, closed, Bool.false_eq_true, if_false]
        obtain ⟨phase, -, own', closed'⟩ := drain_frame world.connection.queue
          world.connection
        have live' : world.turn.connection.phase = .live := by
          rw [drained]
          exact phase.trans live
        cases queue : world.connection.queue with
        | nil =>
          have whole := sound.exact.whole ⟨live, queue, aborted, closed⟩
          refine .whole ?_
          rw [drained, queue]
          exact whole
        | cons next rest =>
          have shorter := drain_shorter next rest world.connection
          rw [← turn_pushed world]
          refine ih world.turn.connection.queue.length ?_ later ending' live' ?_ rfl
          · rw [drained, queue]
            rw [queue, List.length_cons] at size
            exact Nat.lt_of_le_of_lt shorter (by omega)
          · rw [drained]
            exact own'.trans own

/-- A stream that is never told to end writes everything. -/
theorem sound_delivers (positive : 0 < setup.dispatcher.perConnectionQueueLimit)
    (ends : missed <:+ held) (sound : world.Sound setup held missed)
    (ending : Ending gone world.connection) :
    world.Delivers setup gone (missed ++ world.pushed) := by
  cases phase : world.connection.phase with
  | marked lastEventId => exact absurd phase (sound.unmarked lastEventId)
  | live => exact live_delivers setup sound ending phase
  | ended => exact .concluded (ending.ended phase)
  | replaying remaining droppedCount lastEventId =>
    induction remaining generalizing world droppedCount lastEventId with
    | nil =>
      refine .resumed fun now subscriberId admitted => ?_
      have sound' := resume_sound setup positive ends sound admitted
      have ending' := ending.resume setup now subscriberId
      obtain ⟨rfl, -⟩ := sound.replaying phase
      have entered : world.resume setup now subscriberId =
          world.goLive setup now subscriberId lastEventId := by
        simp only [resume, phase, advance, Nat.lt_irrefl, if_false]
      obtain ⟨pushed, live | ended⟩ := goLive_phase setup world now subscriberId
        lastEventId
      · rw [← pushed, ← entered]
        rw [← entered] at live
        exact live_delivers setup sound' ending' live
      · rw [← entered] at ended
        exact .concluded (ending'.ended ended)
    | cons event remaining ih =>
      refine .resumed fun now subscriberId admitted => ?_
      have sound' := resume_sound setup positive ends sound admitted
      have ending' := ending.resume setup now subscriberId
      have next : world.resume setup now subscriberId = world.advance setup now
          subscriberId droppedCount lastEventId (event :: remaining) := by
        simp only [resume, phase]
      rw [next] at sound' ending' ⊢
      exact ih sound' ending' _ _ rfl

end SseWorld

/-- The buffer holds the cursor of the request, and this is what follows it. -/
structure Resumes (now : Int) (request : SseRequest) (dispatcher : WsDispatcher π)
    (before : List (ServerEventFrame π)) (cursor : ServerEventFrame π)
    (missed : List (ServerEventFrame π)) : Prop where
  held : ((dispatcher.replayBuffer.pruneSubject setup.dispatcher.replayOptions now
    request.subject).listOf request.subject).map BufferedEvent.event =
      before ++ cursor :: missed
  named : request.sinceEventId = some cursor.eventId
  first : ∀ event ∈ before, event.eventId ≠ cursor.eventId

theorem SseWorld.connect_sound {dispatcher : WsDispatcher π}
    (consistent : dispatcher.Consistent) {now : Int} {request : SseRequest}
    {before missed : List (ServerEventFrame π)} {cursor : ServerEventFrame π}
    (resumes : Resumes setup now request dispatcher before cursor missed)
    (behind : missed ≠ []) (wellformed : ∀ event ∈ missed, Wellformed event)
    (subscriberId : String) :
    (connect setup now subscriberId request dispatcher).Sound setup
      (before ++ cursor :: missed) missed := by
  obtain ⟨events, droppedCount⟩ :=
    ReplayBuffer.slice_after resumes.held rfl resumes.first
  simp only [connect, ReplayBuffer.replay, resumes.named, events, droppedCount]
  obtain ⟨event, remaining, rfl⟩ := List.exists_cons_of_ne_nil behind
  refine advance_sound setup ?_ (consistent.congr rfl rfl rfl) rfl rfl rfl ?_ [] rfl
    .nil now subscriberId none
  · rw [List.append_nil]
    exact wellformed
  · rw [List.append_nil, ← resumes.held]
    exact List.suffix_refl _

theorem SseWorld.connect_ending (gone : Prop) {dispatcher : WsDispatcher π} {now : Int}
    {request : SseRequest} {before missed : List (ServerEventFrame π)}
    {cursor : ServerEventFrame π}
    (resumes : Resumes setup now request dispatcher before cursor missed)
    (behind : missed ≠ []) (subscriberId : String) :
    Ending gone (connect setup now subscriberId request dispatcher).connection := by
  obtain ⟨events, droppedCount⟩ :=
    ReplayBuffer.slice_after resumes.held rfl resumes.first
  simp only [connect, ReplayBuffer.replay, resumes.named, events, droppedCount]
  obtain ⟨event, remaining, rfl⟩ := List.exists_cons_of_ne_nil behind
  exact replays_ending setup (fun aborted => Bool.noConfusion aborted) event remaining
    now subscriberId 0 none

/-- A stream whose cursor is not the newest event writes what was pushed after the
cursor, each event once and in order, under every interleaving that leaves the buffer
lined up until it subscribes; and it writes all of it, unless the client leaves or the
stream is told to end. -/
theorem resume_writes_each_once (positive : 0 < setup.dispatcher.perConnectionQueueLimit)
    {dispatcher : WsDispatcher π} (consistent : dispatcher.Consistent) {now : Int}
    {request : SseRequest} {before missed : List (ServerEventFrame π)}
    {cursor : ServerEventFrame π}
    (resumes : Resumes setup now request dispatcher before cursor missed)
    (behind : missed ≠ []) (wellformed : ∀ event ∈ missed, Wellformed event)
    (subscriberId : String) (moves : List (SseWorld.Move π))
    (follows : (SseWorld.connect setup now subscriberId request dispatcher).Follows setup
      moves) :
    let world := (SseWorld.connect setup now subscriberId request dispatcher).run setup
      moves
    Exact setup (missed ++ world.pushed) world.connection ∧
      world.Delivers setup (.aborted ∈ moves) (missed ++ world.pushed) := by
  have sound := SseWorld.connect_sound setup consistent resumes behind wellformed
    subscriberId
  have ending := SseWorld.connect_ending setup (.aborted ∈ moves) resumes behind
    subscriberId
  have ends : missed <:+ before ++ cursor :: missed :=
    ⟨before ++ [cursor], by rw [List.append_assoc, List.singleton_append]⟩
  have after := SseWorld.run_sound setup positive ends sound follows
  exact ⟨after.exact, SseWorld.sound_delivers setup positive ends after
    (ending.run setup moves id)⟩

/-- Default limits, and no commentary to take out. -/
def plainSse : SseSetup Unit where
  dispatcher := ⟨⟨fun _ _ payload => payload⟩, ⟨1000, 300000⟩, 1000,
    fun _ => ⟨0, false⟩⟩
  sanitizer := ⟨fun _ _ payload => payload⟩
  perConnectionQueueLimit := 1000

/-- A dispatcher that two events were emitted on. -/
def twoEvents : WsDispatcher Unit :=
  (WsDispatcher.empty.emit plainSse.dispatcher 1 "session:s/events"
    ⟨"text", (), some "a"⟩).emit plainSse.dispatcher 2 "session:s/events"
    ⟨"text", (), some "b"⟩

def resumeFrom (cursor : String) : SseRequest where
  sessionId := "s"
  tokenId := "t"
  grantedScopes := [.twoSegment "sessions" "read" "sessions:read"]
  sinceEventId := some cursor

def eventNamed (name : String) : ServerEventFrame Unit :=
  ⟨name, "__pending__", "session:s/events", "text", ()⟩

theorem twoEvents_consistent : twoEvents.Consistent :=
  emit_consistent _ (emit_consistent _
    (WsDispatcher.shutdown_consistent WsDispatcher.empty) 1 _ _) 2 _ _

/-- The second event is replayed, a third comes while it is being written, and a
fourth once the stream is live. -/
theorem older_cursor_resumes :
    let moves : List (SseWorld.Move Unit) :=
      [.emitted 3 "session:s/events" ⟨"text", (), some "c"⟩, .resumed 4 "sse-1",
        .emitted 5 "session:s/events" ⟨"text", (), some "d"⟩, .resumed 6 ""]
    let world := (SseWorld.connect plainSse 2 "" (resumeFrom "a") twoEvents).run plainSse
      moves
    Exact plainSse ([eventNamed "b"] ++ world.pushed) world.connection ∧
      world.Delivers plainSse (.aborted ∈ moves) ([eventNamed "b"] ++ world.pushed) := by
  have resumes : Resumes plainSse 2 (resumeFrom "a") twoEvents [] (eventNamed "a")
      [eventNamed "b"] := ⟨by decide, rfl, by decide⟩
  exact resume_writes_each_once plainSse (by decide) twoEvents_consistent resumes
    (by decide) (by decide) "" _ (by decide)

/-- Where the cursor is the newest event the whole buffer is written again. -/
theorem newest_cursor_repeats :
    Resumes plainSse 2 (resumeFrom "b") twoEvents [eventNamed "a"] (eventNamed "b") [] ∧
      ¬ Exact plainSse []
        (SseWorld.connect plainSse 2 "sse-1" (resumeFrom "b") twoEvents).connection := by
  refine ⟨⟨by decide, rfl, by decide⟩, ?_⟩
  rintro ⟨⟨shown, none', shows⟩, -⟩
  rw [List.prefix_nil.mp none'] at shows
  have written : (SseWorld.connect plainSse 2 "sse-1" (resumeFrom "b")
      twoEvents).connection.writtenFrames.length = 1 := by decide
  rw [List.forall₂_nil_right_iff.mp shows] at written
  cases written

end Graphorin.Server
