import Graphorin.Lib.OrderedMap

namespace Graphorin.Server

open Graphorin.Lib

/-! Frames of the wire protocol, and the buffer that replays event frames. -/

structure ServerEventFrame (π : Type) where
  eventId : String
  subscriptionId : String
  subject : String
  type : String
  payload : π
deriving DecidableEq

inductive LifecycleStatus
  | running
  | paused
  | completed
  | aborted
  | failed
deriving DecidableEq

structure ServerLifecycleFrame where
  subscriptionId : String
  status : LifecycleStatus
  reason : Option String
deriving DecidableEq

structure ServerReplayMarkerFrame where
  subscriptionId : String
  eventId : String
  droppedCount : Nat
  note : Option String
deriving DecidableEq

structure BufferedEvent (π : Type) where
  event : ServerEventFrame π
  bufferedAt : Int
deriving DecidableEq

structure ReplayBufferSlice (π : Type) where
  events : List (ServerEventFrame π)
  droppedCount : Nat
  nextEventIdHint : Option String

structure ReplayBufferOptions where
  maxEvents : Nat
  ttlMs : Int

structure ReplayBuffer (π : Type) where
  buffers : OrderedMap String (List (BufferedEvent π))
  dropped : OrderedMap String Nat

namespace ReplayBuffer

variable {π : Type} (options : ReplayBufferOptions)

def empty : ReplayBuffer π := ⟨.empty, .empty⟩

def listOf (buffer : ReplayBuffer π) (subject : String) : List (BufferedEvent π) :=
  (buffer.buffers.get subject).getD []

def droppedOf (buffer : ReplayBuffer π) (subject : String) : Nat :=
  (buffer.dropped.get subject).getD 0

def setList (buffer : ReplayBuffer π) (subject : String)
    (list : List (BufferedEvent π)) : ReplayBuffer π :=
  { buffer with buffers := buffer.buffers.set subject list }

def drop (buffer : ReplayBuffer π) (subject : String) (count : Nat) :
    ReplayBuffer π :=
  { buffer with
    dropped := buffer.dropped.set subject (buffer.droppedOf subject + count) }

def forget (buffer : ReplayBuffer π) (subject : String) : ReplayBuffer π :=
  ⟨buffer.buffers.delete subject, buffer.dropped.delete subject⟩

def expired (now : Int) (entry : BufferedEvent π) : Bool :=
  entry.bufferedAt < now - options.ttlMs

def pruneSubject (now : Int) (subject : String) (buffer : ReplayBuffer π) :
    ReplayBuffer π :=
  let list := buffer.listOf subject
  if list = [] then buffer
  else
    let cutoffIndex := (list.takeWhile (expired options now)).length
    let kept := list.drop cutoffIndex
    let pruned :=
      if 0 < cutoffIndex then (buffer.setList subject kept).drop subject cutoffIndex
      else buffer
    if kept = [] then pruned.forget subject else pruned

/-- `push` reads the clock twice, for the cutoff and for the stamp. -/
def pushAt (cutoff stamp : Int) (subject : String) (event : ServerEventFrame π)
    (buffer : ReplayBuffer π) : ReplayBuffer π :=
  let buffer := buffer.pruneSubject options cutoff subject
  let list := buffer.listOf subject ++ [⟨event, stamp⟩]
  if options.maxEvents < list.length then
    let overflow := list.length - options.maxEvents
    (buffer.setList subject (list.drop overflow)).drop subject overflow
  else buffer.setList subject list

/-- `prune` reads the clock for each subject. -/
def pruneAt (clock : String → Int) (buffer : ReplayBuffer π) : ReplayBuffer π :=
  buffer.buffers.keys.foldl (fun buffer subject =>
    buffer.pruneSubject options (clock subject) subject) buffer

/-- With the clock read once. -/
def push (now : Int) : String → ServerEventFrame π → ReplayBuffer π → ReplayBuffer π :=
  pushAt options now now

def prune (now : Int) : ReplayBuffer π → ReplayBuffer π := pruneAt options fun _ => now

def slice (buffer : ReplayBuffer π) (subject : String)
    (sinceEventId : Option String) : ReplayBufferSlice π :=
  let list := buffer.listOf subject
  let events := list.map BufferedEvent.event
  let last := (events.getLast?).map ServerEventFrame.eventId
  match sinceEventId with
  | none => ⟨events, buffer.droppedOf subject, last⟩
  | some since =>
    match list.findIdx? fun entry => entry.event.eventId = since with
    | none => ⟨events, max (buffer.droppedOf subject) 1, last⟩
    | some startIndex =>
      let replayed := events.drop (startIndex + 1)
      ⟨replayed, 0, (replayed.getLast?).map ServerEventFrame.eventId⟩

def replay (now : Int) (subject : String) (sinceEventId : Option String)
    (buffer : ReplayBuffer π) : ReplayBufferSlice π × ReplayBuffer π :=
  let buffer := buffer.pruneSubject options now subject
  (buffer.slice subject sinceEventId, buffer)

@[simp] theorem listOf_setList_self (buffer : ReplayBuffer π) (subject : String)
    (list : List (BufferedEvent π)) :
    (buffer.setList subject list).listOf subject = list := by
  simp [listOf, setList, OrderedMap.get_set]

variable {subject other : String}

theorem listOf_setList_other (buffer : ReplayBuffer π) (apart : other ≠ subject)
    (list : List (BufferedEvent π)) :
    (buffer.setList subject list).listOf other = buffer.listOf other := by
  simp [listOf, setList, OrderedMap.get_set, apart]

@[simp] theorem listOf_drop (buffer : ReplayBuffer π) (subject other : String)
    (count : Nat) : (buffer.drop subject count).listOf other = buffer.listOf other :=
  rfl

@[simp] theorem listOf_forget_self (buffer : ReplayBuffer π) (subject : String) :
    (buffer.forget subject).listOf subject = [] := by
  simp [listOf, forget, OrderedMap.get_delete]

theorem listOf_forget_other (buffer : ReplayBuffer π) (apart : other ≠ subject) :
    (buffer.forget subject).listOf other = buffer.listOf other := by
  simp [listOf, forget, OrderedMap.get_delete, apart]

theorem listOf_pruneSubject_self (now : Int) (subject : String)
    (buffer : ReplayBuffer π) :
    (buffer.pruneSubject options now subject).listOf subject =
      (buffer.listOf subject).dropWhile (expired options now) := by
  have cut : ∀ list : List (BufferedEvent π),
      list.drop (list.takeWhile (expired options now)).length =
        list.dropWhile (expired options now) := by
    intro list
    have split := @List.takeWhile_append_dropWhile _ (expired options now) list
    exact (congrArg (List.drop (list.takeWhile (expired options now)).length)
      split.symm).trans List.drop_left
  simp only [pruneSubject]
  split
  · rename_i none'
    rw [none', List.dropWhile_nil]
  · rename_i some'
    rw [cut]
    split
    · rename_i all
      rw [listOf_forget_self, all]
    · split
      · rw [listOf_drop, listOf_setList_self]
      · rename_i fresh
        have whole := cut (buffer.listOf subject)
        rw [Nat.eq_zero_of_not_pos fresh, List.drop_zero] at whole
        exact whole

theorem listOf_pruneSubject_other (now : Int) (apart : other ≠ subject)
    (buffer : ReplayBuffer π) :
    (buffer.pruneSubject options now subject).listOf other = buffer.listOf other := by
  simp only [pruneSubject]
  split
  · rfl
  · split
    · rw [listOf_forget_other _ apart]
      split
      · rw [listOf_drop, listOf_setList_other _ apart]
      · rfl
    · split
      · rw [listOf_drop, listOf_setList_other _ apart]
      · rfl

theorem listOf_pushAt_self (cutoff stamp : Int) (subject : String) (event : ServerEventFrame π)
    (buffer : ReplayBuffer π) :
    (buffer.pushAt options cutoff stamp subject event).listOf subject =
      let list := (buffer.pruneSubject options cutoff subject).listOf subject ++ [⟨event, stamp⟩]
      list.drop (list.length - options.maxEvents) := by
  simp only [pushAt]
  split
  · rw [listOf_drop, listOf_setList_self]
  · rename_i fits
    rw [listOf_setList_self, Nat.sub_eq_zero_of_le (Nat.le_of_not_lt fits), List.drop_zero]

theorem listOf_pushAt_other (cutoff stamp : Int) (apart : other ≠ subject)
    (event : ServerEventFrame π) (buffer : ReplayBuffer π) :
    (buffer.pushAt options cutoff stamp subject event).listOf other = buffer.listOf other := by
  simp only [pushAt]
  split
  · rw [listOf_drop, listOf_setList_other _ apart,
      listOf_pruneSubject_other options cutoff apart]
  · rw [listOf_setList_other _ apart, listOf_pruneSubject_other options cutoff apart]

theorem pruneSubject_suffix (now : Int) (subject other : String) (buffer : ReplayBuffer π) :
    (buffer.pruneSubject options now subject).listOf other <:+ buffer.listOf other := by
  by_cases same : other = subject
  · subst same
    rw [listOf_pruneSubject_self]
    exact List.dropWhile_suffix _
  · simp only [listOf_pruneSubject_other options now same, List.suffix_refl]

theorem pruneAt_suffix (clock : String → Int) (subject : String) (buffer : ReplayBuffer π) :
    (buffer.pruneAt options clock).listOf subject <:+ buffer.listOf subject := by
  have each : ∀ (subjects : List String) (buffer : ReplayBuffer π),
      (subjects.foldl (fun buffer subject =>
        buffer.pruneSubject options (clock subject) subject) buffer).listOf subject <:+
        buffer.listOf subject := by
    intro subjects
    induction subjects with
    | nil => exact fun buffer => List.suffix_refl _
    | cons first rest ih =>
      exact fun buffer => (ih _).trans (pruneSubject_suffix options _ _ _ _)
  exact each buffer.buffers.keys buffer

/-- What a push keeps: what had not expired, and of that the newest. -/
theorem listOf_push_self (now : Int) (subject : String) (event : ServerEventFrame π)
    (buffer : ReplayBuffer π) :
    (buffer.push options now subject event).listOf subject =
      let list := (buffer.listOf subject).dropWhile (expired options now) ++
        [⟨event, now⟩]
      list.drop (list.length - options.maxEvents) := by
  rw [push, listOf_pushAt_self, listOf_pruneSubject_self]

theorem listOf_push_other (now : Int) (apart : other ≠ subject) (event : ServerEventFrame π)
    (buffer : ReplayBuffer π) :
    (buffer.push options now subject event).listOf other = buffer.listOf other :=
  listOf_pushAt_other options now now apart event buffer

theorem prune_suffix (now : Int) (subject : String) (buffer : ReplayBuffer π) :
    (buffer.prune options now).listOf subject <:+ buffer.listOf subject :=
  pruneAt_suffix options _ subject buffer

theorem push_suffix (now : Int) (subject : String) (event : ServerEventFrame π)
    (buffer : ReplayBuffer π) :
    (buffer.push options now subject event).listOf subject <:+
      buffer.listOf subject ++ [⟨event, now⟩] := by
  rw [listOf_push_self]
  refine (List.drop_suffix _ _).trans ?_
  obtain ⟨dropped, whole⟩ := List.dropWhile_suffix (expired options now)
    (l := buffer.listOf subject)
  exact ⟨dropped, by rw [← List.append_assoc, whole]⟩

variable {buffer : ReplayBuffer π} {since : String}

theorem slice_after
    (held : (buffer.listOf subject).map BufferedEvent.event = before ++ cursor :: after)
    (named : cursor.eventId = since) (first : ∀ event ∈ before, event.eventId ≠ since) :
    (buffer.slice subject (some since)).events = after ∧
      (buffer.slice subject (some since)).droppedCount = 0 := by
  obtain ⟨older, rest, split, olderEvents, restEvents⟩ := List.map_eq_append_iff.mp held
  obtain ⟨entry, newer, shape, entryEvent, newerEvents⟩ := List.map_eq_cons_iff.mp restEvents
  have missed : older.findIdx? (fun entry => entry.event.eventId = since) = none := by
    rw [List.findIdx?_eq_none_iff]
    intro entry member
    rw [decide_eq_false_iff_not]
    refine first entry.event ?_
    rw [← olderEvents]
    exact List.mem_map_of_mem member
  have found : (buffer.listOf subject).findIdx?
      (fun entry => entry.event.eventId = since) = some older.length := by
    rw [split, shape, List.findIdx?_append, missed, List.findIdx?_cons, entryEvent,
      named]
    simp
  simp only [slice, found]
  refine ⟨?_, trivial⟩
  have length : older.length = before.length := by
    rw [← olderEvents, List.length_map]
  rw [held, length]
  simp

theorem slice_missing
    (absent : ∀ event ∈ (buffer.listOf subject).map BufferedEvent.event, event.eventId ≠ since) :
    (buffer.slice subject (some since)).events =
      (buffer.listOf subject).map BufferedEvent.event := by
  have missed : (buffer.listOf subject).findIdx?
      (fun entry => entry.event.eventId = since) = none := by
    rw [List.findIdx?_eq_none_iff]
    intro entry member
    rw [decide_eq_false_iff_not]
    exact absent entry.event (List.mem_map_of_mem member)
  simp only [slice, missed]

theorem slice_missing_dropped
    (absent : ∀ event ∈ (buffer.listOf subject).map BufferedEvent.event, event.eventId ≠ since)
    : 1 ≤ (buffer.slice subject (some since)).droppedCount := by
  have missed : (buffer.listOf subject).findIdx?
      (fun entry => entry.event.eventId = since) = none := by
    rw [List.findIdx?_eq_none_iff]
    intro entry member
    rw [decide_eq_false_iff_not]
    exact absent entry.event (List.mem_map_of_mem member)
  simp only [slice, missed]
  exact Nat.le_max_right _ _

def size (now : Int) (subject : String) (buffer : ReplayBuffer π) : Nat × ReplayBuffer π :=
  let buffer := buffer.pruneSubject options now subject
  ((buffer.listOf subject).length, buffer)

inductive Call (π : Type) where
  | push (cutoff stamp : Int) (subject : String) (event : ServerEventFrame π)
  | replay (now : Int) (subject : String) (sinceEventId : Option String)
  | size (now : Int) (subject : String)
  | prune (clock : String → Int)
  | forget (subject : String)

def call (buffer : ReplayBuffer π) : Call π → ReplayBuffer π
  | .push cutoff stamp subject event => buffer.pushAt options cutoff stamp subject event
  | .replay now subject since => (buffer.replay options now subject since).2
  | .size now subject => (buffer.size options now subject).2
  | .prune clock => buffer.pruneAt options clock
  | .forget subject => buffer.forget subject

def play (calls : List (Call π)) : ReplayBuffer π := calls.foldl (call options) empty

def retained (buffer : ReplayBuffer π) (subject : String) : List (ServerEventFrame π) :=
  (buffer.listOf subject).map BufferedEvent.event

/-- All events ever pushed for a subject. -/
def pushed (subject : String) (calls : List (Call π)) : List (ServerEventFrame π) :=
  calls.filterMap fun
    | .push _ _ target event => if target = subject then some event else none
    | _ => none

def renew (list : List (BufferedEvent π)) (since : List (ServerEventFrame π)) :
    List (ServerEventFrame π) :=
  match list with
  | [] => []
  | _ :: _ => since

/-- The events pushed for a subject since its buffer was last empty, after one more call. -/
def record (subject : String) (buffer : ReplayBuffer π) (since : List (ServerEventFrame π))
    (next : Call π) : List (ServerEventFrame π) :=
  renew ((buffer.call options next).listOf subject)
    (match next with
      | .push cutoff _ target event =>
        if target = subject then
          renew ((buffer.pruneSubject options cutoff subject).listOf subject) since ++ [event]
        else since
      | _ => since)

def pushedSinceEmpty (subject : String) (calls : List (Call π)) : List (ServerEventFrame π) :=
  (calls.foldl (fun (state : ReplayBuffer π × List (ServerEventFrame π)) next =>
    (state.1.call options next, record options subject state.1 state.2 next)) (empty, [])).2

/-- A call that pushes nothing for a subject only takes from the front of what it retains. -/
theorem call_suffix (next : Call π) (subject : String) (buffer : ReplayBuffer π)
    (pushes : ∀ cutoff stamp event, next ≠ .push cutoff stamp subject event) :
    (buffer.call options next).listOf subject <:+ buffer.listOf subject := by
  cases next with
  | push cutoff stamp target event =>
    have apart : subject ≠ target := by
      rintro rfl
      exact pushes cutoff stamp event rfl
    simp only [call, listOf_pushAt_other options cutoff stamp apart, List.suffix_refl]
  | replay now target => exact pruneSubject_suffix options now target subject buffer
  | size now target => exact pruneSubject_suffix options now target subject buffer
  | prune clock => exact pruneAt_suffix options clock subject buffer
  | forget target =>
    by_cases same : subject = target
    · subst same
      rw [call, listOf_forget_self]
      exact List.nil_suffix
    · simp only [call, listOf_forget_other _ same, List.suffix_refl]

structure Suffixed (list : List (BufferedEvent π)) (since : List (ServerEventFrame π)) :
    Prop where
  suffix : list.map BufferedEvent.event <:+ since
  bounded : list.length ≤ options.maxEvents

variable {since : List (ServerEventFrame π)}

theorem renewed {list : List (BufferedEvent π)}
    (suffix : list.map BufferedEvent.event <:+ since) :
    list.map BufferedEvent.event <:+ renew list since ∧ renew list since <:+ since := by
  cases list with
  | nil => exact ⟨List.suffix_refl _, List.nil_suffix⟩
  | cons => exact ⟨suffix, List.suffix_refl _⟩

theorem Suffixed.call {buffer : ReplayBuffer π} {subject : String}
    {since : List (ServerEventFrame π)}
    (suffixed : Suffixed options (buffer.listOf subject) since) (next : Call π) :
    Suffixed options ((buffer.call options next).listOf subject)
      (record options subject buffer since next) := by
  have quiet (pushes : ∀ cutoff stamp event, next ≠ .push cutoff stamp subject event) :
      Suffixed options ((buffer.call options next).listOf subject)
        (renew ((buffer.call options next).listOf subject) since) := by
    have shorter := call_suffix options next subject buffer pushes
    have suffix := (shorter.map BufferedEvent.event).trans suffixed.suffix
    exact ⟨(renewed suffix).1, shorter.length_le.trans suffixed.bounded⟩
  cases next with
  | push cutoff stamp target event =>
    by_cases same : target = subject
    · subst same
      have pruned := ((pruneSubject_suffix options cutoff target target buffer).map
        BufferedEvent.event).trans suffixed.suffix
      rw [record]
      simp only [ReplayBuffer.call, if_true]
      rw [listOf_pushAt_self]
      dsimp only
      generalize (buffer.pruneSubject options cutoff target).listOf target = kept at pruned ⊢
      constructor
      · refine (renewed (((List.drop_suffix _ _).map BufferedEvent.event).trans ?_)).1
        rw [List.map_append]
        obtain ⟨dropped, whole⟩ := (renewed pruned).1
        exact ⟨dropped, by rw [← List.append_assoc, whole]; rfl⟩
      · rw [List.length_drop]
        omega
    · have still := quiet fun cutoff stamp event pushes => by
        cases pushes
        exact same rfl
      rw [record]
      simp only [if_neg same]
      exact still
  | _ => exact quiet nofun

theorem record_suffix {before : List (ServerEventFrame π)} (suffix : since <:+ before)
    (next : Call π) :
    record options subject buffer since next <:+ before ++ pushed subject [next] := by
  have renew_suffix (list : List (BufferedEvent π)) (events : List (ServerEventFrame π)) :
      renew list events <:+ events := by
    cases list with
    | nil => exact List.nil_suffix
    | cons => exact List.suffix_refl _
  refine (renew_suffix _ _).trans ?_
  cases next with
  | push cutoff _ target =>
    by_cases same : target = subject
    · simp only [pushed, List.filterMap_cons, List.filterMap_nil, if_pos same]
      obtain ⟨older, whole⟩ := (renew_suffix ((buffer.pruneSubject options cutoff
        subject).listOf subject) since).trans suffix
      exact ⟨older, by rw [← List.append_assoc, whole]⟩
    · simp only [pushed, List.filterMap_cons, List.filterMap_nil, if_neg same,
        List.append_nil]
      exact suffix
  | _ =>
    simp only [pushed, List.filterMap_cons, List.filterMap_nil, List.append_nil]
    exact suffix

theorem pushed_append (subject : String) (first second : List (Call π)) :
    pushed subject (first ++ second) = pushed subject first ++ pushed subject second :=
  List.filterMap_append

theorem suffixed_play (subject : String) (calls : List (Call π)) :
    Suffixed options ((play options calls).listOf subject)
        (pushedSinceEmpty options subject calls) ∧
      pushedSinceEmpty options subject calls <:+ pushed subject calls := by
  have each : ∀ (later earlier : List (Call π))
      (state : ReplayBuffer π × List (ServerEventFrame π)),
      Suffixed options (state.1.listOf subject) state.2 → state.2 <:+ pushed subject earlier →
        let final := later.foldl (fun (state : ReplayBuffer π × List (ServerEventFrame π)) next =>
          (state.1.call options next, record options subject state.1 state.2 next)) state
        final.1 = later.foldl (call options) state.1 ∧
          Suffixed options (final.1.listOf subject) final.2 ∧
            final.2 <:+ pushed subject (earlier ++ later) := by
    intro later
    induction later with
    | nil =>
      intro earlier state suffixed suffix
      rw [List.append_nil]
      exact ⟨rfl, suffixed, suffix⟩
    | cons next rest ih =>
      intro earlier state suffixed suffix
      have stepped := ih (earlier ++ [next]) (state.1.call options next,
        record options subject state.1 state.2 next) (suffixed.call options next) (by
          rw [pushed_append]
          exact record_suffix options suffix next)
      rw [List.append_assoc] at stepped
      exact stepped
  obtain ⟨same, suffixed, suffix⟩ := each calls [] (empty, [])
    ⟨List.suffix_refl _, Nat.zero_le _⟩ List.nil_suffix
  rw [play, ← same]
  exact ⟨suffixed, suffix⟩

/-- What the buffer of a subject shows after `calls`, and what a replay from it returns. -/
structure GapHonest (calls : List (Call π)) (subject : String) : Prop where
  suffix : (play options calls).retained subject <:+ pushedSinceEmpty options subject calls
  pushed : pushedSinceEmpty options subject calls <:+ pushed subject calls
  bounded : ((play options calls).retained subject).length ≤ options.maxEvents
  follows : ∀ now before cursor after,
    ReplayBuffer.pushed subject calls = before ++ cursor :: after →
      cursor ∈ ((play options calls).replay options now subject none).2.retained subject →
        let slice := ((play options calls).replay options now subject (some cursor.eventId)).1
        slice.events = after ∧ slice.droppedCount = 0
  missed : ∀ now since,
    let replayed := (play options calls).replay options now subject (some since)
    (∀ event ∈ replayed.2.retained subject, event.eventId ≠ since) →
      replayed.1.events = replayed.2.retained subject ∧ 1 ≤ replayed.1.droppedCount

/-- The buffer of a subject is a bounded suffix of what was pushed since it was last empty, and
a replay returns what follows its cursor or, with the gap counted, everything. -/
theorem replay_buffer_gap_honest (calls : List (Call π)) (subject : String)
    (unique : ((pushed subject calls).map ServerEventFrame.eventId).Nodup) :
    GapHonest options calls subject := by
  obtain ⟨suffixed, pushed⟩ := suffixed_play options subject calls
  refine ⟨suffixed.suffix, pushed, ?_, ?_, ?_⟩
  · rw [retained, List.length_map]
    exact suffixed.bounded
  · intro now before cursor after split held
    have shorter := pruneSubject_suffix options now subject subject (play options calls)
    obtain ⟨older, whole⟩ := ((shorter.map BufferedEvent.event).trans suffixed.suffix).trans pushed
    obtain ⟨first, last, shape⟩ := List.append_of_mem held
    have known : ((pruneSubject options now subject (play options calls)).listOf
        subject).map BufferedEvent.event = first ++ cursor :: last := shape
    rw [split] at unique whole
    have distinct := List.Nodup.of_map _ unique
    obtain ⟨-, newer, apart⟩ := List.nodup_append.mp distinct
    have ahead : cursor ∉ before := fun member => apart cursor member cursor List.mem_cons_self rfl
    rw [known, ← List.append_assoc] at whole
    obtain ⟨front, -, rest⟩ := (List.append_cons_inj_of_notMem ahead
      (List.nodup_cons.mp newer).1).mp whole.symm
    subst rest
    refine slice_after known rfl fun event member same => ?_
    rw [List.map_append, List.nodup_append] at unique
    refine unique.2.2 event.eventId (List.mem_map_of_mem ?_) cursor.eventId
      (List.mem_map_of_mem List.mem_cons_self) same
    rw [front]
    exact List.mem_append_right _ member
  · intro now since replayed absent
    exact ⟨slice_missing absent, slice_missing_dropped absent⟩

section Example

private def frame (eventId : String) : ServerEventFrame Unit :=
  { eventId, subscriptionId := "sub", subject := "run", type := "run.event", payload := () }

private def small : ReplayBufferOptions := { maxEvents := 2, ttlMs := 10 }

private def threeEvents : List (Call Unit) :=
  [.push 0 0 "run" (frame "a"), .push 1 1 "run" (frame "b"), .push 2 2 "run" (frame "c")]

/-- The oldest of three events is dropped, and the other two are replayed in order. -/
theorem three_events_gap_honest : GapHonest small threeEvents "run" ∧
    ((play small threeEvents).replay small 3 "run" (some "b")).1.events = [frame "c"] ∧
      ((play small threeEvents).replay small 3 "run" (some "a")).1.droppedCount = 1 :=
  ⟨replay_buffer_gap_honest small threeEvents "run" (by decide), by decide,
    by decide⟩

end Example

end ReplayBuffer

end Graphorin.Server
