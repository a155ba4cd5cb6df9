import Graphorin.Audit.Canonical
import Graphorin.Tools.Batch

namespace Graphorin.Tools.Streaming

open Graphorin.Audit (JsText isHighSurrogate isLowSurrogate)

/-! The streaming channel of a tool call: chunks are handed to the sink as they come and
gathered in a buffer of bounded size. -/

/-- `amount > limit` -/
def exceeds (amount : Nat) : Limit → Bool
  | .finite value => value < (amount : Rat)
  | .negativeInfinity => true
  | .nan | .infinity => false

/-- `amount >= limit` -/
def reaches (amount : Nat) : Limit → Bool
  | .finite value => value ≤ (amount : Rat)
  | .negativeInfinity => true
  | .nan | .infinity => false

/-- A JSON delta carries what `JSON.stringify` makes of its value, if that is a text. -/
inductive ContentChunk
  | text (text : JsText)
  | jsonDelta (path : JsText) (value : Option JsText)
  | image (byteLength : Nat)
  deriving DecidableEq

def chunkBytes : ContentChunk → Nat
  | .text text => text.length
  | .jsonDelta path (some value) => value.length + path.length
  | .jsonDelta path none => path.length
  | .image byteLength => byteLength

inductive StreamingEvent
  | progress (current : Rat) (total : Option Rat) (message : Option JsText)
  | content (chunk : ContentChunk) (chunkIndex : Nat)
  deriving DecidableEq

structure StreamingChannelOptions where
  eventQueueDepth : Limit
  maxBufferBytes : Limit
  streamingHint : Bool
  hasSink : Bool

structure Channel where
  chunks : List ContentChunk := []
  chunkCount : Nat := 0
  chunkIndex : Nat := 0
  progressEventCount : Nat := 0
  totalBytes : Nat := 0
  bufferTruncated : Bool := false
  aborted : Bool := false
  inFlight : Nat := 0

section

variable (opts : StreamingChannelOptions)

def appendToBuffer (channel : Channel) (chunk : ContentChunk) : Channel :=
  let size := chunkBytes chunk
  if exceeds (channel.totalBytes + size) opts.maxBufferBytes then
    { channel with bufferTruncated := true }
  else
    { channel with
      chunks := channel.chunks ++ [chunk]
      chunkCount := channel.chunkCount + 1
      totalBytes := channel.totalBytes + size }

/-- Up to the call of `deliver`, with the event to deliver. -/
def reportProgress (channel : Channel) (current : Rat) (total : Option Rat)
    (message : Option JsText) : Channel × Option StreamingEvent :=
  if !opts.streamingHint || channel.aborted then (channel, none)
  else if reaches channel.inFlight opts.eventQueueDepth then (channel, none)
  else
    ({ channel with progressEventCount := channel.progressEventCount + 1 },
      some (.progress current total message))

def streamContent (channel : Channel) (chunk : ContentChunk) :
    Channel × Option StreamingEvent :=
  if !opts.streamingHint || channel.aborted then (channel, none)
  else if reaches channel.inFlight opts.eventQueueDepth then
    (appendToBuffer opts channel chunk, none)
  else
    (appendToBuffer opts { channel with chunkIndex := channel.chunkIndex + 1 } chunk,
      some (.content chunk channel.chunkIndex))

def abort (channel : Channel) : Channel := { channel with aborted := true }

/-! Calls come in any order, also from a sink that has not returned. -/

inductive Action
  | streamContent (chunk : ContentChunk)
  | reportProgress (current : Rat) (total : Option Rat) (message : Option JsText)
  | abort
  | sinkReturns
  | sinkThrows

structure Run where
  channel : Channel := {}
  /-- What was passed to `streamContent` before the abort. -/
  passed : List ContentChunk := []
  delivered : List StreamingEvent := []
  /-- How many calls of the sink have not come back. -/
  openCalls : Nat := 0

/-- `deliver` up to the call of the sink. -/
def Run.deliver (run : Run) : Option StreamingEvent → Run
  | none => run
  | some event =>
    if opts.hasSink then
      { run with
        channel := { run.channel with inFlight := run.channel.inFlight + 1 }
        delivered := run.delivered ++ [event]
        openCalls := run.openCalls + 1 }
    else run

/-- The innermost call of the sink comes back, and `finally` runs. -/
def Run.leave (run : Run) : Option Run :=
  if run.openCalls = 0 then none
  else
    some { run with
      channel := { run.channel with inFlight := run.channel.inFlight - 1 }
      openCalls := run.openCalls - 1 }

def step (run : Run) : Action → Option Run
  | .streamContent chunk =>
    let sent := streamContent opts run.channel chunk
    let passed := if run.channel.aborted then run.passed else run.passed ++ [chunk]
    some ({ run with channel := sent.1, passed := passed }.deliver opts sent.2)
  | .reportProgress current total message =>
    let sent := reportProgress opts run.channel current total message
    some ({ run with channel := sent.1 }.deliver opts sent.2)
  | .abort => some { run with channel := abort run.channel }
  | .sinkReturns => run.leave
  | .sinkThrows => run.leave

def play : Run → List Action → Option Run
  | run, [] => some run
  | run, action :: rest => (step opts run action).bind fun next => play next rest

end

def unitBytes (unit : UInt16) : Nat :=
  if unit.toNat < 0x80 then 1 else if unit.toNat < 0x800 then 2 else 3

def utf8Length : JsText → Nat
  | [] => 0
  | [unit] => unitBytes unit
  | high :: low :: rest =>
    if isHighSurrogate high ∧ isLowSurrogate low then 4 + utf8Length rest
    else unitBytes high + utf8Length (low :: rest)

def byteSize : ContentChunk → Nat
  | .text text => utf8Length text
  | .jsonDelta path value => value.elim 0 utf8Length + utf8Length path
  | .image byteLength => byteLength

def StreamingEvent.index? : StreamingEvent → Option Nat
  | .content _ chunkIndex => some chunkIndex
  | .progress _ _ _ => none

def StreamingEvent.chunk? : StreamingEvent → Option ContentChunk
  | .content chunk _ => some chunk
  | .progress _ _ _ => none

structure Honest (opts : StreamingChannelOptions) (run : Run) : Prop where
  starts : run.channel.chunks <+: run.passed
  measured : run.channel.totalBytes = (run.channel.chunks.map byteSize).sum
  within : exceeds run.channel.totalBytes opts.maxBufferBytes = false
  truncated : run.channel.bufferTruncated = true ↔ run.channel.chunks ≠ run.passed
  indexed : run.delivered.filterMap StreamingEvent.index? =
    List.range (run.delivered.filterMap StreamingEvent.index?).length
  inOrder : (run.delivered.filterMap StreamingEvent.chunk?).Sublist run.passed
  balanced : run.channel.inFlight = run.openCalls

/-- As long as the chunks fit they are measured right, and nothing fits after one that does
not. -/
def Orderly (limit : Limit) : Nat → List ContentChunk → Prop
  | _, [] => True
  | total, chunk :: rest =>
    if exceeds (total + chunkBytes chunk) limit then
      ∀ later ∈ rest, exceeds (total + chunkBytes later) limit = true
    else chunkBytes chunk = byteSize chunk ∧ Orderly limit (total + chunkBytes chunk) rest

variable {limit : Limit}

theorem exceeds_more (more : least ≤ amount) (above : exceeds least limit = true) :
    exceeds amount limit = true := by
  cases limit with
  | finite value =>
    have bound : value < (least : Rat) := of_decide_eq_true above
    have cast : (least : Rat) ≤ (amount : Rat) := Nat.cast_le.mpr more
    exact decide_eq_true (bound.trans_le cast)
  | negativeInfinity => rfl
  | nan => exact above
  | infinity => exact above

theorem unitBytes_pos (unit : UInt16) : 1 ≤ unitBytes unit := by
  unfold unitBytes
  split
  · exact Nat.le_refl 1
  · split
    · exact Nat.le_succ 1
    · omega

theorem length_le_utf8Length (text : JsText) : text.length ≤ utf8Length text := by
  induction text using utf8Length.induct with
  | case1 => exact Nat.le_refl 0
  | case2 unit => exact unitBytes_pos unit
  | case3 high low rest pair =>
    rw [utf8Length, if_pos pair, List.length_cons, List.length_cons]
    omega
  | case4 high low rest single =>
    rw [utf8Length, if_neg single, List.length_cons]
    have positive := unitBytes_pos high
    omega

theorem chunkBytes_le_byteSize (chunk : ContentChunk) : chunkBytes chunk ≤ byteSize chunk := by
  cases chunk with
  | text text => exact length_le_utf8Length text
  | jsonDelta path value =>
    cases value with
    | none =>
      rw [chunkBytes, byteSize, Option.elim_none, Nat.zero_add]
      exact length_le_utf8Length path
    | some value => exact Nat.add_le_add (length_le_utf8Length value) (length_le_utf8Length path)
  | image byteLength => exact Nat.le_refl byteLength

theorem sum_le_sum (chunks : List ContentChunk) :
    (chunks.map chunkBytes).sum ≤ (chunks.map byteSize).sum := by
  induction chunks with
  | nil => exact Nat.le_refl 0
  | cons chunk _ ih =>
    rw [List.map_cons, List.map_cons, List.sum_cons, List.sum_cons]
    exact Nat.add_le_add (chunkBytes_le_byteSize chunk) ih

def keptOf (limit : Limit) : Nat → List ContentChunk → List ContentChunk
  | _, [] => []
  | total, chunk :: rest =>
    if exceeds (total + chunkBytes chunk) limit then keptOf limit total rest
    else chunk :: keptOf limit (total + chunkBytes chunk) rest

theorem keptOf_append (limit : Limit) (first second : List ContentChunk) (total : Nat) :
    keptOf limit total (first ++ second) = keptOf limit total first ++
      keptOf limit (total + ((keptOf limit total first).map chunkBytes).sum) second := by
  induction first generalizing total with
  | nil => rfl
  | cons chunk rest ih =>
    rw [List.cons_append, keptOf, keptOf]
    split
    · exact ih total
    · rw [ih, List.cons_append, List.map_cons, List.sum_cons, Nat.add_assoc]

variable {total : Nat} {chunks : List ContentChunk}

theorem keptOf_eq_nil : keptOf limit total chunks = [] ↔
      ∀ later ∈ chunks, exceeds (total + chunkBytes later) limit = true := by
  induction chunks with
  | nil => exact ⟨fun _ _ here => absurd here nofun, fun _ => rfl⟩
  | cons chunk _ ih =>
    rw [keptOf, List.forall_mem_cons]
    by_cases above : exceeds (total + chunkBytes chunk) limit = true
    · rw [if_pos above, ih]
      exact ⟨fun all => ⟨above, all⟩, fun both => both.2⟩
    · rw [if_neg above]
      exact ⟨nofun, fun both => absurd both.1 above⟩

theorem keptOf_head (starts : keptOf limit total chunks = chunk :: kept) :
    exceeds (total + chunkBytes chunk) limit = false := by
  induction chunks with
  | nil => exact absurd starts nofun
  | cons first _ ih =>
    rw [keptOf] at starts
    by_cases above : exceeds (total + chunkBytes first) limit = true
    · rw [if_pos above] at starts
      exact ih starts
    · rw [if_neg above, List.cons.injEq] at starts
      rw [← starts.1]
      exact Bool.eq_false_of_not_eq_true above

theorem keptOf_within {limit : Limit} {total : Nat} {chunks : List ContentChunk}
    (within : exceeds total limit = false) :
    exceeds (total + ((keptOf limit total chunks).map chunkBytes).sum) limit = false := by
  induction chunks generalizing total with
  | nil => exact within
  | cons chunk _ ih =>
    rw [keptOf]
    by_cases above : exceeds (total + chunkBytes chunk) limit = true
    · rw [if_pos above]
      exact ih within
    · rw [if_neg above, List.map_cons, List.sum_cons, ← Nat.add_assoc]
      exact ih (Bool.eq_false_of_not_eq_true above)

theorem orderly_iff :
    Orderly limit total chunks ↔ keptOf limit total chunks <+: chunks ∧
      ((keptOf limit total chunks).map chunkBytes).sum =
        ((keptOf limit total chunks).map byteSize).sum := by
  induction chunks generalizing total with
  | nil => exact ⟨fun _ => ⟨List.prefix_refl [], rfl⟩, fun _ => trivial⟩
  | cons chunk rest ih =>
    rw [Orderly, keptOf]
    by_cases above : exceeds (total + chunkBytes chunk) limit = true
    · rw [if_pos above, if_pos above, ← keptOf_eq_nil]
      constructor
      · intro none
        rw [none]
        exact ⟨List.nil_prefix, rfl⟩
      · rintro ⟨starts, -⟩
        cases kept : keptOf limit total rest with
        | nil => rfl
        | cons =>
          rw [kept, List.cons_prefix_cons] at starts
          rw [← starts.1, keptOf_head kept] at above
          exact absurd above nofun
    · rw [if_neg above, if_neg above, ih, List.cons_prefix_cons, List.map_cons, List.map_cons,
        List.sum_cons, List.sum_cons]
      have head := chunkBytes_le_byteSize chunk
      have tail := sum_le_sum (keptOf limit (total + chunkBytes chunk) rest)
      constructor
      · rintro ⟨right, starts, same⟩
        exact ⟨⟨rfl, starts⟩, by omega⟩
      · rintro ⟨⟨-, starts⟩, same⟩
        exact ⟨by omega, starts, by omega⟩

theorem keptOf_length_le (limit : Limit) (total : Nat) (chunks : List ContentChunk) :
    (keptOf limit total chunks).length ≤ chunks.length := by
  induction chunks generalizing total with
  | nil => exact Nat.le_refl 0
  | cons chunk rest ih =>
    rw [keptOf]
    split
    · exact (ih total).trans (Nat.le_succ _)
    · exact Nat.succ_le_succ (ih _)

structure Buffered (limit : Limit) (channel : Channel) (given : List ContentChunk) : Prop where
  chunks : channel.chunks = keptOf limit 0 given
  total : channel.totalBytes = (channel.chunks.map chunkBytes).sum
  truncated : channel.bufferTruncated = true ↔ channel.chunks ≠ given

variable {opts : StreamingChannelOptions}

variable {channel : Channel}

theorem Buffered.append (buffered : Buffered opts.maxBufferBytes channel given)
    (chunk : ContentChunk) :
    Buffered opts.maxBufferBytes (appendToBuffer opts channel chunk) (given ++ [chunk]) := by
  have kept := keptOf_append opts.maxBufferBytes given [chunk] 0
  rw [← buffered.chunks, ← buffered.total, Nat.zero_add, keptOf, keptOf] at kept
  unfold appendToBuffer
  by_cases above : exceeds (channel.totalBytes + chunkBytes chunk) opts.maxBufferBytes = true
  · rw [if_pos above, List.append_nil] at kept
    simp only [if_pos above]
    refine ⟨kept.symm, buffered.total, fun _ same => ?_, fun _ => rfl⟩
    have shorter := keptOf_length_le opts.maxBufferBytes 0 given
    rw [← buffered.chunks, same, List.length_append, List.length_singleton] at shorter
    omega
  · rw [if_neg above] at kept
    simp only [if_neg above]
    refine ⟨kept.symm, ?_, buffered.truncated.trans (not_congr ?_)⟩
    · rw [List.map_append, List.sum_append, buffered.total, List.map_singleton,
        List.sum_singleton]
    · exact (List.append_left_inj [chunk]).symm

def Run.given (opts : StreamingChannelOptions) (run : Run) : List ContentChunk :=
  if opts.streamingHint then run.passed else []

structure Tracks (opts : StreamingChannelOptions) (run : Run) : Prop where
  buffered : Buffered opts.maxBufferBytes run.channel (run.given opts)
  indexed : run.delivered.filterMap StreamingEvent.index? =
    if opts.hasSink then List.range run.channel.chunkIndex else []
  inOrder : (run.delivered.filterMap StreamingEvent.chunk?).Sublist run.passed
  balanced : run.channel.inFlight = run.openCalls

theorem tracks_start : Tracks opts {} where
  buffered := by
    unfold Run.given
    split <;> exact ⟨rfl, rfl, by simp⟩
  indexed := by split <;> rfl
  inOrder := List.Sublist.refl []
  balanced := rfl

@[simp] theorem appendToBuffer_chunkIndex (channel : Channel) (chunk : ContentChunk) :
    (appendToBuffer opts channel chunk).chunkIndex = channel.chunkIndex := by
  simp only [appendToBuffer]
  split <;> rfl

@[simp] theorem appendToBuffer_inFlight (channel : Channel) (chunk : ContentChunk) :
    (appendToBuffer opts channel chunk).inFlight = channel.inFlight := by
  simp only [appendToBuffer]
  split <;> rfl

theorem Buffered.of_same (buffered : Buffered limit channel given)
    (chunks : channel'.chunks = channel.chunks)
    (total : channel'.totalBytes = channel.totalBytes)
    (truncated : channel'.bufferTruncated = channel.bufferTruncated) :
    Buffered limit channel' given :=
  ⟨chunks.trans buffered.chunks, by rw [total, chunks, buffered.total],
    by rw [truncated, chunks, buffered.truncated]⟩

variable {run : Run}

theorem step_streamContent (sent : streamContent opts run.channel chunk = (channel, event)) :
    step opts run (.streamContent chunk) =
      some (Run.deliver opts { run with
        channel := channel
        passed := if run.channel.aborted then run.passed else run.passed ++ [chunk] } event) := by
  rw [step, sent]

variable {run' : Run}

theorem tracks_streamContent (chunk : ContentChunk) (tracks : Tracks opts run)
    (taken : step opts run (.streamContent chunk) = some run') : Tracks opts run' := by
  obtain ⟨buffered, indexed, inOrder, balanced⟩ := tracks
  by_cases aborted : run.channel.aborted = true
  · have ignored : streamContent opts run.channel chunk = (run.channel, none) :=
      if_pos (by rw [aborted, Bool.or_true])
    rw [step_streamContent ignored, if_pos aborted] at taken
    cases taken
    exact ⟨buffered, indexed, inOrder, balanced⟩
  have grown : (run.delivered.filterMap StreamingEvent.chunk?).Sublist (run.passed ++ [chunk]) :=
    inOrder.trans (List.sublist_append_left run.passed [chunk])
  by_cases hint : opts.streamingHint = true
  · have open_ : ¬ (!opts.streamingHint || run.channel.aborted) = true := by
      rw [hint, Bool.eq_false_of_not_eq_true aborted]
      exact nofun
    simp only [Run.given, if_pos hint] at buffered
    by_cases full : reaches run.channel.inFlight opts.eventQueueDepth = true
    · have dropped : streamContent opts run.channel chunk =
          (appendToBuffer opts run.channel chunk, none) := by
        rw [streamContent, if_neg open_, if_pos full]
      rw [step_streamContent dropped, if_neg aborted] at taken
      cases taken
      refine ⟨?_, indexed.trans ?_, grown, ?_⟩
      · simp only [Run.given, Run.deliver, if_pos hint]
        exact buffered.append chunk
      · simp only [Run.deliver, appendToBuffer_chunkIndex]
      · simp only [Run.deliver, appendToBuffer_inFlight, balanced]
    · have sent : streamContent opts run.channel chunk =
          (appendToBuffer opts { run.channel with chunkIndex := run.channel.chunkIndex + 1 } chunk,
            some (.content chunk run.channel.chunkIndex)) := by
        rw [streamContent, if_neg open_, if_neg full]
      have counted : Buffered opts.maxBufferBytes
          { run.channel with chunkIndex := run.channel.chunkIndex + 1 } run.passed :=
        buffered.of_same rfl rfl rfl
      rw [step_streamContent sent, if_neg aborted] at taken
      cases taken
      by_cases sink : opts.hasSink = true
      · simp only [if_pos sink] at indexed
        refine ⟨?_, ?_, ?_, ?_⟩
        · simp only [Run.given, Run.deliver, if_pos hint, if_pos sink]
          exact (counted.append chunk).of_same rfl rfl rfl
        · simp only [Run.deliver, if_pos sink, appendToBuffer_chunkIndex]
          rw [List.filterMap_append, indexed, List.range_succ]
          rfl
        · simp only [Run.deliver, if_pos sink]
          rw [List.filterMap_append]
          exact inOrder.append (List.Sublist.refl [chunk])
        · simp only [Run.deliver, if_pos sink, appendToBuffer_inFlight, balanced]
      · simp only [if_neg sink] at indexed
        refine ⟨?_, ?_, ?_, ?_⟩
        · simp only [Run.given, Run.deliver, if_pos hint, if_neg sink]
          exact counted.append chunk
        · simpa only [Run.deliver, if_neg sink] using indexed
        · simpa only [Run.deliver, if_neg sink] using grown
        · simp only [Run.deliver, if_neg sink, appendToBuffer_inFlight, balanced]
  · have ignored : streamContent opts run.channel chunk = (run.channel, none) :=
      if_pos (by rw [Bool.eq_false_of_not_eq_true hint]; rfl)
    simp only [Run.given, if_neg hint] at buffered
    rw [step_streamContent ignored, if_neg aborted] at taken
    cases taken
    refine ⟨?_, indexed, grown, balanced⟩
    simp only [Run.given, Run.deliver, if_neg hint]
    exact buffered

theorem tracks_reportProgress {current : Rat} {total : Option Rat} {message : Option JsText}
    (tracks : Tracks opts run)
    (taken : step opts run (.reportProgress current total message) = some run') :
    Tracks opts run' := by
  obtain ⟨buffered, indexed, inOrder, balanced⟩ := tracks
  rw [step, Option.some.injEq] at taken
  unfold reportProgress at taken
  split at taken
  · cases taken
    exact ⟨buffered, indexed, inOrder, balanced⟩
  · split at taken
    · cases taken
      exact ⟨buffered, indexed, inOrder, balanced⟩
    · cases taken
      by_cases sink : opts.hasSink = true
      · simp only [Run.deliver, if_pos sink] at indexed ⊢
        refine ⟨buffered.of_same rfl rfl rfl, ?_, ?_, ?_⟩
        · rw [List.filterMap_append, indexed, if_pos sink]
          exact List.append_nil _
        · rw [List.filterMap_append]
          exact (List.append_nil _).symm ▸ inOrder
        · simp only [balanced]
      · simp only [Run.deliver, if_neg sink]
        exact ⟨buffered.of_same rfl rfl rfl, indexed, inOrder, balanced⟩

theorem tracks_leave (tracks : Tracks opts run) (left : run.leave = some run') :
    Tracks opts run' := by
  unfold Run.leave at left
  split at left
  · exact absurd left nofun
  · cases Option.some.inj left
    exact ⟨tracks.buffered.of_same rfl rfl rfl, tracks.indexed, tracks.inOrder,
      congrArg (· - 1) tracks.balanced⟩

theorem tracks_step (tracks : Tracks opts run) (taken : step opts run action = some run') :
    Tracks opts run' := by
  cases action with
  | streamContent chunk => exact tracks_streamContent chunk tracks taken
  | reportProgress => exact tracks_reportProgress tracks taken
  | abort =>
    cases Option.some.inj taken
    exact ⟨tracks.buffered.of_same rfl rfl rfl, tracks.indexed, tracks.inOrder,
      tracks.balanced⟩
  | sinkReturns => exact tracks_leave tracks taken
  | sinkThrows => exact tracks_leave tracks taken

theorem tracks_play (tracks : Tracks opts run) (played : play opts run actions = some run')
    : Tracks opts run' := by
  induction actions generalizing run with
  | nil =>
    cases Option.some.inj played
    exact tracks
  | cons action rest ih =>
    obtain ⟨next, taken, later⟩ := Option.bind_eq_some_iff.mp played
    exact ih (tracks_step tracks taken) later

/-- A limit that is not below zero, and chunks in an order that leaves no gap. -/
def Fitting (opts : StreamingChannelOptions) (passed : List ContentChunk) : Prop :=
  exceeds 0 opts.maxBufferBytes = false ∧
    if opts.streamingHint then Orderly opts.maxBufferBytes 0 passed else passed = []

theorem buffer_honest_iff {actions : List Action} {run : Run}
    (played : play opts {} actions = some run) :
    Honest opts run ↔ Fitting opts run.passed := by
  obtain ⟨buffered, indexed, inOrder, balanced⟩ := tracks_play tracks_start played
  have total := buffered.total
  have truncated := buffered.truncated
  have nonneg : exceeds run.channel.totalBytes opts.maxBufferBytes = false →
      exceeds 0 opts.maxBufferBytes = false := fun within =>
    Bool.eq_false_of_not_eq_true fun above => by
      rw [exceeds_more (Nat.zero_le _) above] at within
      exact absurd within nofun
  have counted : run.delivered.filterMap StreamingEvent.index? =
      List.range (run.delivered.filterMap StreamingEvent.index?).length := by
    rw [indexed]
    split
    · rw [List.length_range]
    · rfl
  unfold Fitting
  by_cases hint : opts.streamingHint = true
  · simp only [Run.given, if_pos hint] at buffered truncated ⊢
    rw [orderly_iff, ← buffered.chunks, ← total]
    constructor
    · exact fun honest => ⟨nonneg honest.within, honest.starts, honest.measured⟩
    · rintro ⟨least, starts, measured⟩
      refine ⟨starts, measured, ?_, truncated, counted, inOrder, balanced⟩
      have within := @keptOf_within opts.maxBufferBytes 0 run.passed least
      rwa [← buffered.chunks, ← total, Nat.zero_add] at within
  · simp only [Run.given, if_neg hint] at buffered truncated ⊢
    have empty : run.channel.chunks = [] := buffered.chunks
    rw [empty] at total truncated
    constructor
    · intro honest
      refine ⟨nonneg honest.within, Decidable.byContradiction fun some_ => ?_⟩
      have cut := honest.truncated.mpr (by rw [empty]; exact Ne.symm some_)
      exact truncated.mp cut rfl
    · rintro ⟨least, none⟩
      refine ⟨empty ▸ List.nil_prefix, by rw [empty]; exact total, ?_, ?_, counted, inOrder,
        balanced⟩
      · rw [total]
        exact least
      · rw [empty, none]
        exact truncated

def plainOptions (cap : Rat) : StreamingChannelOptions := ⟨.finite 256, .finite cap, true, true⟩

/-- The second chunk comes while the sink has the first, the third one is dropped. -/
def nestedChunks : List Action :=
  [.streamContent (.text [0x61, 0x62]), .streamContent (.text [0x63]), .sinkReturns,
    .sinkThrows, .streamContent (.text [0x64, 0x64]), .sinkReturns]

theorem shortTexts_honest : ∃ run, play (plainOptions 3) {} nestedChunks = some run ∧
    run.channel.bufferTruncated = true ∧
    run.channel.chunks = [.text [0x61, 0x62], .text [0x63]] ∧
    run.delivered.filterMap StreamingEvent.index? = [0, 1, 2] ∧
    Honest (plainOptions 3) run :=
  ⟨_, rfl, rfl, rfl, rfl, (@buffer_honest_iff (plainOptions 3) nestedChunks _ rfl).mpr
    ⟨rfl, rfl, rfl, fun _ later => absurd later List.not_mem_nil⟩⟩

/-- A chunk that fits is kept after one that did not, and `é` is counted as one byte. -/
theorem buffer_skips :
    ((play (plainOptions 2) {} [.streamContent (.text [0x61, 0x61, 0x61]), .sinkReturns,
        .streamContent (.text [0x62])]).map fun run => (run.channel.chunks, run.passed)) =
      some ([.text [0x62]], [.text [0x61, 0x61, 0x61], .text [0x62]]) ∧
    ((play (plainOptions 2) {} [.streamContent (.text [0xe9])]).map fun run =>
        (run.channel.totalBytes, (run.channel.chunks.map byteSize).sum)) = some (1, 2) :=
  ⟨rfl, rfl⟩

end Graphorin.Tools.Streaming
