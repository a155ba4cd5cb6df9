import Mathlib.Algebra.Order.Floor.Ring
import Mathlib.Data.Rat.Floor
import Mathlib.Tactic.Linarith
import Graphorin.Lib.Bisection
import Graphorin.Lib.Results
import Graphorin.Memory.Envelope

/-!
# Truncated results

`truncateBody` keeps a head, a tail or both of a body, so many tokens of it as the cap
leaves beside the annotation.
-/

namespace Graphorin.Tools.Truncation

open Graphorin.Audit Graphorin.Lib

inductive TokenCounter where
  | countTokensHeuristic
  | custom (count : JsText → ℚ)

namespace TokenCounter

def count : TokenCounter → JsText → ℚ
  | .countTokensHeuristic, text => ((text.length + 3) / 4 : Nat)
  | .custom count, text => count text

/-- What is asked of a counter. -/
structure Lawful (counter : TokenCounter) : Prop where
  empty : counter.count [] = 0
  monotone : ∀ part text, part <:+: text → counter.count part ≤ counter.count text
  subadditive : ∀ first second,
    counter.count (first ++ second) ≤ counter.count first + counter.count second

end TokenCounter

inductive TruncationStrategy where
  | middle
  | tail
  | spillToFile
  | summarize
  deriving DecidableEq

structure TruncationOutcome where
  truncated : Bool
  body : JsText
  originalTokens : ℚ
  keptTokens : ℚ
  droppedTokens : ℚ
  strategyApplied : TruncationStrategy
  artifactPath : Option JsText
  artifactBytes : Option Nat
  resultHandle : Option JsText
  spillImperativePatternsPresent : Option Bool
  summarizerModel : Option JsText

structure SpillRequest where
  runId : JsText
  toolCallId : JsText
  extension : JsText
  body : JsText
  sensitivityTier : Option JsText
  producerTrustClass : Option JsText
  producerSource : Option Audit.Json
  imperativePatternsPresent : Option Bool

structure SpillWritten where
  path : JsText
  bytes : Nat

/-- `relative` is `path.relative` from the artifact root, with slashes. -/
structure SpillWriter where
  relative : JsText → JsText
  write : SpillRequest → Except JsText SpillWritten

structure ResultSummarizer where
  model : JsText
  summarize : JsText → ℚ → Except JsText JsText

structure TruncateOptions where
  summarizer : Option ResultSummarizer
  spill : Option SpillWriter
  runId : Option JsText
  toolCallId : Option JsText
  toolSensitivityTier : Option JsText
  producerTrustClass : Option JsText
  producerSource : Option Audit.Json
  /-- Whether the scan of the whole body found a pattern, if it ended in time. -/
  scanImperativePatterns : JsText → Option Bool

def ANNOTATION_PREFIX : JsText := ascii "/* graphorin:result:truncated"
def ANNOTATION_SUFFIX : JsText := ascii "*/"

def strategyName : TruncationStrategy → JsText
  | .middle => ascii "middle"
  | .tail => ascii "tail"
  | .spillToFile => ascii "spill-to-file"
  | .summarize => ascii "summarize"

def truncationHint : TruncationStrategy → JsText
  | .middle | .tail => ascii " re-run narrower (date range/filter/limit) for the omitted part"
  | .spillToFile => ascii " full result via read_result(handle)"
  | .summarize => ascii " re-run narrower for verbatim detail"

structure AnnotationMeta where
  originalTokens : ℚ
  keptTokens : ℚ
  handle : Option JsText
  summarizerModel : Option JsText

/-- `numberText` is how the host prints a number. -/
def renderAnnotation (numberText : ℚ → JsText) (strategy : TruncationStrategy)
    (info : AnnotationMeta) : JsText :=
  let fields :=
    [ascii "originalTokens=" ++ numberText info.originalTokens,
      ascii "keptTokens=" ++ numberText info.keptTokens] ++
    (info.handle.map fun handle => ascii "handle=" ++ quote handle).toList ++
    (info.summarizerModel.map fun model => ascii "summarizerModel=" ++ quote model).toList
  ANNOTATION_PREFIX ++ ascii " strategy=" ++ strategyName strategy ++ ascii " " ++
    (ascii " ").intercalate fields ++ truncationHint strategy ++ ascii " " ++ ANNOTATION_SUFFIX

inductive End where
  | head
  | tail

/-- `body.slice(0, count)` or `body.slice(-count)`; the latter is the whole body for zero. -/
def slice (body : JsText) (count : Nat) : End → JsText
  | .head => body.take count
  | .tail => if count = 0 then body else body.drop (body.length - count)

def sliceByTokens (body : JsText) (budget : ℚ) (counter : TokenCounter) (side : End) :
    JsText :=
  if budget ≤ 0 then []
  else
    match counter with
    | .countTokensHeuristic => slice body ⌊max 0 (budget * 4)⌋.toNat side
    | .custom count =>
      slice body
        (bisect (fun mid => ¬ budget < count (slice body mid side)) body.length 0 body.length)
        side

def slotTokens (maxTokens annotationTokens : ℚ) : ℚ := max 0 (maxTokens - annotationTokens)

def headBudget (slot : ℚ) : ℚ := ⌊slot / 2⌋

def tailBudget (slot : ℚ) : ℚ := max 0 (slot - headBudget slot)

def newline : JsText := [0x0a]

def inPlace (numberText : ℚ → JsText) (strategy : TruncationStrategy)
    (originalTokens maxTokens : ℚ) : JsText :=
  renderAnnotation numberText strategy
    { originalTokens, keptTokens := maxTokens, handle := none, summarizerModel := none }

def outcomeOf (counter : TokenCounter) (originalTokens : ℚ) (strategy : TruncationStrategy)
    (output : JsText) : TruncationOutcome :=
  { truncated := true, body := output, originalTokens, keptTokens := counter.count output
    droppedTokens := max 0 (originalTokens - counter.count output)
    strategyApplied := strategy, artifactPath := none, artifactBytes := none
    resultHandle := none, spillImperativePatternsPresent := none, summarizerModel := none }

def truncateMiddle (numberText : ℚ → JsText) (body : JsText) (maxTokens originalTokens : ℚ)
    (counter : TokenCounter) : TruncationOutcome :=
  let annotation := inPlace numberText .middle originalTokens maxTokens
  let slot := slotTokens maxTokens (counter.count annotation)
  let head := sliceByTokens body (headBudget slot) counter .head
  let tail := sliceByTokens body (tailBudget slot) counter .tail
  outcomeOf counter originalTokens .middle
    (head ++ newline ++ annotation ++ newline ++ tail)

def truncateTail (numberText : ℚ → JsText) (body : JsText) (maxTokens originalTokens : ℚ)
    (counter : TokenCounter) : TruncationOutcome :=
  let annotation := inPlace numberText .tail originalTokens maxTokens
  let slot := slotTokens maxTokens (counter.count annotation)
  let tail := sliceByTokens body slot counter .tail
  outcomeOf counter originalTokens .tail ( annotation ++ newline ++ tail)

def looksLikeJson (body : JsText) : Bool :=
  match body.dropWhile Js.isWhitespace with
  | first :: _ => first = 0x7b || first = 0x5b
  | [] => false

def scheme : JsText := ascii "graphorin-spill:"

def spilled (numberText : ℚ → JsText) (originalTokens maxTokens : ℚ) (handle : JsText) :
    JsText :=
  renderAnnotation numberText .spillToFile
    { originalTokens, keptTokens := maxTokens, handle := some handle, summarizerModel := none }

def spillTarget (options : Option TruncateOptions) :
    Option (TruncateOptions × SpillWriter × JsText × JsText) := do
  let options ← options
  let spill ← options.spill
  let runId ← options.runId
  let toolCallId ← options.toolCallId
  if options.toolSensitivityTier = some (ascii "secret") then none
  else some (options, spill, runId, toolCallId)

def spillRequest (options : TruncateOptions) (runId toolCallId body : JsText) :
    SpillRequest :=
  { runId, toolCallId, extension := if looksLikeJson body then ascii "json" else ascii "txt"
    body, sensitivityTier := options.toolSensitivityTier
    producerTrustClass := options.producerTrustClass
    producerSource := options.producerSource
    imperativePatternsPresent := options.scanImperativePatterns body }

def spillToFile (numberText : ℚ → JsText) (body : JsText) (maxTokens originalTokens : ℚ)
    (counter : TokenCounter) (options : Option TruncateOptions) :
    Except JsText TruncationOutcome :=
  match spillTarget options with
  | none => .ok (truncateMiddle numberText body maxTokens originalTokens counter)
  | some (options, spill, runId, toolCallId) => do
      let written ← spill.write (spillRequest options runId toolCallId body)
      let handle := scheme ++ spill.relative written.path
      let annotation := spilled numberText originalTokens maxTokens handle
      let slot := slotTokens maxTokens (counter.count annotation)
      let head := sliceByTokens body slot counter .head
      return { outcomeOf counter originalTokens .spillToFile (head ++ newline ++ annotation) with
        artifactPath := some written.path, artifactBytes := some written.bytes
        resultHandle := some handle
        spillImperativePatternsPresent := options.scanImperativePatterns body }

def summarize (numberText : ℚ → JsText) (body : JsText) (maxTokens originalTokens : ℚ)
    (counter : TokenCounter) (options : Option TruncateOptions) :
    Except JsText TruncationOutcome :=
  match options.bind (·.summarizer) with
  | none => .ok (truncateMiddle numberText body maxTokens originalTokens counter)
  | some summarizer => do
      let summary ← summarizer.summarize body maxTokens
      let annotation := renderAnnotation numberText .summarize
        { originalTokens, keptTokens := counter.count summary, handle := none
          summarizerModel := some summarizer.model }
      return { outcomeOf counter originalTokens .summarize ( annotation ++ newline ++ summary) with
        summarizerModel := some summarizer.model }

def truncateBody (numberText : ℚ → JsText) (counter : TokenCounter) (body : JsText)
    (maxTokens : ℚ) (strategy : TruncationStrategy) (options : Option TruncateOptions) :
    Except JsText TruncationOutcome :=
  let originalTokens := counter.count body
  if maxTokens = 0 ∨ originalTokens ≤ maxTokens then
    .ok { outcomeOf counter originalTokens strategy body with
      truncated := false, keptTokens := originalTokens, droppedTokens := 0 }
  else
    match strategy with
    | .middle => .ok (truncateMiddle numberText body maxTokens originalTokens counter)
    | .tail => .ok (truncateTail numberText body maxTokens originalTokens counter)
    | .spillToFile =>
      spillToFile numberText body maxTokens originalTokens counter options
    | .summarize => summarize numberText body maxTokens originalTokens counter options

def End.Part : End → JsText → JsText → Prop
  | .head, part, body => part <+: body
  | .tail, part, body => part <:+ body

structure Kept (counter : TokenCounter) (body : JsText) (budget : ℚ) (side : End)
    (kept : JsText) : Prop where
  part : side.Part kept body
  fits : counter.count kept ≤ budget
  full : ∀ longer, side.Part longer body → longer.length = kept.length + 1 →
    budget < counter.count longer

/-- A budget its end can be cut to. -/
def Fits (counter : TokenCounter) (body : JsText) (budget : ℚ) (side : End) : Prop :=
  if budget ≤ 0 then 0 < counter.count (slice body 1 side)
  else
    match counter, side with
    | .countTokensHeuristic, .head => ⌊budget * 4⌋ = 4 * ⌊budget⌋
    | .countTokensHeuristic, .tail => ⌊budget * 4⌋ = 4 * ⌊budget⌋ ∧ 1 ≤ budget
    | .custom _, .head => True
    | .custom count, .tail => count (slice body 1 .tail) ≤ budget

theorem slice_part (body : JsText) (count : Nat) (side : End) :
    side.Part (slice body count side) body := by
  cases side with
  | head => exact List.take_prefix _ _
  | tail =>
    show slice body count .tail <:+ body
    rw [slice]
    split
    · exact List.suffix_rfl
    · exact List.drop_suffix _ _

theorem slice_length (body : JsText) (positive : 0 < count) (side : End) :
    (slice body count side).length = min count body.length := by
  cases side with
  | head => exact List.length_take
  | tail =>
    rw [slice, if_neg (by omega), List.length_drop]
    omega

variable {body : JsText}

theorem part_eq (inside : side.Part part body) (positive : 0 < part.length) :
    part = slice body part.length side := by
  cases side with
  | head => exact List.prefix_iff_eq_take.mp inside
  | tail =>
    rw [slice, if_neg (by omega)]
    exact List.suffix_iff_eq_drop.mp inside

theorem part_infix {side : End} {part : JsText} (inside : side.Part part body) :
    part <:+: body := by
  cases side with
  | head => exact List.IsPrefix.isInfix inside
  | tail => exact List.IsSuffix.isInfix inside

theorem slice_mono (body : JsText) (positive : 0 < small) (smaller : small ≤ large)
    (side : End) : slice body small side <:+: slice body large side := by
  cases side with
  | head =>
    exact ((List.take_prefix_take_left smaller)).isInfix
  | tail =>
    rw [slice, slice, if_neg (by omega), if_neg (by omega)]
    exact (List.drop_suffix_drop_left _ (by omega)).isInfix

variable {counter : TokenCounter} {budget : ℚ}

theorem nonempty_of_short (lawful : counter.Lawful) (least : 0 ≤ budget)
    (short : budget < counter.count body) : 0 < body.length := by
  cases body with
  | nil =>
    rw [lawful.empty] at short
    exact absurd least (not_le.mpr short)
  | cons => exact Nat.succ_pos _

theorem kept_nothing (lawful : counter.Lawful) (nonempty : 0 < body.length) (side : End) :
    Kept counter body 0 side [] ↔ 0 < counter.count (slice body 1 side) := by
  have one : (slice body 1 side).length = 1 := by
    rw [slice_length body Nat.one_pos]
    omega
  constructor
  · exact fun kept => kept.full _ (slice_part body 1 side) one
  · intro counts
    refine ⟨?_, lawful.empty.le, fun longer inside length => ?_⟩
    · cases side with
      | head => exact List.nil_prefix
      | tail => exact List.nil_suffix
    · have length : longer.length = 1 := length
      rw [part_eq inside (by omega), length]
      exact counts

theorem kept_custom (lawful : (TokenCounter.custom count).Lawful) (positive : 0 < budget)
    (short : budget < count body) (side : End) :
    Kept (.custom count) body budget side
        (sliceByTokens body budget (.custom count) side) ↔
      Fits (.custom count) body budget side := by
  have nonempty := nonempty_of_short lawful positive.le short
  have closed (small large : Nat) (some : 0 < small) (smaller : small ≤ large)
      (fits : decide (¬ budget < count (slice body large side)) = true) :
      decide (¬ budget < count (slice body small side)) = true := by
    rw [decide_eq_true_eq, not_lt] at fits ⊢
    exact (lawful.monotone _ _ (slice_mono body some smaller side)).trans fits
  have last := @bisect_last _ closed body.length 0 body.length body.length (by omega)
    (by omega)
  have found := @bisect_fits (fun mid => ¬ budget < count (slice body mid side))
    body.length 0 body.length
  have within := (@bisect_within (fun mid => ¬ budget < count (slice body mid side))
    body.length 0 body.length (Nat.zero_le body.length)).2
  rw [sliceByTokens, if_neg (not_le.mpr positive), Fits.eq_def,
    if_neg (not_le.mpr positive)]
  generalize bisect (fun mid => decide ¬ budget < count (slice body mid side)) body.length 0
    body.length = size at last found within ⊢
  have beyond (number : Nat) (past : size < number) (inside : number ≤ body.length) :
      budget < count (slice body number side) := by
    simpa using last number past inside
  have whole (some : 0 < size) : Kept (.custom count) body budget side
      (slice body size side) := by
    have length := slice_length body some side
    refine ⟨slice_part body size side, ?_, fun longer inside grown => ?_⟩
    · rcases found with none | fits
      · omega
      · exact not_lt.mp (of_decide_eq_true fits)
    · rw [part_eq inside (by omega)]
      exact beyond _ (by omega) ( part_infix inside).length_le
  cases side with
  | head =>
    refine iff_of_true ?_ trivial
    rcases Nat.eq_zero_or_pos size with rfl | some
    · refine ⟨List.nil_prefix, lawful.empty.le.trans positive.le,
        fun longer inside grown => ?_⟩
      have length : longer.length = 1 := grown
      rw [part_eq inside (by omega), length]
      exact beyond 1 (by omega) nonempty
    · exact whole some
  | tail =>
    constructor
    · intro kept
      by_contra wide
      rcases Nat.eq_zero_or_pos size with rfl | some
      · exact absurd kept.fits (not_le.mpr short)
      · exact wide ((lawful.monotone _ _ (slice_mono body Nat.one_pos some .tail)).trans
          kept.fits)
    · intro narrow
      rcases Nat.eq_zero_or_pos size with rfl | some
      · exact absurd narrow (not_le.mpr (beyond 1 (by omega) nonempty))
      · exact whole some

theorem heuristic_count (text : JsText) :
    TokenCounter.countTokensHeuristic.count text = ((text.length + 3) / 4 : Nat) := rfl

theorem quarter_floor {budget : ℚ} :
    4 * ⌊budget⌋ ≤ ⌊budget * 4⌋ ∧ ⌊budget * 4⌋ < 4 * ⌊budget⌋ + 4 := by
  constructor
  · rw [Int.le_floor]
    push_cast
    linarith [Int.floor_le budget]
  · rw [Int.floor_lt]
    push_cast
    linarith [Int.lt_floor_add_one budget]

theorem count_le_iff (text : JsText) (budget : ℚ) :
    TokenCounter.countTokensHeuristic.count text ≤ budget ↔
      (((text.length + 3) / 4 : Nat) : ℤ) ≤ ⌊budget⌋ := by
  rw [heuristic_count, Int.le_floor]
  push_cast
  rfl

theorem kept_heuristic (positive : 0 < budget)
    (short : budget < TokenCounter.countTokensHeuristic.count body) (side : End) :
    Kept .countTokensHeuristic body budget side
        (sliceByTokens body budget .countTokensHeuristic side) ↔
      Fits .countTokensHeuristic body budget side := by
  have least : 0 ≤ ⌊budget⌋ := Int.floor_nonneg.mpr positive.le
  have long := (not_congr (count_le_iff body budget)).mp (not_le.mpr short)
  obtain ⟨above, below⟩ := @quarter_floor budget
  have one : 1 ≤ budget ↔ 1 ≤ ⌊budget⌋ := by
    rw [Int.le_floor]
    norm_num
  have scaled : max 0 (budget * 4) = budget * 4 := max_eq_right (by linarith)
  rw [sliceByTokens, if_neg (not_le.mpr positive), Fits.eq_def,
    if_neg (not_le.mpr positive)]
  simp only [scaled]
  obtain ⟨size, sized⟩ := Int.eq_ofNat_of_zero_le (show 0 ≤ ⌊budget * 4⌋ by omega)
  rw [sized, Int.toNat_natCast]
  rw [sized] at above below
  -- The slice is right when it is a whole number of tokens long.
  have whole (some : 0 < size ∨ side = .head) :
      Kept .countTokensHeuristic body budget side (slice body size side) ↔
        (size : ℤ) = 4 * ⌊budget⌋ := by
    have length : (slice body size side).length = min size body.length := by
      rcases some with some | rfl
      · exact slice_length body some side
      · exact List.length_take
    constructor
    · intro kept
      have fits := (count_le_iff _ _).mp kept.fits
      rw [length] at fits
      omega
    · intro exactly
      refine ⟨slice_part body size side, (count_le_iff _ _).mpr ?_,
        fun longer inside grown => not_le.mp fun fits => ?_⟩
      · rw [length]
        omega
      · have fits := (count_le_iff _ _).mp fits
        rw [grown, length] at fits
        omega
  cases side with
  | head => exact whole (.inr rfl)
  | tail =>
    rw [one]
    rcases Nat.eq_zero_or_pos size with rfl | some
    · refine iff_of_false (fun kept => absurd kept.fits (not_le.mpr short)) ?_
      omega
    · rw [whole (.inl some)]
      omega

theorem kept_iff {counter : TokenCounter} (lawful : counter.Lawful) {body : JsText}
    {budget : ℚ} (least : 0 ≤ budget) (short : budget < counter.count body) (side : End) :
    Kept counter body budget side (sliceByTokens body budget counter side) ↔
      Fits counter body budget side := by
  rcases least.eq_or_lt with rfl | positive
  · rw [sliceByTokens.eq_def, if_pos le_rfl, Fits.eq_def, if_pos le_rfl]
    exact kept_nothing lawful (nonempty_of_short lawful le_rfl short) side
  · cases counter with
    | countTokensHeuristic => exact kept_heuristic positive short side
    | custom => exact kept_custom lawful positive short side

theorem TokenCounter.Lawful.join₃ (lawful : counter.Lawful) (first second third : JsText) :
    counter.count (first ++ second ++ third) ≤
      counter.count first + counter.count second + counter.count third :=
  (lawful.subadditive _ _).trans (add_le_add (lawful.subadditive _ _) le_rfl)

theorem TokenCounter.Lawful.join₅ (lawful : counter.Lawful)
    (first second third fourth fifth : JsText) :
    counter.count (first ++ second ++ third ++ fourth ++ fifth) ≤
      counter.count first + counter.count second + counter.count third +
        counter.count fourth + counter.count fifth :=
  (lawful.subadditive _ _).trans (add_le_add ((lawful.subadditive _ _).trans
    (add_le_add (lawful.join₃ _ _ _) le_rfl)) le_rfl)

theorem slot_nonneg (maxTokens annotationTokens : ℚ) : 0 ≤ slotTokens maxTokens annotationTokens :=
  le_max_left _ _

theorem slot_within (lawful : counter.Lawful) (least : 0 ≤ maxTokens) ( annotation : JsText) :
    slotTokens maxTokens (counter.count annotation) ≤ maxTokens := by
  have some := lawful.monotone [] annotation (List.nil_infix)
  rw [lawful.empty] at some
  exact max_le least (by linarith)

theorem slot_add (maxTokens annotationTokens : ℚ) :
    slotTokens maxTokens annotationTokens + annotationTokens = max maxTokens annotationTokens := by
  rw [slotTokens, max_comm, max_add, sub_add_cancel, zero_add]

theorem budgets_add (least : 0 ≤ slot) :
    0 ≤ headBudget slot ∧ 0 ≤ tailBudget slot ∧ headBudget slot + tailBudget slot = slot := by
  have half : 0 ≤ slot / 2 := by linarith
  have low : (0 : ℚ) ≤ ⌊slot / 2⌋ := by exact_mod_cast Int.floor_nonneg.mpr half
  have high : (⌊slot / 2⌋ : ℚ) ≤ slot / 2 := Int.floor_le _
  refine ⟨low, le_max_left _ _, ?_⟩
  rw [tailBudget, headBudget, max_eq_right (by linarith)]
  ring

/-- Two ends within budgets that sum to less than the body do not meet. -/
theorem ends_apart (lawful : counter.Lawful) (first : head <+: body) (last : tail <:+ body)
    (short : counter.count head + counter.count tail < counter.count body) :
    head.length + tail.length ≤ body.length := by
  by_contra meet
  obtain ⟨rest, rfl⟩ := first
  have cover : (head ++ rest).length < head.length + tail.length := not_le.mp meet
  rw [List.length_append] at cover
  have inside : rest <:+ tail := by
    refine List.suffix_of_suffix_length_le (List.suffix_append head rest) last (by omega)
  have enough := lawful.subadditive head rest
  have within := lawful.monotone rest tail inside.isInfix
  linarith

def annotationOf (numberText : ℚ → JsText) (maxTokens : ℚ) (outcome : TruncationOutcome) :
    JsText :=
  match outcome.resultHandle with
  | some handle => spilled numberText outcome.originalTokens maxTokens handle
  | none => inPlace numberText outcome.strategyApplied outcome.originalTokens maxTokens

/-- What a cut owes its cap: the ends are kept whole and the output is within the larger of
the cap and the annotation, and two newlines. -/
def RespectsCap (numberText : ℚ → JsText) (counter : TokenCounter) (body : JsText)
    (maxTokens : ℚ) (outcome : TruncationOutcome) : Prop :=
  if outcome.truncated then
    let annotation := annotationOf numberText maxTokens outcome
    let slot := slotTokens maxTokens (counter.count annotation)
    (match outcome.strategyApplied with
      | .middle =>
        let head := sliceByTokens body (headBudget slot) counter .head
        let tail := sliceByTokens body (tailBudget slot) counter .tail
        outcome.body = head ++ newline ++ annotation ++ newline ++ tail ∧
          Kept counter body (headBudget slot) .head head ∧
          Kept counter body (tailBudget slot) .tail tail ∧
          head.length + tail.length ≤ body.length
      | .tail =>
        let tail := sliceByTokens body slot counter .tail
        outcome.body = annotation ++ newline ++ tail ∧ Kept counter body slot .tail tail
      | .spillToFile =>
        let head := sliceByTokens body slot counter .head
        outcome.body = head ++ newline ++ annotation ∧ Kept counter body slot .head head
      | .summarize => False) ∧
    counter.count outcome.body ≤
      max maxTokens (counter.count annotation) + 2 * counter.count newline
  else outcome.body = body ∧ counter.count body ≤ maxTokens

def MiddleFits (numberText : ℚ → JsText) (counter : TokenCounter) (body : JsText)
    (maxTokens : ℚ) : Prop :=
  let slot := slotTokens maxTokens
    (counter.count (inPlace numberText .middle (counter.count body) maxTokens))
  Fits counter body (headBudget slot) .head ∧ Fits counter body (tailBudget slot) .tail

/-- The budgets the strategy leaves. -/
def BudgetsFit (numberText : ℚ → JsText) (counter : TokenCounter) (body : JsText)
    (maxTokens : ℚ) (strategy : TruncationStrategy) (options : Option TruncateOptions) : Prop :=
  counter.count body ≤ maxTokens ∨
    match strategy with
    | .middle => MiddleFits numberText counter body maxTokens
    | .tail =>
      Fits counter body (slotTokens maxTokens
        (counter.count (inPlace numberText .tail (counter.count body) maxTokens))) .tail
    | .spillToFile =>
      match spillTarget options with
      | none => MiddleFits numberText counter body maxTokens
      | some (options, spill, runId, toolCallId) =>
        ∀ written, spill.write (spillRequest options runId toolCallId body) = .ok written →
          Fits counter body (slotTokens maxTokens (counter.count
            (spilled numberText (counter.count body) maxTokens
              (scheme ++ spill.relative written.path)))) .head
    | .summarize => True

section Cap

variable {counter : TokenCounter} (lawful : counter.Lawful) (numberText : ℚ → JsText)
  {body : JsText} {maxTokens : ℚ} (least : 0 ≤ maxTokens)
  (short : maxTokens < counter.count body)

include lawful least short

theorem middle_iff : RespectsCap numberText counter body maxTokens
        (truncateMiddle numberText body maxTokens (counter.count body) counter) ↔
      MiddleFits numberText counter body maxTokens := by
  have within := slot_within lawful least
    (inPlace numberText .middle (counter.count body) maxTokens)
  have add := slot_add maxTokens
    (counter.count (inPlace numberText .middle (counter.count body) maxTokens))
  obtain ⟨low, low', sum⟩ := budgets_add (slot_nonneg maxTokens
    (counter.count (inPlace numberText .middle (counter.count body) maxTokens)))
  have head := @kept_iff _ lawful body _ low (by linarith) .head
  have tail := @kept_iff _ lawful body _ low' (by linarith) .tail
  constructor
  · rintro ⟨⟨-, headKept, tailKept, -⟩, -⟩
    exact ⟨head.mp headKept, tail.mp tailKept⟩
  · rintro ⟨headFits, tailFits⟩
    have headKept := head.mpr headFits
    have tailKept := tail.mpr tailFits
    have first := headKept.fits
    have last := tailKept.fits
    have apart := ends_apart lawful headKept.part tailKept.part (by linarith)
    refine ⟨⟨rfl, headKept, tailKept, apart⟩, ?_⟩
    show _ ≤ max maxTokens
      (counter.count (inPlace numberText .middle (counter.count body) maxTokens)) + _
    refine (lawful.join₅ _ _ _ _ _).trans ?_
    linarith

theorem tail_iff : RespectsCap numberText counter body maxTokens
        (truncateTail numberText body maxTokens (counter.count body) counter) ↔
      Fits counter body (slotTokens maxTokens
        (counter.count (inPlace numberText .tail (counter.count body) maxTokens))) .tail := by
  have within := slot_within lawful least
    (inPlace numberText .tail (counter.count body) maxTokens)
  have add := slot_add maxTokens
    (counter.count (inPlace numberText .tail (counter.count body) maxTokens))
  have tail := kept_iff lawful (slot_nonneg _ _) (within.trans_lt short) .tail
  constructor
  · rintro ⟨⟨-, tailKept⟩, -⟩
    exact tail.mp tailKept
  · intro tailFits
    have tailKept := tail.mpr tailFits
    have last := tailKept.fits
    have some := lawful.monotone [] newline List.nil_infix
    rw [lawful.empty] at some
    refine ⟨⟨rfl, tailKept⟩, ?_⟩
    show _ ≤ max maxTokens
      (counter.count (inPlace numberText .tail (counter.count body) maxTokens)) + _
    refine (lawful.join₃ _ _ _).trans ?_
    linarith

theorem spilled_iff (path handle : JsText) (bytes : Nat) (scanned : Option Bool) :
    let annotation := spilled numberText (counter.count body) maxTokens handle
    let slot := slotTokens maxTokens (counter.count annotation)
    RespectsCap numberText counter body maxTokens
        { outcomeOf counter (counter.count body) .spillToFile
            (sliceByTokens body slot counter .head ++ newline ++ annotation) with
          artifactPath := some path, artifactBytes := some bytes, resultHandle := some handle
          spillImperativePatternsPresent := scanned } ↔
      Fits counter body slot .head := by
  intro annotation slot
  have within := slot_within lawful least annotation
  have add := slot_add maxTokens (counter.count annotation)
  have head := kept_iff lawful (slot_nonneg _ _) (within.trans_lt short) .head
  constructor
  · rintro ⟨⟨-, headKept⟩, -⟩
    exact head.mp headKept
  · intro headFits
    have headKept := head.mpr headFits
    have first := headKept.fits
    have some := lawful.monotone [] newline List.nil_infix
    rw [lawful.empty] at some
    refine ⟨⟨rfl, headKept⟩, ?_⟩
    show _ ≤ max maxTokens (counter.count annotation) + _
    refine (lawful.join₃ _ _ _).trans ?_
    linarith

end Cap

/-- A cut respects its cap exactly when its budgets are ones its ends can be cut to. -/
theorem truncateBody_respects_iff (numberText : ℚ → JsText) {counter : TokenCounter}
    (lawful : counter.Lawful) (body : JsText) {maxTokens : ℚ} (positive : 1 ≤ maxTokens)
    {strategy : TruncationStrategy} (named : strategy ≠ .summarize)
    (options : Option TruncateOptions) {outcome : TruncationOutcome}
    (done : truncateBody numberText counter body maxTokens strategy options = .ok outcome) :
    RespectsCap numberText counter body maxTokens outcome ↔
      BudgetsFit numberText counter body maxTokens strategy options := by
  have least : 0 ≤ maxTokens := zero_le_one.trans positive
  have some : maxTokens ≠ 0 := (zero_lt_one.trans_le positive).ne'
  unfold truncateBody at done
  simp only at done
  split at done
  · rename_i whole
    have whole := whole.resolve_left some
    cases done
    exact iff_of_true ⟨rfl, whole⟩ (.inl whole)
  · rename_i cut
    have short : maxTokens < counter.count body := not_le.mp fun whole => cut (.inr whole)
    rw [BudgetsFit.eq_def, or_iff_right (not_le.mpr short)]
    cases strategy with
    | middle =>
      cases done
      exact middle_iff lawful numberText least short
    | tail =>
      cases done
      exact tail_iff lawful numberText least short
    | spillToFile =>
      unfold spillToFile at done
      simp only at done ⊢
      cases target : spillTarget options with
      | none =>
        rw [target] at done
        cases done
        exact middle_iff lawful numberText least short
      | some target' =>
        obtain ⟨options', spill, runId, toolCallId⟩ := target'
        rw [target] at done
        obtain ⟨written, wrote, done⟩ := ok_of_bind done
        cases done
        refine (spilled_iff lawful numberText least short _ _ _ _).trans ?_
        constructor
        · intro fits written' wrote'
          cases wrote.symm.trans wrote'
          exact fits
        · exact fun fits => fits written wrote
    | summarize => exact absurd rfl named

/-- A counter that knows one character, of two tokens. -/
def wideCounter : TokenCounter := .custom fun text => (2 * text.count 0x3042 : Nat)

theorem wideCounter_lawful : wideCounter.Lawful where
  empty := by simp [wideCounter, TokenCounter.count]
  monotone part text inside := by
    show ((2 * _ : Nat) : ℚ) ≤ ((2 * _ : Nat) : ℚ)
    have fewer := inside.sublist.count_le (0x3042 : UInt16)
    exact_mod_cast Nat.mul_le_mul_left 2 fewer
  subadditive first second := by
    show ((2 * _ : Nat) : ℚ) ≤ ((2 * _ : Nat) : ℚ) + ((2 * _ : Nat) : ℚ)
    rw [List.count_append, mul_add, Nat.cast_add]

def wideBody : JsText := [0x3042, 0x3042]

def printed (value : ℚ) : JsText := ascii (toString value.num)

theorem wide_count : wideCounter.count wideBody = 4 := by
  show ((2 * wideBody.count 0x3042 : Nat) : ℚ) = 4
  rw [show wideBody.count 0x3042 = 2 from rfl]
  norm_num

theorem wide_short : (1 : ℚ) < wideCounter.count wideBody := by
  rw [wide_count]
  norm_num

theorem wide_annotation : wideCounter.count (inPlace printed .tail 4 1) = 0 := by
  have plain : (inPlace printed .tail 4 1).count 0x3042 = 0 := by
    decide
  show ((2 * (inPlace printed .tail 4 1).count 0x3042 : Nat) : ℚ) = 0
  rw [plain]
  rfl

theorem wide_cut : truncateBody printed wideCounter wideBody 1 .tail none =
    .ok (truncateTail printed wideBody 1 (wideCounter.count wideBody) wideCounter) := by
  rw [truncateBody, if_neg]
  rintro (none | whole)
  · exact absurd none one_ne_zero
  · exact absurd whole (not_le.mpr wide_short)

theorem truncateBody_respects_iff_wide : RespectsCap printed wideCounter wideBody 1
        (truncateTail printed wideBody 1 (wideCounter.count wideBody) wideCounter) ↔
      BudgetsFit printed wideCounter wideBody 1 .tail none :=
  truncateBody_respects_iff printed wideCounter_lawful wideBody le_rfl (by decide) none wide_cut

/-- A tail of no character is the whole body. -/
theorem wide_body_whole : ¬ ∀ (numberText : ℚ → JsText) (counter : TokenCounter)
    (body : JsText) (maxTokens : ℚ) (strategy : TruncationStrategy)
    (options : Option TruncateOptions) (outcome : TruncationOutcome),
    counter.Lawful → 1 ≤ maxTokens → strategy ≠ .summarize →
      truncateBody numberText counter body maxTokens strategy options = .ok outcome →
        RespectsCap numberText counter body maxTokens outcome := by
  intro respects
  have kept := (tail_iff wideCounter_lawful printed zero_le_one wide_short).mp
    (respects printed wideCounter wideBody 1 .tail none _ wideCounter_lawful le_rfl (by decide)
      wide_cut)
  rw [wide_count, wide_annotation, slotTokens, sub_zero, max_eq_right zero_le_one, Fits.eq_def,
    if_neg (not_le.mpr zero_lt_one)] at kept
  have last : wideCounter.count [0x3042] ≤ 1 := kept
  exact absurd last (by decide)

end Graphorin.Tools.Truncation
