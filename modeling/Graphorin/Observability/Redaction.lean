import Graphorin.Js.JsonText
import Mathlib.Data.List.TakeWhile

namespace Graphorin.Observability.Redaction

/-! Masking the matches of a pattern in a text, with quotes around a mask that takes the
place of a bare JSON value. -/

open Graphorin.Js.JsonText

structure JsonSafeSpan where
  start : Nat
  stop : Nat
  text : Units

def leftOf (before : Units) : Units := before.reverse.dropWhile isBlank

def opensValue (unit : Option UInt16) : Bool :=
  unit == none || unit == some 0x3a || unit == some 0x2c || unit == some 0x5b

def closesValue (unit : Option UInt16) : Bool :=
  unit == none || unit == some 0x2c || unit == some 0x7d || unit == some 0x5d

def opensLeft (before : Units) : Bool :=
  let left := leftOf before
  if left.head? = some 0x2d then opensValue (left.tail.dropWhile isBlank).head?
  else opensValue left.head?

def closesRight (after : Units) : Bool := closesValue (after.dropWhile isBlank).head?

def valueStart (before : Units) (matchIndex : Nat) : Nat :=
  let left := leftOf before
  if left.head? = some 0x2d then left.length - 1 else matchIndex

def quoted (mask : Units) : Units := 0x22 :: (mask ++ [0x22])

def jsonSafeSpan (source : Units) (matchIndex matchLength : Nat) (mask : Units) :
    JsonSafeSpan :=
  let stop := matchIndex + matchLength
  let before := source.take matchIndex
  if opensLeft before && closesRight (source.drop stop) then
    ⟨valueStart before matchIndex, stop, quoted mask⟩
  else
    ⟨matchIndex, stop, mask⟩

structure Match where
  index : Nat
  length : Nat
  deriving DecidableEq

/-- What the calls of `exec` find in a text, in their order. -/
structure RedactionPattern where
  name : Units
  mask : Option Units
  isGlobal : Bool
  exec : Units → List Match
  verify : Option (Units → Bool)

/-- `[REDACTED ` and `]` around the name, where no mask is given. -/
def RedactionPattern.maskText (p : RedactionPattern) : Units :=
  p.mask.getD ([0x5b, 0x52, 0x45, 0x44, 0x41, 0x43, 0x54, 0x45, 0x44, 0x20] ++
    p.name ++ [0x5d])

structure Rewrite where
  rewritten : Units
  lastEnd : Nat
  hit : Bool

def splice (out mask : Units) (state : Rewrite) (found : Match) : Rewrite :=
  let span := jsonSafeSpan out found.index found.length mask
  { rewritten := state.rewritten ++
      ((out.drop state.lastEnd).take (span.start - state.lastEnd) ++ span.text)
    lastEnd := span.stop
    hit := true }

def RedactionPattern.verified (p : RedactionPattern) (out : Units) (found : Match) : Bool :=
  p.verify.all fun verify => verify ((out.drop found.index).take found.length)

def replaceMatches (p : RedactionPattern) (out : Units) : List Match → Rewrite → Rewrite
  | [], state => state
  | found :: rest, state =>
    if found.length = 0 then replaceMatches p out rest state
    else
      let state' := if p.verified out found then splice out p.maskText state found else state
      if p.isGlobal then replaceMatches p out rest state' else state'

def applyPattern (out : Units) (matched : List Units) (p : RedactionPattern) :
    Units × List Units :=
  let state := replaceMatches p out (p.exec out) ⟨[], 0, false⟩
  if state.hit then
    (state.rewritten ++ out.drop state.lastEnd,
      if p.name ∈ matched then matched else matched ++ [p.name])
  else (out, matched)

def applyPatterns (s : Units) (patterns : List RedactionPattern) (matched : List Units) :
    Units × List Units :=
  patterns.foldl (fun state p => applyPattern state.1 state.2 p) (s, matched)

def RedactionPattern.accepting (p : RedactionPattern) (out : Units) (found : List Match) :
    List Match :=
  let kept := found.filter fun found => found.length ≠ 0
  (if p.isGlobal then kept else kept.take 1).filter (p.verified out)

/-- The matches that a pattern masks. -/
def RedactionPattern.accepted (p : RedactionPattern) (out : Units) : List Match :=
  p.accepting out (p.exec out)

inductive Stretch
  | kept (piece : Piece)
  | hit (held : List Plain) (filled : held ≠ [])

/-- A span covers the digits of a number, with its sign or without it. -/
inductive Marked
  | kept (lexeme : Lexeme)
  | span (number : Number) (signed : Bool)
  | string (stretches : List Stretch)

def Stretch.pieces : Stretch → List Piece
  | .kept piece => [piece]
  | .hit held _ => held.map Piece.plain

def Stretch.isHit : Stretch → Bool
  | .kept _ => false
  | .hit _ _ => true

def Marked.lexeme : Marked → Lexeme
  | .kept lexeme => lexeme
  | .span number _ => .number number
  | .string stretches => .string (stretches.flatMap Stretch.pieces)

def Marked.touched : Marked → Bool
  | .kept _ => false
  | .span _ _ => true
  | .string stretches => stretches.any Stretch.isHit

inductive Segment
  | kept (text : Units)
  | number (text : Units)
  | inner (text : Units)

def Segment.text : Segment → Units
  | .kept text => text
  | .number text => text
  | .inner text => text

def Stretch.segment : Stretch → Segment
  | .kept piece => .kept piece.text
  | .hit held _ => .inner (held.map Plain.unit)

def Marked.segments : Marked → List Segment
  | .kept lexeme => [.kept lexeme.text]
  | .span number true => [.number number.text]
  | .span number false => [.kept number.sign, .number number.body]
  | .string stretches => .kept [0x22] :: (stretches.map Stretch.segment ++ [.kept [0x22]])

def segmentsOf (marked : List Marked) : List Segment := marked.flatMap Marked.segments

def segmentsText (segments : List Segment) : Units := segments.flatMap Segment.text

def sourceOf (marked : List Marked) : Units := textOf (marked.map Marked.lexeme)

def Segment.spans (offset : Nat) : Segment → List Match
  | .kept _ => []
  | .number text => [⟨offset, text.length⟩]
  | .inner text => [⟨offset, text.length⟩]

def spansFrom : Nat → List Segment → List Match
  | _, [] => []
  | offset, segment :: rest =>
    segment.spans offset ++ spansFrom (offset + segment.text.length) rest

def spansOf (marked : List Marked) : List Match := spansFrom 0 (segmentsOf marked)

def exposed (before after : Units) : Bool := opensLeft before && closesRight after

def Segment.hidden (before after : Units) : Segment → Bool
  | .inner _ => !exposed before after
  | _ => true

/-- No span inside a string has the neighbours of a value. -/
def hidden : Units → List Segment → Units → Bool
  | _, [], _ => true
  | before, segment :: rest, after =>
    segment.hidden before (segmentsText rest ++ after) &&
      hidden (before ++ segment.text) rest after

def Same (marked : Marked) (lexeme : Lexeme) : Prop :=
  if marked.touched then lexeme.kind = some .scalar ∨ lexeme.kind = some .string
  else lexeme = marked.lexeme

def isToken (lexeme : Lexeme) : Bool := lexeme.kind.isSome

/-- The text is a document with the tokens of another, its untouched ones unchanged. -/
def KeepsJson (marked : List Marked) (text : Units) : Prop :=
  ∃ lexemes, text = textOf lexemes ∧ Document lexemes ∧
    List.Forall₂ Same (marked.filter fun item => isToken item.lexeme)
      (lexemes.filter isToken)

theorem replaceMatches_accepted (p : RedactionPattern) (out : Units) (found : List Match)
    (state : Rewrite) : replaceMatches p out found state =
      (p.accepting out found).foldl (splice out p.maskText) state := by
  unfold RedactionPattern.accepting
  induction found generalizing state with
  | nil =>
    simp [replaceMatches]
  | cons first _ ih =>
    rw [replaceMatches]
    by_cases empty : first.length = 0
    · rw [if_pos empty, ih, List.filter_cons_of_neg (by simpa using empty)]
    · rw [if_neg empty, List.filter_cons_of_pos (by simpa using empty)]
      by_cases isGlobal : p.isGlobal = true
      · simp only [if_pos isGlobal, ih, List.filter_cons]
        split <;> rfl
      · simp only [if_neg isGlobal, List.take_succ_cons, List.take_zero, List.filter_cons,
          List.filter_nil]
        split <;> rfl

theorem splices_hit (out mask : Units) (found : List Match) (state : Rewrite) :
    (found.foldl (splice out mask) state).hit = (state.hit || !found.isEmpty) := by
  induction found generalizing state with
  | nil => rw [List.foldl_nil, List.isEmpty_nil, Bool.not_true, Bool.or_false]
  | cons first rest ih =>
    rw [List.foldl_cons, ih, List.isEmpty_cons, Bool.not_false, Bool.or_true]
    rfl

def Rewrite.closed (out : Units) (state : Rewrite) : Units :=
  state.rewritten ++ out.drop state.lastEnd

theorem applyPattern_text (out : Units) (matched : List Units) (p : RedactionPattern) :
    (applyPattern out matched p).1 =
      ((p.accepted out).foldl (splice out p.maskText) ⟨[], 0, false⟩).closed out := by
  have same : replaceMatches p out (p.exec out) ⟨[], 0, false⟩ =
      (p.accepted out).foldl (splice out p.maskText) ⟨[], 0, false⟩ :=
    replaceMatches_accepted p out (p.exec out) _
  rw [applyPattern, same]
  have hit := splices_hit out p.maskText (p.accepted out) ⟨[], 0, false⟩
  by_cases fired : ((p.accepted out).foldl (splice out p.maskText) ⟨[], 0, false⟩).hit = true
  · simp only [if_pos fired]
    rfl
  · simp only [if_neg fired]
    rw [Bool.not_eq_true] at fired
    rw [fired, Bool.false_or] at hit
    have none : p.accepted out = [] := List.isEmpty_iff.mp (by simpa using hit.symm)
    rw [none]
    rfl

/-! The loop, told along the segments: what is written, the source up to the last match,
and the source since then. -/

structure Stage where
  written : Units
  gone : Units
  pending : Units

def Stage.before (stage : Stage) : Units := stage.gone ++ stage.pending

def Stage.result (stage : Stage) : Units := stage.written ++ stage.pending

def Stage.keep (stage : Stage) (text : Units) : Stage :=
  { stage with pending := stage.pending ++ text }

def Stage.place (mask : Units) (stage : Stage) (held after : Units) : Stage :=
  let start := if exposed stage.before after then valueStart stage.before stage.before.length
    else stage.before.length
  { written := stage.written ++ (stage.pending.take (start - stage.gone.length) ++
      if exposed stage.before after then quoted mask else mask)
    gone := stage.before ++ held
    pending := [] }

def Stage.step (mask after : Units) (stage : Stage) : Segment → Stage
  | .kept text => stage.keep text
  | .number text => stage.place mask text after
  | .inner text => stage.place mask text after

def Stage.run (mask : Units) : Stage → List Segment → Units → Stage
  | stage, [], _ => stage
  | stage, segment :: rest, after =>
    (stage.step mask (segmentsText rest ++ after) segment).run mask rest after

theorem Stage.before_step (mask after : Units) (stage : Stage) (segment : Segment) :
    (stage.step mask after segment).before = stage.before ++ segment.text := by
  cases segment with
  | kept => exact (List.append_assoc _ _ _).symm
  | number => exact List.append_nil _
  | inner => exact List.append_nil _

theorem Stage.before_run (mask after : Units) (stage : Stage) (segments : List Segment) :
    (stage.run mask segments after).before = stage.before ++ segmentsText segments := by
  induction segments generalizing stage with
  | nil => exact (List.append_nil _).symm
  | cons segment rest ih =>
    rw [Stage.run, ih, Stage.before_step, List.append_assoc]
    rfl

theorem segmentsText_append (front back : List Segment) :
    segmentsText (front ++ back) = segmentsText front ++ segmentsText back :=
  List.flatMap_append

theorem Stage.run_append (mask after : Units) (stage : Stage) (front back : List Segment) :
    stage.run mask (front ++ back) after =
      (stage.run mask front (segmentsText back ++ after)).run mask back after := by
  induction front generalizing stage with
  | nil => rfl
  | cons segment rest ih =>
    rw [List.cons_append, Stage.run, Stage.run, ih, segmentsText_append, List.append_assoc]

theorem hidden_append (before after : Units) (front back : List Segment) :
    hidden before (front ++ back) after =
      (hidden before front (segmentsText back ++ after) &&
        hidden (before ++ segmentsText front) back after) := by
  induction front generalizing before with
  | nil => rw [hidden, Bool.true_and, segmentsText, List.flatMap_nil, List.append_nil]; rfl
  | cons segment rest ih =>
    rw [List.cons_append, hidden, hidden, ih, segmentsText_append, List.append_assoc,
      Bool.and_assoc, List.append_assoc]
    rfl

theorem valueStart_le (before : Units) : valueStart before before.length ≤ before.length := by
  rw [valueStart]
  have shorter : (leftOf before).length ≤ before.length := by
    have := (List.dropWhile_sublist isBlank (l := before.reverse)).length_le
    rwa [List.length_reverse] at this
  split
  · exact Nat.le_trans (Nat.sub_le _ _) shorter
  · exact Nat.le_refl _

theorem jsonSafeSpan_at (before held after mask : Units) :
    jsonSafeSpan (before ++ (held ++ after)) before.length held.length mask =
      if exposed before after then
        ⟨valueStart before before.length, before.length + held.length, quoted mask⟩
      else ⟨before.length, before.length + held.length, mask⟩ := by
  have left : (before ++ (held ++ after)).take before.length = before := List.take_left
  have right : (before ++ (held ++ after)).drop (before.length + held.length) = after := by
    rw [← List.length_append, ← List.append_assoc, List.drop_left]
  simp only [jsonSafeSpan, left, right]
  rfl

theorem splice_place (mask held after : Units) (stage : Stage) (hit : Bool) :
    splice (stage.before ++ (held ++ after)) mask ⟨stage.written, stage.gone.length, hit⟩
        ⟨stage.before.length, held.length⟩ =
      ⟨(stage.place mask held after).written, (stage.place mask held after).gone.length,
        true⟩ := by
  have behind : (stage.before ++ (held ++ after)).drop stage.gone.length =
      stage.pending ++ (held ++ after) := by
    rw [Stage.before, List.append_assoc, List.drop_left]
  have inside {start : Nat} (within : start ≤ stage.before.length) :
      (stage.pending ++ (held ++ after)).take (start - stage.gone.length) =
        stage.pending.take (start - stage.gone.length) := by
    rw [Stage.before, List.length_append] at within
    exact List.take_append_of_le_length (by omega)
  have start := inside (valueStart_le stage.before)
  have plain := inside (Nat.le_refl stage.before.length)
  rw [splice, jsonSafeSpan_at, behind]
  by_cases shown : exposed stage.before after = true
  · simp only [if_pos shown, Stage.place, start, List.length_append]
  · simp only [if_neg shown, Stage.place, plain, List.length_append]

theorem splices_step (mask after : Units) (segment : Segment) (stage : Stage) (hit : Bool) :
    ∃ hit', (segment.spans stage.before.length).foldl
        (splice (stage.before ++ (segment.text ++ after)) mask)
        ⟨stage.written, stage.gone.length, hit⟩ =
      ⟨(stage.step mask after segment).written,
        (stage.step mask after segment).gone.length, hit'⟩ := by
  cases segment with
  | kept => exact ⟨hit, rfl⟩
  | number text => exact ⟨true, splice_place mask text after stage hit⟩
  | inner text => exact ⟨true, splice_place mask text after stage hit⟩

theorem splices_run (mask after : Units) (segments : List Segment) (stage : Stage) (hit : Bool) :
    ∃ hit', (spansFrom stage.before.length segments).foldl
        (splice (stage.before ++ (segmentsText segments ++ after)) mask)
        ⟨stage.written, stage.gone.length, hit⟩ =
      ⟨(stage.run mask segments after).written,
        (stage.run mask segments after).gone.length, hit'⟩ := by
  induction segments generalizing stage hit with
  | nil => exact ⟨hit, rfl⟩
  | cons segment rest ih =>
    have split : segmentsText (segment :: rest) ++ after =
        segment.text ++ (segmentsText rest ++ after) := by
      rw [segmentsText, List.flatMap_cons, List.append_assoc]
      rfl
    obtain ⟨hit', step⟩ := splices_step mask (segmentsText rest ++ after) segment stage hit
    obtain ⟨hit'', run⟩ := ih (stage.step mask (segmentsText rest ++ after) segment) hit'
    rw [Stage.before_step, List.length_append, List.append_assoc] at run
    refine ⟨hit'', ?_⟩
    rw [spansFrom, List.foldl_append, split, step, run]
    rfl

theorem applyPatterns_run {matched : List Units}
    (found : p.accepted (segmentsText segments) = spansFrom 0 segments) :
    (applyPatterns (segmentsText segments) [p] matched).1 =
      (Stage.run p.maskText ⟨[], [], []⟩ segments []).result := by
  obtain ⟨hit, run⟩ := splices_run p.maskText [] segments ⟨[], [], []⟩ false
  have before := Stage.before_run p.maskText [] ⟨[], [], []⟩ segments
  simp only [Stage.before, List.nil_append, List.append_nil, List.length_nil] at run before
  have behind : (segmentsText segments).drop
      (Stage.run p.maskText ⟨[], [], []⟩ segments []).gone.length =
      (Stage.run p.maskText ⟨[], [], []⟩ segments []).pending := by
    rw [← before, List.drop_left]
  rw [applyPatterns, List.foldl_cons, List.foldl_nil, applyPattern_text, found, run]
  exact congrArg _ behind

theorem leftOf_split (left : leftOf before = unit :: rest) :
    ∃ blanks, before = rest.reverse ++ unit :: blanks ∧
      ∀ blank ∈ blanks, isBlank blank = true := by
  refine ⟨(before.reverse.takeWhile isBlank).reverse, ?_, fun blank held =>
    List.mem_takeWhile_imp (List.mem_reverse.mp held)⟩
  have whole := List.takeWhile_append_dropWhile (p := isBlank) (l := before.reverse)
  rw [← leftOf, left] at whole
  have turned := congrArg List.reverse whole
  rw [List.reverse_append, List.reverse_cons, List.reverse_reverse, List.append_assoc] at turned
  exact turned.symm

/-- A sign that is absorbed leaves no half of an escape. -/
theorem stripped_reads {written gone pending : Units}
    (read : Reads (written ++ pending) quotes) :
    Reads (written ++ pending.take (valueStart (gone ++ pending) (gone ++ pending).length -
      gone.length)) quotes := by
  by_cases sign : (leftOf (gone ++ pending)).head? = some 0x2d
  · obtain ⟨rest, left⟩ := List.head?_eq_some_iff.mp sign
    obtain ⟨blanks, split, blank⟩ := leftOf_split left
    have silent : ∀ unit ∈ 0x2d :: blanks, isSilent unit = true := by
      intro unit held
      obtain rfl | held := List.mem_cons.mp held
      · rfl
      · exact isBlank_silent (blank unit held)
    have start : valueStart (gone ++ pending) (gone ++ pending).length = rest.reverse.length := by
      rw [valueStart, left]
      simp
    rw [start]
    obtain ⟨inner, front, following⟩ | ⟨inner, front, following⟩ :=
      List.append_eq_append_iff.mp split
    · have take : pending.take (rest.reverse.length - gone.length) = inner := by
        rw [front, List.length_append, Nat.add_sub_cancel_left, following, List.take_left]
      rw [take]
      rw [following, ← List.append_assoc] at read
      exact read.cut silent
    · have short : rest.reverse.length - gone.length = 0 := by
        rw [front, List.length_append]
        omega
      rw [short, List.take_zero, List.append_nil]
      exact read.cut fun unit held =>
        silent unit (following ▸ List.mem_append_right _ held)
  · have start : valueStart (gone ++ pending) (gone ++ pending).length =
        (gone ++ pending).length := by
      rw [valueStart]
      exact if_neg sign
    rw [start, List.length_append, Nat.add_sub_cancel_left, List.take_length]
    exact read

theorem quoted_reads (plain : ∀ unit ∈ mask, isInert unit = true) :
    Reads (quoted mask) 2 :=
  .quote ((reads_inert plain).append (.quote .nil))

theorem Stage.place_reads {mask held after : Units} {stage : Stage} {quotes : Nat}
    (plain : ∀ unit ∈ mask, isInert unit = true) (read : Reads stage.result quotes) :
    Reads (stage.place mask held after).result
      (quotes + if exposed stage.before after then 2 else 0) := by
  rw [Stage.result, Stage.place, List.append_nil, ← List.append_assoc]
  by_cases shown : exposed stage.before after = true
  · simp only [if_pos shown]
    exact (stripped_reads read).append (quoted_reads plain)
  · simp only [if_neg shown]
    rw [Stage.before, List.length_append, Nat.add_sub_cancel_left, List.take_length]
    exact read.append (reads_inert plain)

theorem Stage.keep_result (stage : Stage) (text : Units) :
    (stage.keep text).result = stage.result ++ text :=
  (List.append_assoc _ _ _).symm

theorem Stage.keep_before (stage : Stage) (text : Units) :
    (stage.keep text).before = stage.before ++ text :=
  (List.append_assoc _ _ _).symm

theorem Stage.place_hidden {mask held after : Units} {stage : Stage}
    (covered : exposed stage.before after = false) :
    (stage.place mask held after).result = stage.result ++ mask := by
  have shown : ¬exposed stage.before after = true := by rw [covered]; exact Bool.false_ne_true
  rw [Stage.result, Stage.place, List.append_nil, ← List.append_assoc]
  simp only [if_neg shown]
  rw [Stage.before, List.length_append, Nat.add_sub_cancel_left, List.take_length]
  rfl

end Graphorin.Observability.Redaction
