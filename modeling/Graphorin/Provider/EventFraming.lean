import Graphorin.Provider.EventStream
import Mathlib.Data.List.Induction
import Mathlib.Data.List.TakeWhile

namespace Graphorin.Provider.EventStream

open Graphorin.Js

/-! Streams whose lines end in either way, and what their events hold. -/

inductive LineEnd
  | lf
  | crlf
  deriving DecidableEq

def LineEnd.text : LineEnd → Text
  | .lf => ['\n']
  | .crlf => ['\r', '\n']

def Clean (text : Text) : Prop := ∀ char ∈ text, char ≠ '\n' ∧ char ≠ '\r'

structure Line where
  content : Text
  ending : LineEnd
  filled : content ≠ []
  clean : Clean content

/-- Some lines, and the blank line that ends them. -/
structure Event where
  lines : List Line
  blank : LineEnd

def Line.text (line : Line) : Text := line.content ++ line.ending.text

def linesText (lines : List Line) : Text := lines.flatMap Line.text

def Event.text (event : Event) : Text := linesText event.lines ++ event.blank.text

def eventsText (events : List Event) : Text := events.flatMap Event.text

/-- What stands behind `data:`, less one space. -/
def fieldValue (content : Text) : Option Text :=
  if content.take 5 = dataMark then
    match content.drop 5 with
    | ' ' :: value => some value
    | value => some value
  else none

def Line.value (line : Line) : Option Text := fieldValue line.content

def Event.values (event : Event) : List Text := event.lines.filterMap Line.value

def emit (values : List Text) (next : List Text) : List Text :=
  if values = [] then next
  else if joinLines values = doneMark then []
  else joinLines values :: next

/-- The data fields of the events before `[DONE]`. -/
def payloads : List Event → List Text
  | [] => []
  | event :: rest => emit event.values (payloads rest)

def LineEnd.parts (before blank : LineEnd) : Bool := blank = .lf || before = .crlf

def closesAfter : Option LineEnd → List Line → LineEnd → Bool
  | none, [], _ => false
  | some before, [], blank => before.parts blank
  | _, line :: rest, blank => closesAfter (some line.ending) rest blank

/-- `before` is the end of the line that the event follows, if the source has not passed
it. -/
def Event.closes (before : Option LineEnd) (event : Event) : Bool :=
  closesAfter before event.lines event.blank

/-- The events that the source takes for one, and those it finds at the end of the stream. -/
def runs : Option LineEnd → List Event → List Event → List (List Event × Event) × List Event
  | _, held, [] => ([], held)
  | before, held, event :: rest =>
    if event.closes before then
      let next := runs none [] rest
      ((held, event) :: next.1, next.2)
    else runs (some event.blank) (held ++ [event]) rest

def spoiledLines : List Line → LineEnd → Bool
  | [], _ => false
  | [line], blank => blank = .lf && line.ending = .crlf && line.value.isSome
  | _ :: rest, blank => spoiledLines rest blank

def Event.spoiled (event : Event) : Bool := spoiledLines event.lines event.blank

def single (events : List Event) : Bool :=
  (events.filter fun event => event.values ≠ []).length ≤ 1

def trimFirst (contents : List Text) : List Text :=
  match contents.dropWhile (·.all isWhiteChar) with
  | [] => []
  | first :: rest => trimStart isWhiteChar first :: rest

def trimLast (contents : List Text) : List Text :=
  match contents.reverse.dropWhile (·.all isWhiteChar) with
  | [] => []
  | last :: rest => rest.reverse ++ [trimEnd isWhiteChar last]

/-- The lines of an event, the blank one too. -/
def Event.contents (event : Event) : List Text := event.lines.map Line.content ++ [[]]

def valuesIn (contents : List Text) : List Text := contents.filterMap fieldValue

/-- Trimming changes no data line, or brings out nothing but `[DONE]`. -/
def unharmed (contents : List Text) : Bool :=
  let trimmed := valuesIn (trimLast (trimFirst contents))
  trimmed = valuesIn contents || (valuesIn contents = [] && trimmed = [doneMark])

/-- What the source needs of a stream's events up to `[DONE]`. -/
def framed : List (List Event × Event) → List Event → Bool
  | [], rest => single rest && unharmed (rest.flatMap Event.contents)
  | (held, last) :: others, rest =>
    let run := held ++ [last]
    single run && !last.spoiled &&
      (run.any (fun event => event.values = [doneMark]) || framed others rest)

def WellFramed (events : List Event) : Bool :=
  framed (runs none [] events).1 (runs none [] events).2

theorem dataLine_fieldValue (content : Text) : dataLine content = fieldValue content := by
  have mark : dataMark.isPrefixOf content = true ↔ content.take 5 = dataMark := by
    rw [List.isPrefixOf_iff_prefix, List.prefix_iff_eq_take, eq_comm]
    rfl
  rw [dataLine, fieldValue]
  by_cases data : content.take 5 = dataMark
  · have uncommented : ¬[':'].isPrefixOf content = true := by
      cases content with
      | nil => cases data
      | cons =>
        obtain ⟨rfl, -⟩ := List.cons.inj data
        exact Bool.false_ne_true
    rw [if_neg uncommented, if_pos (mark.mpr data), if_pos data]
    cases content.drop 5 with
    | nil => rfl
    | cons char =>
      by_cases space : char = ' '
      · subst space
        rfl
      · simp only [List.head?_cons, Option.some.injEq, if_neg space]
        split
        · exact absurd (List.cons.inj ‹_›).1 space
        · rfl
  · rw [if_neg (fun found => data (mark.mp found)), ite_self, if_neg data]

def valuesOf (text : Text) : List Text := (splitLines text).filterMap dataLine

theorem splitLines_feed (rest : Text) : splitLines ('\n' :: rest) = [] :: splitLines rest := by
  rw [splitLines]
  · exact if_pos rfl
  · rintro _ ⟨⟩

theorem splitLines_cons (other : char ≠ '\n')
    (unpaired : char = '\r' → rest.head? ≠ some '\n')
    (behind : splitLines rest = line :: lines) :
    splitLines (char :: rest) = (char :: line) :: lines := by
  rw [splitLines]
  · rw [if_neg other, behind]
  · rintro rest' rfl rfl
    exact unpaired rfl rfl

theorem splitLines_ending (ending : LineEnd) (more : Text) :
    splitLines (ending.text ++ more) = [] :: splitLines more := by
  cases ending with
  | lf => exact splitLines_feed more
  | crlf => rw [LineEnd.text, List.cons_append, List.cons_append, List.nil_append, splitLines]

theorem splitLines_line (clean : Clean content) (ending : LineEnd) (more : Text) :
    splitLines (content ++ (ending.text ++ more)) = content :: splitLines more := by
  induction content with
  | nil => exact splitLines_ending ending more
  | cons char _ ih =>
    obtain ⟨other, unpaired⟩ := clean char List.mem_cons_self
    exact splitLines_cons other (fun same => absurd same unpaired)
      (ih fun char' held => clean char' (List.mem_cons_of_mem _ held))

theorem splitLines_last (whole : '\n' ∉ text) : splitLines text = [text] := by
  induction text with
  | nil => rfl
  | cons char rest ih =>
    rw [List.mem_cons, not_or] at whole
    refine splitLines_cons (Ne.symm whole.1) (fun _ paired => whole.2 ?_) (ih whole.2)
    exact List.mem_of_head? paired

theorem Clean.whole (clean : Clean text) : '\n' ∉ text :=
  fun held => (clean _ held).1 rfl

theorem valuesOf_line (clean : Clean content) (ending : LineEnd) (more : Text) :
    valuesOf (content ++ (ending.text ++ more)) =
      (fieldValue content).toList ++ valuesOf more := by
  rw [valuesOf, splitLines_line clean, List.filterMap_cons, dataLine_fieldValue]
  cases fieldValue content <;> rfl

theorem valuesOf_last (whole : '\n' ∉ text) :
    valuesOf text = (fieldValue text).toList := by
  rw [valuesOf, splitLines_last whole, List.filterMap_cons, dataLine_fieldValue]
  cases fieldValue text <;> rfl

theorem valuesOf_ending (ending : LineEnd) (more : Text) :
    valuesOf (ending.text ++ more) = valuesOf more := by
  have clean : Clean [] := by
    intro char held
    cases held
  exact valuesOf_line clean ending more

theorem valuesOf_lines (lines : List Line) (more : Text) :
    valuesOf (linesText lines ++ more) = lines.filterMap Line.value ++ valuesOf more := by
  induction lines with
  | nil => rfl
  | cons line _ ih =>
    rw [linesText, List.flatMap_cons, List.append_assoc, Line.text, List.append_assoc,
      valuesOf_line line.clean, ← linesText, ih, List.filterMap_cons, Line.value]
    cases fieldValue line.content <;> rfl

theorem extractDataLines_emit (block : Text) (drained : List Text × Option Text) :
    settle (reading (extractDataLines block) drained) =
      emit (valuesOf block) (settle drained) := by
  rw [extractDataLines, emit, ← valuesOf]
  by_cases empty : valuesOf block = []
  · rw [if_pos empty, if_pos empty]
    rfl
  · rw [if_neg empty, if_neg empty, reading]
    by_cases finished : joinLines (valuesOf block) = doneMark
    · rw [if_pos finished, if_pos finished]
      rfl
    · rw [if_neg finished, if_neg finished, settle, settle]
      cases drained.2 <;> rfl

theorem readTail_emit (buffer : Text) :
    readTail buffer = emit (valuesOf (trim isWhiteChar buffer)) [] := by
  rw [readTail, extractDataLines, emit, ← valuesOf]
  by_cases filled : (trim isWhiteChar buffer).length > 0
  · rw [if_pos filled]
    by_cases empty : valuesOf (trim isWhiteChar buffer) = []
    · rw [if_pos empty, if_pos empty]
    · rw [if_neg empty, if_neg empty]
  · have none : trim isWhiteChar buffer = [] := List.length_eq_zero_iff.mp (by omega)
    rw [if_neg filled, none]
    rfl

def behind (front : Text) (parts : Option (Text × Text)) : Option (Text × Text) :=
  parts.map fun parts => (front ++ parts.1, parts.2)

theorem behind_nil (parts : Option (Text × Text)) : behind [] parts = parts := by
  cases parts <;> rfl

theorem behind_append (first second : Text) (parts : Option (Text × Text)) :
    behind (first ++ second) parts = behind first (behind second parts) := by
  cases parts with
  | none => rfl
  | some parts => exact congrArg (fun front => some (front, parts.2)) (List.append_assoc _ _ _)

theorem cut_cons (none : separatorAt (char :: rest) = none) :
    cut (char :: rest) = behind [char] (cut rest) := by
  rw [cut, none]
  rfl

theorem cut_content (clean : Clean content) (more : Text) :
    cut (content ++ more) = behind content (cut more) := by
  induction content with
  | nil => exact (behind_nil _).symm
  | cons char rest ih =>
    obtain ⟨feed, carriage⟩ := clean char List.mem_cons_self
    have none : separatorAt (char :: (rest ++ more)) = none := by
      simp [separatorAt, crlfPair, lfPair, List.isPrefixOf, Ne.symm feed, Ne.symm carriage]
    rw [List.cons_append, cut_cons none,
      ih fun char' held => clean char' (List.mem_cons_of_mem _ held), ← behind_append]
    rfl

theorem cut_ending (clean : char ≠ '\n' ∧ char ≠ '\r') (ending : LineEnd) (more : Text) :
    cut (ending.text ++ char :: more) = behind ending.text (cut (char :: more)) := by
  have feed : separatorAt ('\n' :: char :: more) = none := by
    simp [separatorAt, crlfPair, lfPair, List.isPrefixOf, clean.1.symm]
  cases ending with
  | lf => exact cut_cons feed
  | crlf =>
    have carriage : separatorAt ('\r' :: '\n' :: char :: more) = none := by
      simp [separatorAt, crlfPair, lfPair, List.isPrefixOf, clean.2.symm]
    rw [LineEnd.text, List.cons_append, List.cons_append, List.nil_append,
      cut_cons carriage, cut_cons feed, ← behind_append]
    rfl

def residue (before blank : LineEnd) : Text :=
  if before = .crlf ∧ blank = .lf then ['\r'] else []

theorem cut_blank (before blank : LineEnd) (more : Text) :
    cut (before.text ++ (blank.text ++ more)) =
      if before.parts blank then some (residue before blank, more)
      else behind before.text (cut (blank.text ++ more)) := by
  cases before <;> cases blank <;> rfl

def carried : Option LineEnd → Text
  | none => []
  | some before => before.text

def frontOf : Option LineEnd → List Line → LineEnd → Text
  | none, [], _ => []
  | some before, [], blank => residue before blank
  | before, line :: rest, blank =>
    carried before ++ (line.content ++ frontOf (some line.ending) rest blank)

theorem closesAfter_cons (before : Option LineEnd) (line : Line) (rest : List Line)
    (blank : LineEnd) :
    closesAfter before (line :: rest) blank = closesAfter (some line.ending) rest blank := by
  cases before <;> rfl

theorem frontOf_cons (before : Option LineEnd) (line : Line) (rest : List Line)
    (blank : LineEnd) : frontOf before (line :: rest) blank =
      carried before ++ (line.content ++ frontOf (some line.ending) rest blank) := by
  cases before <;> rfl

theorem linesText_cons (line : Line) (rest : List Line) (more : Text) :
    linesText (line :: rest) ++ more =
      line.content ++ (carried (some line.ending) ++ (linesText rest ++ more)) := by
  rw [linesText, List.flatMap_cons, Line.text, List.append_assoc, List.append_assoc]
  rfl

theorem cut_line (before : Option LineEnd) (line : Line) (more : Text) :
    cut (carried before ++ (line.content ++ more)) =
      behind (carried before ++ line.content) (cut more) := by
  cases before with
  | none => exact cut_content line.clean more
  | some before =>
    obtain ⟨char, rest, content⟩ := List.exists_cons_of_ne_nil line.filled
    have first := cut_ending (line.clean char (by rw [content]; exact List.mem_cons_self))
      before (rest ++ more)
    rw [← List.cons_append, ← content] at first
    rw [carried, first, cut_content line.clean, ← behind_append]

theorem cut_closed (closed : closesAfter before lines blank = true) (more : Text) :
    cut (carried before ++ (linesText lines ++ (blank.text ++ more))) =
      some (frontOf before lines blank, more) := by
  induction lines generalizing before with
  | nil =>
    cases before with
    | none => cases closed
    | some before => exact (cut_blank before blank more).trans (if_pos closed)
  | cons line rest ih =>
    rw [closesAfter_cons] at closed
    rw [linesText_cons, cut_line, ih closed, frontOf_cons, behind, Option.map_some,
      List.append_assoc]

theorem cut_open (unclosed : ¬closesAfter before lines blank = true) (more : Text) :
    cut (carried before ++ (linesText lines ++ (blank.text ++ more))) =
      behind (carried before ++ linesText lines) (cut (blank.text ++ more)) := by
  induction lines generalizing before with
  | nil =>
    cases before with
    | none => exact (behind_nil _).symm
    | some before =>
      rw [linesText, List.flatMap_nil, List.append_nil]
      exact (cut_blank before blank more).trans (if_neg unclosed)
  | cons line rest ih =>
    rw [closesAfter_cons] at unclosed
    have whole := linesText_cons line rest []
    rw [List.append_nil, List.append_nil] at whole
    rw [linesText_cons, cut_line, ih unclosed, whole, ← behind_append, List.append_assoc]

def readLines : List Line → LineEnd → List Text
  | [], _ => []
  | [line], blank => (fieldValue (line.content ++ residue line.ending blank)).toList
  | line :: rest, blank => line.value.toList ++ readLines rest blank

def Event.readValues (event : Event) : List Text := readLines event.lines event.blank

theorem residue_whole (before blank : LineEnd) : '\n' ∉ residue before blank := by
  rw [residue]
  split
  · exact fun held => absurd (List.mem_singleton.mp held) (by decide)
  · exact List.not_mem_nil

theorem valuesOf_from (line : Line) (rest : List Line) (blank : LineEnd) :
    valuesOf (line.content ++ frontOf (some line.ending) rest blank) =
      readLines (line :: rest) blank := by
  induction rest generalizing line with
  | nil =>
    refine valuesOf_last fun held => ?_
    exact (List.mem_append.mp held).elim line.clean.whole (residue_whole _ _)
  | cons next rest ih =>
    rw [frontOf_cons, carried, valuesOf_line line.clean, ih]
    rfl

theorem valuesOf_front (before : Option LineEnd) (lines : List Line) (blank : LineEnd) :
    valuesOf (frontOf before lines blank) = readLines lines blank := by
  cases lines with
  | nil =>
    cases before with
    | none => rfl
    | some =>
      rw [frontOf, valuesOf_last (residue_whole _ _), residue]
      split <;> rfl
  | cons =>
    rw [frontOf_cons, ← valuesOf_from]
    cases before with
    | none => rfl
    | some before => exact valuesOf_ending before _

def readRuns : List (List Event × Event) → List Event → List Text
  | [], rest => readTail (eventsText rest)
  | (held, last) :: others, rest =>
    emit (held.flatMap Event.values ++ last.readValues) (readRuns others rest)

structure Holds (text : Text) (before : Option LineEnd) (held : List Event) : Prop where
  whole : text ++ carried before = eventsText held
  passed : ∀ more, cut (text ++ (carried before ++ more)) =
    behind text (cut (carried before ++ more))
  read : ∀ more, valuesOf (text ++ more) = held.flatMap Event.values ++ valuesOf more

theorem holds_nothing : Holds [] none [] where
  whole := rfl
  passed := fun _ => (behind_nil _).symm
  read := fun _ => rfl

theorem Holds.event {text : Text} {before : Option LineEnd} {held : List Event} {event : Event}
    (holds : Holds text before held) (unclosed : ¬event.closes before = true) :
    Holds (text ++ (carried before ++ linesText event.lines)) (some event.blank)
      (held ++ [event]) where
  whole := by
    rw [eventsText, List.flatMap_append, ← eventsText, ← holds.whole]
    simp only [carried, List.flatMap_cons, List.flatMap_nil, List.append_nil, Event.text,
      List.append_assoc]
  passed more := by
    rw [List.append_assoc, List.append_assoc, holds.passed, carried, cut_open unclosed,
      ← behind_append]
  read more := by
    rw [List.append_assoc, List.append_assoc, holds.read, List.flatMap_append,
      List.append_assoc, List.flatMap_singleton]
    refine congrArg _ ?_
    rw [Event.values, ← valuesOf_lines]
    cases before with
    | none => rfl
    | some before => exact valuesOf_ending before _

theorem drain_runs (events : List Event) (holds : Holds text before held) :
    settle (drain (text ++ (carried before ++ eventsText events))) =
      readRuns (runs before held events).1 (runs before held events).2 := by
  induction events generalizing text before held with
  | nil =>
    have none : cut (text ++ (carried before ++ [])) = .none := by
      rw [holds.passed]
      cases before with
      | none => rfl
      | some before => cases before <;> rfl
    rw [eventsText, List.flatMap_nil, drain_none none, List.append_nil, holds.whole]
    rfl
  | cons event rest ih =>
    have split : eventsText (event :: rest) =
        linesText event.lines ++ (event.blank.text ++ eventsText rest) := by
      rw [eventsText, List.flatMap_cons, Event.text, List.append_assoc]
      rfl
    rw [runs, split]
    by_cases closed : event.closes before = true
    · have found := holds.passed (linesText event.lines ++ (event.blank.text ++ eventsText rest))
      rw [cut_closed closed] at found
      rw [if_pos closed, drain_some found, extractDataLines_emit, holds.read, valuesOf_front]
      exact congrArg _ (ih holds_nothing)
    · have next := ih (holds.event closed)
      rw [if_neg closed, ← next]
      simp only [carried, List.append_assoc]

theorem LineEnd.white (ending : LineEnd) : ∀ char ∈ ending.text, isWhiteChar char = true := by
  cases ending <;> exact each_of_all (by decide)

theorem trimFirst_cons (content : Text) (rest : List Text) :
    trimFirst (content :: rest) =
      if content.all isWhiteChar then trimFirst rest
      else trimStart isWhiteChar content :: rest := by
  rw [trimFirst, List.dropWhile_cons]
  by_cases white : content.all isWhiteChar = true
  · rw [if_pos white, if_pos white]
    rfl
  · rw [if_neg white, if_neg white]

theorem trimLast_concat (front : List Text) (content : Text) :
    trimLast (front ++ [content]) =
      if content.all isWhiteChar then trimLast front
      else front ++ [trimEnd isWhiteChar content] := by
  rw [trimLast, List.reverse_append, List.reverse_singleton, List.singleton_append,
    List.dropWhile_cons]
  by_cases white : content.all isWhiteChar = true
  · rw [if_pos white, if_pos white]
    rfl
  · rw [if_neg white, if_neg white]
    exact congrArg (· ++ [trimEnd isWhiteChar content]) (List.reverse_reverse front)

abbrev Row := Text × LineEnd

def rowsText (rows : List Row) : Text := rows.flatMap fun row => row.1 ++ row.2.text

def Event.rows (event : Event) : List Row :=
  event.lines.map (fun line => (line.content, line.ending)) ++ [([], event.blank)]

theorem Event.rows_text (event : Event) : rowsText event.rows = event.text := by
  rw [rowsText, Event.rows, List.flatMap_append, List.flatMap_map, List.flatMap_singleton]
  rfl

theorem eventsText_rows (events : List Event) :
    eventsText events = rowsText (events.flatMap Event.rows) := by
  rw [eventsText, rowsText, List.flatMap_assoc]
  exact congrArg (List.flatMap · events) (funext fun event => event.rows_text.symm)

theorem Event.rows_contents (event : Event) : event.rows.map Prod.fst = event.contents := by
  rw [Event.rows, Event.contents, List.map_append, List.map_map]
  rfl

theorem rows_contents (events : List Event) :
    (events.flatMap Event.rows).map Prod.fst = events.flatMap Event.contents := by
  rw [List.map_flatMap]
  exact congrArg (List.flatMap · events) (funext Event.rows_contents)

variable {events : List Event}

theorem rows_clean {row : Row} (held : row ∈ events.flatMap Event.rows) :
    Clean row.1 := by
  obtain ⟨event, -, held⟩ := List.mem_flatMap.mp held
  obtain held | held := List.mem_append.mp held
  · obtain ⟨line, -, rfl⟩ := List.mem_map.mp held
    exact line.clean
  · obtain rfl := List.mem_singleton.mp held
    intro char held
    cases held

theorem trimStart_rows (clean : ∀ row ∈ rows, Clean row.1) :
    ∃ trimmed, trimStart isWhiteChar (rowsText rows) = rowsText trimmed ∧
      trimmed.map Prod.fst = trimFirst (rows.map Prod.fst) ∧ ∀ row ∈ trimmed, Clean row.1 := by
  induction rows with
  | nil => exact ⟨[], rfl, rfl, clean⟩
  | cons row rest ih =>
    rw [List.map_cons, trimFirst_cons, rowsText, List.flatMap_cons, List.append_assoc,
      ← rowsText]
    by_cases white : row.1.all isWhiteChar = true
    · rw [if_pos white, trimStart_white (List.all_eq_true.mp white),
        trimStart_white row.2.white]
      exact ih fun other held => clean other (List.mem_cons_of_mem _ held)
    · rw [if_neg white, trimStart_solid white]
      refine ⟨(trimStart isWhiteChar row.1, row.2) :: rest, ?_, rfl, fun other held => ?_⟩
      · exact (List.append_assoc _ _ _).symm
      · obtain rfl | held := List.mem_cons.mp held
        · exact fun char found => clean row List.mem_cons_self char
            ((List.dropWhile_sublist isWhiteChar).subset found)
        · exact clean other (List.mem_cons_of_mem _ held)

theorem valuesOf_rows (clean : ∀ row ∈ rows, Clean row.1) (more : Text) :
    valuesOf (rowsText rows ++ more) = valuesIn (rows.map Prod.fst) ++ valuesOf more := by
  induction rows with
  | nil => rfl
  | cons row _ ih =>
    rw [rowsText, List.flatMap_cons, List.append_assoc, List.append_assoc,
      valuesOf_line (clean row List.mem_cons_self), ← rowsText,
      ih fun other held => clean other (List.mem_cons_of_mem _ held), valuesIn, valuesIn,
      List.map_cons, List.filterMap_cons]
    cases fieldValue row.1 <;> rfl

theorem valuesOf_trimEnd (clean : ∀ row ∈ rows, Clean row.1) :
    valuesOf (trimEnd isWhiteChar (rowsText rows)) =
      valuesIn (trimLast (rows.map Prod.fst)) := by
  induction rows using List.reverseRec with
  | nil => rfl
  | append_singleton front row ih =>
    have front_clean : ∀ other ∈ front, Clean other.1 :=
      fun other held => clean other (List.mem_append_left _ held)
    rw [List.map_append, List.map_singleton, trimLast_concat, rowsText, List.flatMap_append,
      List.flatMap_singleton, ← rowsText, ← List.append_assoc, trimEnd_white row.2.white]
    by_cases white : row.1.all isWhiteChar = true
    · rw [if_pos white, trimEnd_white (List.all_eq_true.mp white), ih front_clean]
    · have whole : '\n' ∉ trimEnd isWhiteChar row.1 := fun held =>
        (clean row (List.mem_append_right _ List.mem_cons_self)).whole
          (List.mem_reverse.mp ((List.dropWhile_sublist isWhiteChar).subset
            (List.mem_reverse.mp held)))
      rw [if_neg white, trimEnd_solid white, valuesOf_rows front_clean, valuesOf_last whole,
        valuesIn, valuesIn, List.filterMap_append, List.filterMap_cons]
      cases fieldValue (trimEnd isWhiteChar row.1) <;> rfl

theorem valuesOf_trim (events : List Event) : valuesOf (trim isWhiteChar (eventsText events)) =
      valuesIn (trimLast (trimFirst (events.flatMap Event.contents))) := by
  obtain ⟨trimmed, text, contents, clean⟩ :=
    trimStart_rows fun row (held : row ∈ events.flatMap Event.rows) => rows_clean held
  rw [trim, eventsText_rows, text, valuesOf_trimEnd clean, contents, rows_contents]

theorem fieldValue_white (white : content.all isWhiteChar = true) :
    fieldValue content = none := by
  rw [fieldValue, if_neg]
  intro data
  cases content with
  | nil => cases data
  | cons =>
    obtain ⟨rfl, -⟩ := List.cons.inj data
    cases white

theorem fieldValue_some (data : fieldValue content = some value) :
    ∃ rest, content = dataMark ++ rest := by
  rw [fieldValue] at data
  split at data
  · rename_i mark
    exact ⟨content.drop 5, by rw [← mark, List.take_append_drop]⟩
  · cases data

theorem fieldValue_mark (rest : Text) : (fieldValue (dataMark ++ rest)).isSome = true := by
  have mark : (dataMark ++ rest).take 5 = dataMark := rfl
  rw [fieldValue, if_pos mark]
  split <;> rfl

theorem trimmed_data (data : fieldValue content = some value) :
    (fieldValue (trimStart isWhiteChar content)).isSome = true ∧
      (fieldValue (trimEnd isWhiteChar content)).isSome = true := by
  obtain ⟨rest, rfl⟩ := fieldValue_some data
  refine ⟨fieldValue_mark rest, ?_⟩
  have kept : ∃ behind, trimEnd isWhiteChar (dataMark ++ rest) = dataMark ++ behind := by
    by_cases white : rest.all isWhiteChar = true
    · exact ⟨[], trimEnd_white (List.all_eq_true.mp white) dataMark⟩
    · exact ⟨trimEnd isWhiteChar rest, trimEnd_solid white dataMark⟩
  obtain ⟨behind, kept⟩ := kept
  rw [kept]
  exact fieldValue_mark behind

theorem valuesIn_cons (content : Text) (rest : List Text) :
    valuesIn (content :: rest) = (fieldValue content).toList ++ valuesIn rest := by
  rw [valuesIn, List.filterMap_cons]
  cases fieldValue content <;> rfl

theorem valuesIn_append (front back : List Text) :
    valuesIn (front ++ back) = valuesIn front ++ valuesIn back :=
  List.filterMap_append

variable (contents : List Text)

theorem values_trimFirst :
    (valuesIn contents).length ≤ (valuesIn (trimFirst contents)).length := by
  induction contents with
  | nil => exact Nat.le_refl _
  | cons content _ ih =>
    rw [trimFirst_cons, valuesIn_cons]
    by_cases white : content.all isWhiteChar = true
    · rw [if_pos white, fieldValue_white white]
      exact ih
    · rw [if_neg white, valuesIn_cons, List.length_append, List.length_append]
      refine Nat.add_le_add_right ?_ _
      cases data : fieldValue content with
      | none => exact Nat.zero_le _
      | some =>
        obtain ⟨value', some⟩ := Option.isSome_iff_exists.mp (trimmed_data data).1
        rw [some]
        exact Nat.le_refl _

theorem values_trimLast :
    (valuesIn contents).length ≤ (valuesIn (trimLast contents)).length := by
  induction contents using List.reverseRec with
  | nil => exact Nat.le_refl _
  | append_singleton _ content ih =>
    rw [trimLast_concat, valuesIn_append, valuesIn_cons]
    by_cases white : content.all isWhiteChar = true
    · rw [if_pos white, fieldValue_white white]
      simpa [valuesIn] using ih
    · rw [if_neg white, valuesIn_append, valuesIn_cons, List.length_append,
        List.length_append, List.length_append, List.length_append]
      refine Nat.add_le_add_left (Nat.add_le_add_right ?_ _) _
      cases data : fieldValue content with
      | none => exact Nat.zero_le _
      | some =>
        obtain ⟨value', some⟩ := Option.isSome_iff_exists.mp (trimmed_data data).2
        rw [some]
        exact Nat.le_refl _

theorem values_trimmed :
    (valuesIn contents).length ≤ (valuesIn (trimLast (trimFirst contents))).length :=
  (values_trimFirst contents).trans (values_trimLast _)

theorem valuesIn_contents (events : List Event) :
    valuesIn (events.flatMap Event.contents) = events.flatMap Event.values := by
  induction events with
  | nil => rfl
  | cons event _ ih =>
    have here : valuesIn event.contents = event.values := by
      rw [Event.contents, valuesIn_append, valuesIn, List.filterMap_map]
      exact List.append_nil _
    rw [List.flatMap_cons, List.flatMap_cons, valuesIn_append, here, ih]

def Whole (values : List Text) : Prop := ∀ value ∈ values, '\n' ∉ value

theorem splitLines_whole (text : Text) : Whole (splitLines text) := by
  fun_induction splitLines text with
  | case1 =>
    intro line held
    rw [List.mem_singleton.mp held]
    exact List.not_mem_nil
  | case2 _ ih =>
    intro line held
    obtain rfl | held := List.mem_cons.mp held
    · exact List.not_mem_nil
    · exact ih line held
  | case3 rest _ ih =>
    intro line held
    obtain rfl | held := List.mem_cons.mp held
    · exact List.not_mem_nil
    · exact ih line held
  | case4 char rest _ other =>
    intro line held
    rw [List.mem_singleton.mp held]
    exact fun found => other (List.mem_singleton.mp found).symm
  | case5 char rest _ other line lines behind ih =>
    rw [behind] at ih
    intro line' held
    obtain rfl | held := List.mem_cons.mp held
    · intro found
      obtain rfl | found := List.mem_cons.mp found
      · exact other rfl
      · exact ih line List.mem_cons_self found
    · exact ih line' (List.mem_cons_of_mem _ held)

theorem fieldValue_subset (data : fieldValue content = some value) :
    value ⊆ content := by
  have dropped : value ⊆ content.drop 5 := by
    rw [fieldValue] at data
    split at data
    · split at data
      · rename_i behind
        cases data
        rw [behind]
        exact List.subset_cons_self _ _
      · cases data
        exact List.Subset.refl _
    · cases data
  exact List.Subset.trans dropped (List.drop_subset _ _)

theorem valuesOf_whole (text : Text) : Whole (valuesOf text) := by
  intro value held
  obtain ⟨line, within, data⟩ := List.mem_filterMap.mp held
  rw [dataLine_fieldValue] at data
  exact fun found => splitLines_whole text line within (fieldValue_subset data found)

theorem Event.values_whole (event : Event) : Whole event.values := by
  have read := valuesOf_lines event.lines []
  have whole := valuesOf_whole (linesText event.lines ++ [])
  rw [read] at whole
  exact fun value held => whole value (List.mem_append_left _ held)

theorem Event.readValues_whole (event : Event) : Whole event.readValues := by
  rw [Event.readValues, ← valuesOf_front none]
  exact valuesOf_whole _

theorem joinLines_inj (filled : first ≠ []) (filled' : second ≠ []) (whole : Whole first)
    (whole' : Whole second) (same : joinLines first = joinLines second) :
    first = second := by
  rw [← List.splitOn_intercalate '\n' whole filled,
    ← List.splitOn_intercalate '\n' whole' filled']
  exact congrArg (List.splitOn '\n') same

theorem joinLines_done (filled : values ≠ []) (whole : Whole values) :
    joinLines values = doneMark ↔ values = [doneMark] := by
  have mark : joinLines [doneMark] = doneMark := List.intercalate_singleton
  constructor
  · intro finished
    refine joinLines_inj filled (List.cons_ne_nil _ _) whole ?_ (finished.trans mark.symm)
    intro value held
    rw [List.mem_singleton.mp held]
    decide
  · rintro rfl
    exact mark

variable {values next : List Text}

theorem emit_filled (filled : values ≠ []) (whole : Whole values)
    (unfinished : values ≠ [doneMark]) : emit values next = joinLines values :: next := by
  rw [emit, if_neg filled, if_neg (fun done => unfinished ((joinLines_done filled whole).mp done))]

theorem emit_done (next : List Text) : emit [doneMark] next = [] := rfl

theorem emit_differs {others next' : List Text} (filled : values ≠ [])
    (filled' : others ≠ []) (whole : Whole values) (whole' : Whole others)
    (differ : values ≠ others) (unfinished : values ≠ [doneMark]) :
    emit values next ≠ emit others next' := by
  rw [emit_filled filled whole unfinished, emit, if_neg filled']
  intro same
  split at same
  · cases same
  · exact differ (joinLines_inj filled filled' whole whole' (List.cons.inj same).1)

theorem flatMap_whole : Whole (events.flatMap Event.values) := by
  intro value held
  obtain ⟨event, -, held⟩ := List.mem_flatMap.mp held
  exact event.values_whole value held

theorem single_cons {event : Event} {rest : List Event} :
    single (event :: rest) = true ↔ (event.values = [] ∧ single rest = true) ∨
        (event.values ≠ [] ∧ rest.flatMap Event.values = []) := by
  have none : (rest.filter fun event => event.values ≠ []).length = 0 ↔
      rest.flatMap Event.values = [] := by
    rw [List.length_eq_zero_iff, List.filter_eq_nil_iff, List.flatMap_eq_nil_iff]
    simp
  rw [← none, single, single, List.filter_cons]
  by_cases silent : event.values = []
  · simp [silent]
  · simp [silent]

theorem payloads_silent (silent : events.flatMap Event.values = []) (rest : List Event) :
    payloads (events ++ rest) = payloads rest := by
  induction events with
  | nil => rfl
  | cons event others ih =>
    rw [List.flatMap_cons, List.append_eq_nil_iff] at silent
    rw [List.cons_append, payloads, silent.1]
    exact ih silent.2

theorem payloads_single (alone : single events = true) (rest : List Event) :
    payloads (events ++ rest) = emit (events.flatMap Event.values) (payloads rest) := by
  induction events with
  | nil => rfl
  | cons event others ih =>
    rw [List.cons_append, payloads, List.flatMap_cons]
    obtain ⟨silent, alone⟩ | ⟨-, silent⟩ := single_cons.mp alone
    · rw [silent, List.nil_append]
      exact ih alone
    · rw [silent, List.append_nil, payloads_silent silent]

theorem single_values (alone : single events = true) (held : event ∈ events)
    (filled : event.values ≠ []) : events.flatMap Event.values = event.values := by
  induction events with
  | nil => cases held
  | cons first others ih =>
    rw [List.flatMap_cons]
    obtain ⟨silent, alone⟩ | ⟨-, silent⟩ := single_cons.mp alone
    · obtain rfl | held := List.mem_cons.mp held
      · exact absurd silent filled
      · rw [silent, List.nil_append]
        exact ih alone held
    · rw [silent, List.append_nil]
      obtain rfl | held := List.mem_cons.mp held
      · rfl
      · exact absurd (List.flatMap_eq_nil_iff.mp silent event held) filled

/-- The first event with data gives the first payload. -/
theorem payloads_first (filled : events.flatMap Event.values ≠ []) (rest : List Event) :
    ∃ event next, event ∈ events ∧ event.values ≠ [] ∧
      payloads (events ++ rest) = emit event.values next ∧ (single events = false →
        event.values.length < (events.flatMap Event.values).length) := by
  induction events with
  | nil => exact absurd rfl filled
  | cons first others ih =>
    by_cases silent : first.values = []
    · rw [List.flatMap_cons, silent, List.nil_append] at filled ⊢
      obtain ⟨event, next, held, data, same, several⟩ := ih filled
      refine ⟨event, next, List.mem_cons_of_mem _ held, data, ?_, fun crowded => several ?_⟩
      · rw [List.cons_append, payloads, silent, ← same]
        rfl
      · by_contra alone
        rw [Bool.not_eq_false] at alone
        rw [single_cons.mpr (.inl ⟨silent, alone⟩)] at crowded
        cases crowded
    · refine ⟨first, payloads (others ++ rest), List.mem_cons_self, silent, rfl,
        fun crowded => ?_⟩
      rw [List.flatMap_cons, List.length_append]
      have more : others.flatMap Event.values ≠ [] := by
        intro none
        rw [single_cons.mpr (.inr ⟨silent, none⟩)] at crowded
        cases crowded
      have := List.length_pos_iff.mpr more
      omega

theorem single_done (alone : single events = true) :
    (events.any fun event => event.values = [doneMark]) = true ↔
      events.flatMap Event.values = [doneMark] := by
  rw [List.any_eq_true]
  constructor
  · rintro ⟨event, held, finished⟩
    rw [decide_eq_true_eq] at finished
    rw [single_values alone held (by rw [finished]; exact List.cons_ne_nil _ _), finished]
  · intro finished
    obtain ⟨event, next, held, filled, -, -⟩ :=
      payloads_first (by rw [finished]; exact List.cons_ne_nil _ _) []
    refine ⟨event, held, ?_⟩
    rw [decide_eq_true_eq, ← single_values alone held filled, finished]

theorem fieldValue_carriage (content : Text) :
    fieldValue (content ++ ['\r']) = (fieldValue content).map (· ++ ['\r']) := by
  by_cases long : 5 ≤ content.length
  · rw [fieldValue, fieldValue, List.take_append_of_le_length long,
      List.drop_append_of_le_length long]
    by_cases data : content.take 5 = dataMark
    · rw [if_pos data, if_pos data]
      cases content.drop 5 with
      | nil => rfl
      | cons char =>
        by_cases space : char = ' '
        · subst space
          rfl
        · rw [List.cons_append]
          split
          · exact absurd (List.cons.inj ‹_›).1 space
          · split
            · exact absurd (List.cons.inj ‹_›).1 space
            · rfl
    · rw [if_neg data, if_neg data]
      rfl
  · have short : (content ++ ['\r']).take 5 = content ++ ['\r'] :=
      List.take_of_length_le (by rw [List.length_append, List.length_singleton]; omega)
    have none : ¬content.take 5 = dataMark := by
      intro data
      have := congrArg List.length data
      rw [List.length_take] at this
      simp only [dataMark, List.length_cons, List.length_nil] at this
      omega
    have none' : ¬(content ++ ['\r']).take 5 = dataMark := by
      rw [short]
      intro data
      have held : '\r' ∈ dataMark := data ▸ List.mem_append_right _ List.mem_cons_self
      revert held
      decide
    rw [fieldValue, fieldValue, if_neg none, if_neg none']
    rfl

theorem readLines_cases (lines : List Line) (blank : LineEnd) :
    (spoiledLines lines blank = false ∧
      readLines lines blank = lines.filterMap Line.value) ∨
    (spoiledLines lines blank = true ∧ ∃ front value,
      lines.filterMap Line.value = front ++ [value] ∧
        readLines lines blank = front ++ [value ++ ['\r']]) := by
  induction lines with
  | nil => exact .inl ⟨rfl, rfl⟩
  | cons line rest ih =>
    cases rest with
    | nil =>
      have only : [line].filterMap Line.value = line.value.toList := by
        rw [List.filterMap_cons]
        cases line.value <;> rfl
      rw [only, readLines, spoiledLines, residue]
      by_cases kept : line.ending = .crlf ∧ blank = .lf
      · rw [if_pos kept, fieldValue_carriage, ← Line.value]
        cases value : line.value with
        | none => exact .inl ⟨by simp, rfl⟩
        | some value' => exact .inr ⟨by simp [kept], [], value', rfl, rfl⟩
      · rw [if_neg kept, List.append_nil]
        refine .inl ⟨?_, rfl⟩
        rw [Bool.and_eq_false_iff, Bool.and_eq_false_iff, decide_eq_false_iff_not,
          decide_eq_false_iff_not]
        exact .inl ((not_and_or.mp kept).symm)
    | cons next rest =>
      have values : (line :: next :: rest).filterMap Line.value =
          line.value.toList ++ (next :: rest).filterMap Line.value := by
        rw [List.filterMap_cons]
        cases line.value <;> rfl
      rw [values, readLines, spoiledLines]
      · obtain ⟨calm, same⟩ | ⟨spoiled, front, value, held, read⟩ := ih
        · exact .inl ⟨calm, by rw [same]⟩
        · exact .inr ⟨spoiled, line.value.toList ++ front, value, by rw [held]; simp,
            by rw [read]; simp⟩
      · rintro ⟨⟩
      · rintro ⟨⟩

theorem run_whole (held : List Event) (last : Event) :
    Whole (held.flatMap Event.values ++ last.readValues) := by
  intro value found
  obtain found | found := List.mem_append.mp found
  · exact flatMap_whole value found
  · exact last.readValues_whole value found

theorem run_values (held : List Event) (last : Event) :
    (held ++ [last]).flatMap Event.values = held.flatMap Event.values ++ last.values := by
  rw [List.flatMap_append, List.flatMap_singleton]

theorem single_silent (silent : events.flatMap Event.values = []) :
    single events = true := by
  have none : events.filter (fun event => event.values ≠ []) = [] := by
    rw [List.filter_eq_nil_iff]
    intro event held
    rw [List.flatMap_eq_nil_iff.mp silent event held]
    decide
  rw [single, none]
  rfl

/-- Other data lines than those of the first event with data give other payloads. -/
theorem emit_apart {values next : List Text} {events : List Event} (rest : List Event)
    (whole : Whole values) (filled : events.flatMap Event.values ≠ [])
    (long : (events.flatMap Event.values).length ≤ values.length)
    (apart : single events = true →
      values ≠ events.flatMap Event.values ∧ values ≠ [doneMark]) :
    emit values next ≠ payloads (events ++ rest) := by
  obtain ⟨event, later, among, data, first, several⟩ := payloads_first filled rest
  have some := List.length_pos_iff.mpr data
  have some' : values ≠ [] := by
    have := List.length_pos_iff.mpr filled
    exact List.length_pos_iff.mp (by omega)
  have differ : values ≠ event.values ∧ values ≠ [doneMark] := by
    by_cases alone : single events = true
    · rw [← single_values alone among data]
      exact apart alone
    · have fewer := several (Bool.not_eq_true _ ▸ alone)
      refine ⟨fun equal => ?_, fun equal => ?_⟩
      · rw [equal] at long
        omega
      · rw [equal, List.length_singleton] at long
        omega
  rw [first]
  exact emit_differs some' data whole event.values_whole differ.1 differ.2

/-- Events that the source takes for one are read right if and only if one of them at most
has data, and the last line is not spoiled. -/
theorem emit_run (held : List Event) (last : Event) (next : List Text) (rest : List Event) :
    emit (held.flatMap Event.values ++ last.readValues) next =
        payloads (held ++ [last] ++ rest) ↔
      (single (held ++ [last]) = true ∧ last.spoiled = false) ∧
        ((held ++ [last]).any (fun event => event.values = [doneMark]) = true ∨
          next = payloads rest) := by
  have values := run_values held last
  have whole := run_whole held last
  obtain ⟨calm, same⟩ | ⟨spoiled, front, value, kept, read⟩ :=
    readLines_cases last.lines last.blank
  · have read : last.readValues = last.values := same
    rw [read, ← values] at whole ⊢
    by_cases alone : single (held ++ [last]) = true
    · rw [payloads_single alone, single_done alone]
      by_cases filled : (held ++ [last]).flatMap Event.values = []
      · rw [filled]
        exact ⟨fun equal => ⟨⟨alone, calm⟩, .inr equal⟩, fun found => found.2.resolve_left nofun⟩
      · by_cases finished : (held ++ [last]).flatMap Event.values = [doneMark]
        · rw [finished]
          exact ⟨fun _ => ⟨⟨alone, calm⟩, .inl rfl⟩, fun _ => rfl⟩
        · rw [emit_filled filled whole finished, emit_filled filled whole finished]
          exact ⟨fun equal => ⟨⟨alone, calm⟩, .inr (List.cons.inj equal).2⟩,
            fun found => congrArg _ (found.2.resolve_left finished)⟩
    · exact ⟨fun equal => absurd equal (emit_apart rest whole
        (fun silent => alone (single_silent silent)) (Nat.le_refl _)
        fun found => absurd found alone), fun found => absurd found.1.1 alone⟩
  · have kept' : last.values = front ++ [value] := kept
    have read' : last.readValues = front ++ [value ++ ['\r']] := read
    have longer : value ++ ['\r'] ≠ value := by
      intro equal
      have := congrArg List.length equal
      rw [List.length_append, List.length_singleton] at this
      omega
    refine ⟨fun equal => absurd equal (emit_apart rest whole ?_ ?_ fun _ => ⟨?_, ?_⟩),
      fun found => by cases spoiled.symm.trans found.1.2⟩
    · rw [values, kept']
      simp
    · rw [values, kept', read']
      simp
    · rw [values, kept', read', ← List.append_assoc, ← List.append_assoc]
      exact fun equal => longer (List.cons.inj (List.append_cancel_left equal)).1
    · rw [read', ← List.append_assoc]
      intro equal
      have last' := congrArg List.getLast? equal
      rw [List.getLast?_concat] at last'
      have marked := congrArg List.getLast? (Option.some.inj last')
      rw [List.getLast?_concat] at marked
      cases marked

theorem emit_tail (events : List Event) :
    readTail (eventsText events) = payloads events ↔
      single events = true ∧ unharmed (events.flatMap Event.contents) = true := by
  have values := valuesIn_contents events
  have whole : Whole (valuesIn (trimLast (trimFirst (events.flatMap Event.contents)))) := by
    rw [← valuesOf_trim]
    exact valuesOf_whole _
  have long := values_trimmed (events.flatMap Event.contents)
  rw [readTail_emit, valuesOf_trim, unharmed, values]
  rw [values] at long
  generalize valuesIn (trimLast (trimFirst (events.flatMap Event.contents))) = trimmed at *
  have split (alone : single events = true) :
      payloads (events ++ []) = emit (events.flatMap Event.values) [] :=
    payloads_single alone []
  have apart := @emit_apart trimmed [] events []
  rw [List.append_nil] at split apart
  simp only [Bool.or_eq_true, Bool.and_eq_true, decide_eq_true_eq]
  by_cases silent : events.flatMap Event.values = []
  · have alone := single_silent silent
    rw [split alone, silent]
    by_cases none : trimmed = []
    · rw [none]
      exact ⟨fun _ => ⟨alone, .inl rfl⟩, fun _ => rfl⟩
    · refine ⟨fun equal => ⟨alone, .inr ⟨rfl, ?_⟩⟩, fun found => ?_⟩
      · by_contra unfinished
        rw [emit_filled none whole unfinished] at equal
        cases equal
      · rw [(found.2.resolve_left none).2]
        rfl
  · refine ⟨fun equal => ?_, fun found => ?_⟩
    · by_contra unequal
      refine apart whole silent long (fun alone => ?_) equal
      refine ⟨fun same => unequal ⟨alone, .inl same⟩, fun finished => ?_⟩
      rw [split alone, finished, emit_done] at equal
      have mark : events.flatMap Event.values ≠ [doneMark] := fun same =>
        unequal ⟨alone, .inl (finished.trans same.symm)⟩
      rw [emit_filled silent flatMap_whole mark] at equal
      cases equal
    · obtain ⟨alone, same | ⟨none, -⟩⟩ := found
      · rw [split alone, same]
      · exact absurd none silent

theorem readRuns_framed (closed : List (List Event × Event)) (rest : List Event) :
    readRuns closed rest =
        payloads (closed.flatMap (fun run => run.1 ++ [run.2]) ++ rest) ↔
      framed closed rest = true := by
  induction closed with
  | nil =>
    rw [framed, Bool.and_eq_true]
    exact emit_tail rest
  | cons run _ ih =>
    obtain ⟨held, last⟩ := run
    rw [readRuns, framed, List.flatMap_cons, List.append_assoc, emit_run, ih]
    simp only [Bool.and_eq_true, Bool.or_eq_true, Bool.not_eq_true']

theorem runs_events (before : Option LineEnd) (held events : List Event) :
    (runs before held events).1.flatMap (fun run => run.1 ++ [run.2]) ++
      (runs before held events).2 = held ++ events := by
  induction events generalizing before held with
  | nil => exact (List.append_nil held).symm
  | cons event _ ih =>
    rw [runs]
    by_cases closed : event.closes before = true
    · rw [if_pos closed]
      have next := ih none []
      rw [List.nil_append] at next
      rw [List.flatMap_cons, List.append_assoc, next, List.append_assoc,
        List.singleton_append]
    · rw [if_neg closed, ih, List.append_assoc, List.singleton_append]

theorem drain_payloads (events : List Event) :
    settle (drain (eventsText events)) = payloads events ↔ WellFramed events = true := by
  have text : settle (drain (eventsText events)) =
      readRuns (runs none [] events).1 (runs none [] events).2 :=
    drain_runs events holds_nothing
  have whole := readRuns_framed (runs none [] events).1 (runs none [] events).2
  rw [runs_events, List.nil_append] at whole
  rw [text, WellFramed, whole]

/-- A stream may begin with a byte order mark; otherwise none is taken for one. -/
structure Stream where
  marked : Bool
  events : List Event
  unmarked : marked = false → (eventsText events).head? ≠ some byteOrderMark

def Stream.text (stream : Stream) : Text :=
  if stream.marked then byteOrderMark :: eventsText stream.events else eventsText stream.events

theorem Stream.decoded (stream : Stream) :
    (TextDecoder.decode {} (encode stream.text)).1 = eventsText stream.events := by
  rw [TextDecoder.decode, feed_encode, Stream.text]
  cases marked : stream.marked with
  | true => rfl
  | false =>
    have unmarked := stream.unmarked marked
    cases text : eventsText stream.events with
    | nil => rfl
    | cons =>
      rw [text] at unmarked
      exact if_neg fun mark => unmarked (congrArg some mark)

theorem parse_stream (stream : Stream) (whole : chunks.flatten = encode stream.text) :
    parseEventStream (some chunks) = payloads stream.events ↔
      WellFramed stream.events = true := by
  rw [parseEventStream_whole, whole, stream.decoded]
  exact drain_payloads stream.events

theorem parseEventStream_payloads {text : Text} {chunks : List Bytes}
    (whole : chunks.flatten = encode text) :
    (∀ others : List Bytes, others.flatten = encode text →
      parseEventStream (some chunks) = parseEventStream (some others)) ∧
    ∀ stream : Stream, stream.text = text →
      (parseEventStream (some chunks) = payloads stream.events ↔
        WellFramed stream.events = true) := by
  constructor
  · intro others whole'
    rw [parseEventStream_whole, parseEventStream_whole, whole, whole']
  · rintro stream rfl
    exact parse_stream stream whole

def dataChar (value : Char) (ending : LineEnd)
    (clean : value ≠ '\n' ∧ value ≠ '\r') : Line where
  content := dataMark ++ [value]
  ending := ending
  filled := List.cons_ne_nil _ _
  clean := by
    intro char held
    obtain held | held := List.mem_append.mp held
    · have plain : Clean dataMark := each_of_all (by decide)
      exact plain char held
    · rw [List.mem_singleton.mp held]
      exact clean

def twoEvents (second : LineEnd) : Stream where
  marked := false
  events := [⟨[dataChar 'a' .lf (by decide)], second⟩, ⟨[dataChar 'b' .lf (by decide)], .lf⟩]
  unmarked := fun _ => by cases second <;> decide

theorem twoEvents_read :
    parseEventStream (some [(encode (twoEvents .lf).text).take 9,
      (encode (twoEvents .lf).text).drop 9]) = [['a'], ['b']] ∧
    parseEventStream (some [(encode (twoEvents .lf).text).take 9,
      (encode (twoEvents .lf).text).drop 9]) =
      parseEventStream (some [encode (twoEvents .lf).text]) := by
  have halves : [(encode (twoEvents .lf).text).take 9,
      (encode (twoEvents .lf).text).drop 9].flatten = encode (twoEvents .lf).text := by
    rw [List.flatten_cons, List.flatten_singleton, List.take_append_drop]
  have read := parseEventStream_payloads halves
  exact ⟨(read.2 (twoEvents .lf) rfl).mpr (by decide), read.1 _ List.flatten_singleton⟩

/-- A line feed, and a blank line that ends in a carriage return and a line feed. -/
theorem twoEvents_merged : parseEventStream (some [encode (twoEvents .crlf).text]) ≠
      payloads (twoEvents .crlf).events := by
  intro same
  have framed := (parse_stream (twoEvents .crlf) List.flatten_singleton).mp same
  revert framed
  decide

end Graphorin.Provider.EventStream
