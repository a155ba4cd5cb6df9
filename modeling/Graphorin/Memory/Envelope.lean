import Graphorin.Audit.Canonical
import Graphorin.Js.Space
import Graphorin.Lib.Rewriting

namespace Graphorin.Memory

open Lib Audit
open Js (isWhitespace)

/-! Text that says of every unit whether it was taken from inside an untrusted-content
envelope, and the envelope itself. -/

structure Letter where
  unit : UInt16
  taken : Bool := false
  deriving DecidableEq

abbrev Text := List Letter

/-- Text of the program's own. -/
def fresh (text : JsText) : Text := text.map fun unit => { unit }

def literal (text : String) : Text := fresh (ascii text)

def Text.units (text : Text) : JsText := text.map (·.unit)

def skipWhitespace (text : Text) : Text := text.dropWhile fun letter => isWhitespace letter.unit

def trim (text : Text) : Text := Js.trim (fun letter => isWhitespace letter.unit) text

def UNTRUSTED_CONTENT_OPEN_PREFIX : JsText := ascii "<<<untrusted_content"

def UNTRUSTED_CONTENT_CLOSE : JsText := ascii "<<</untrusted_content>>>"

def literally (pattern : String) (text : Text) : Option Text :=
  if startsWith Letter.unit (ascii pattern) text then
    some (text.drop (ascii pattern).length)
  else none

def lowerUnit (unit : UInt16) : UInt16 :=
  if 0x41 ≤ unit && unit ≤ 0x5a then unit + 0x20 else unit

/-- The same with the `i` flag, for a pattern in lower case. -/
def caseless (pattern : String) (text : Text) : Option Text :=
  if startsWith (fun letter : Letter => lowerUnit letter.unit) (ascii pattern) text then
    some (text.drop (ascii pattern).length)
  else none

/-- `EMBEDDED_CLOSING_RE` at the start of the text, with its replacement. -/
def findClosing (text : Text) : Option (Nat × Text) :=
  (literally "<<<" text).bind fun rest =>
    (literally "/" (skipWhitespace rest)).bind fun rest =>
      (caseless "untrusted_content" (skipWhitespace rest)).map fun rest =>
        match literally ">>>" (skipWhitespace rest) with
        | some rest' => (text.length - rest'.length, literal "[[/untrusted_content]]")
        | none => (text.length - rest.length, literal "[[/untrusted_content")

/-- `EMBEDDED_OPENING_RE` likewise. -/
def findOpening (text : Text) : Option (Nat × Text) :=
  (literally "<<<" text).bind fun rest =>
    (caseless "untrusted_content" (skipWhitespace rest)).map fun rest =>
      (text.length - rest.length, literal "[[untrusted_content")

def neutralizeEnvelopeMarkers (body : Text) : Text :=
  if includes Letter.unit (ascii "<<<") body then
    rewriteAll findOpening 0 (rewriteAll findClosing 0 body)
  else body

def escapeQuotes (value : JsText) : JsText :=
  value.flatMap fun unit => if unit = 0x22 then ascii "&quot;" else [unit]

def wrapUntrusted (body : Text) (attrs : List (String × String)) : Text :=
  fresh UNTRUSTED_CONTENT_OPEN_PREFIX ++
    (attrs.flatMap fun attr =>
      literal (" " ++ attr.1 ++ "=\"") ++ fresh (escapeQuotes (ascii attr.2)) ++
        literal "\"") ++
    literal ">>>\n" ++ neutralizeEnvelopeMarkers body ++ literal "\n" ++
    fresh UNTRUSTED_CONTENT_CLOSE

variable {text replacement : Text} {length : Nat}

theorem findOpening_cases (found : findOpening text = some (length, replacement)) :
    replacement = literal "[[untrusted_content" := by
  rw [findOpening] at found
  obtain ⟨rest, -, found⟩ := Option.bind_eq_some_iff.mp found
  obtain ⟨rest', -, same⟩ := Option.map_eq_some_iff.mp found
  exact (congrArg Prod.snd same).symm

theorem findClosing_cases (found : findClosing text = some (length, replacement)) :
    replacement = literal "[[/untrusted_content]]" ∨
      replacement = literal "[[/untrusted_content" := by
  rw [findClosing] at found
  obtain ⟨rest, -, found⟩ := Option.bind_eq_some_iff.mp found
  obtain ⟨rest', -, found⟩ := Option.bind_eq_some_iff.mp found
  obtain ⟨rest'', -, same⟩ := Option.map_eq_some_iff.mp found
  split at same
  · exact .inl (congrArg Prod.snd same).symm
  · exact .inr (congrArg Prod.snd same).symm

/-- A replacement starts with a bracket and has no `<`. -/
def Bracketed (replacement : Text) : Prop :=
  replacement.head?.map (·.unit) = some 0x5b ∧
    ∀ letter ∈ replacement, letter.unit ≠ 0x3c ∧ letter.taken = false

instance (replacement : Text) : Decidable (Bracketed replacement) :=
  inferInstanceAs (Decidable (_ ∧ ∀ letter ∈ _, _ ∧ _))

variable {text replacement : Text} {length : Nat}

theorem findOpening_bracketed (found : findOpening text = some (length, replacement)) :
    Bracketed replacement := by
  rw [findOpening_cases found]
  decide

theorem findClosing_bracketed (found : findClosing text = some (length, replacement)) :
    Bracketed replacement := by
  rcases findClosing_cases found with same | same
  · rw [same]
    decide
  · rw [same]
    decide

variable {pattern : JsText}

theorem foreign_of_bracketed {find : Text → Option (Nat × Text)}
    (brackets : ∀ {text replacement length}, find text = some (length, replacement) →
      Bracketed replacement)
    (absent : (0x5b : UInt16) ∉ pattern) (opens : pattern.head? = some 0x3c) :
    Foreign Letter.unit pattern find := by
  intro text length replacement found
  obtain ⟨starts, inside⟩ := brackets found
  refine ⟨?_, fun letter there => ?_⟩
  · cases replacement with
    | nil => cases starts
    | cons first rest =>
      refine ⟨first, rest, rfl, ?_⟩
      have bracket : first.unit = 0x5b := Option.some.inj starts
      rw [bracket]
      exact absent
  · rw [opens]
    exact fun same => (inside letter there).1 (Option.some.inj same)

theorem drop_of_startsWith {code : Letter → UInt16} {first second : JsText}
    (starts : startsWith code (first ++ second) text = true) :
    startsWith code first text = true ∧
      startsWith code second (text.drop first.length) = true := by
  obtain ⟨front, back, rfl, same⟩ := startsWith_iff.mp starts
  obtain ⟨one, two, rfl, rfl, rfl⟩ := List.map_eq_append_iff.mp same
  refine ⟨startsWith_iff.mpr ⟨one, two ++ back, by rw [List.append_assoc], rfl⟩, ?_⟩
  refine startsWith_iff.mpr ⟨two, back, ?_, rfl⟩
  rw [List.length_map, List.append_assoc, List.drop_left]

/-- No whitespace stands before a pattern that starts with none. -/
theorem skipWhitespace_of_startsWith {first : UInt16}
    (starts : startsWith Letter.unit (first :: pattern) text = true)
    (visible : isWhitespace first = false) : skipWhitespace text = text := by
  cases text with
  | nil => rfl
  | cons =>
    rw [startsWith_cons, Bool.and_eq_true, beq_iff_eq] at starts
    rw [skipWhitespace, List.dropWhile_cons, ← starts.1, visible]
    rfl

theorem caseless_of_startsWith {pattern : String}
    (lower : (ascii pattern).map lowerUnit = ascii pattern)
    (starts : startsWith Letter.unit (ascii pattern) text = true) :
    caseless pattern text = some (text.drop (ascii pattern).length) := by
  rw [caseless, if_pos]
  obtain ⟨front, back, rfl, same⟩ := startsWith_iff.mp starts
  refine startsWith_iff.mpr ⟨front, back, rfl, ?_⟩
  rw [← same, List.map_map] at lower
  rw [← same]
  exact lower

theorem findOpening_finds
    (starts : startsWith Letter.unit UNTRUSTED_CONTENT_OPEN_PREFIX text = true) :
    findOpening text ≠ none := by
  have parts : UNTRUSTED_CONTENT_OPEN_PREFIX = ascii "<<<" ++ ascii "untrusted_content" := by
    decide
  rw [parts] at starts
  obtain ⟨opens, names⟩ := drop_of_startsWith starts
  have still := skipWhitespace_of_startsWith
    (show startsWith Letter.unit (0x75 :: ascii "ntrusted_content") _ = true from names)
    (by decide)
  rw [findOpening, literally, if_pos opens, Option.bind_some, still,
    caseless_of_startsWith (by decide) names]
  exact Option.some_ne_none _

theorem findClosing_finds
    (starts : startsWith Letter.unit UNTRUSTED_CONTENT_CLOSE text = true) :
    findClosing text ≠ none := by
  have parts : UNTRUSTED_CONTENT_CLOSE =
      ascii "<<<" ++ (ascii "/" ++ (ascii "untrusted_content" ++ ascii ">>>")) := by
    decide
  rw [parts] at starts
  obtain ⟨opens, starts⟩ := drop_of_startsWith starts
  obtain ⟨slash, starts'⟩ := drop_of_startsWith starts
  obtain ⟨names, -⟩ := drop_of_startsWith starts'
  have still := skipWhitespace_of_startsWith
    (show startsWith Letter.unit (0x2f :: []) _ = true from slash) (by decide)
  have still' := skipWhitespace_of_startsWith
    (show startsWith Letter.unit (0x75 :: ascii "ntrusted_content") _ = true from names)
    (by decide)
  rw [findClosing, literally, if_pos opens, Option.bind_some, still, literally,
    if_pos slash, Option.bind_some, still',
    caseless_of_startsWith (by decide) names]
  exact Option.some_ne_none _

/-- A text without the marker of an envelope's start and without one of its end. -/
def Unmarked (text : Text) : Prop :=
  includes Letter.unit UNTRUSTED_CONTENT_OPEN_PREFIX text = false ∧
    includes Letter.unit UNTRUSTED_CONTENT_CLOSE text = false

theorem neutralize_unmarked (body : Text) : Unmarked (neutralizeEnvelopeMarkers body) := by
  have opening : UNTRUSTED_CONTENT_OPEN_PREFIX =
      0x3c :: ascii "<<untrusted_content" := by decide
  have closing : UNTRUSTED_CONTENT_CLOSE = 0x3c :: ascii "<</untrusted_content>>>" := by
    decide
  rw [neutralizeEnvelopeMarkers, Unmarked]
  split
  · constructor
    · rw [opening]
      refine includes_rewritten_eq_false (foreign_of_bracketed findOpening_bracketed
        (by decide) rfl) (fun text starts => findOpening_finds ?_) _
      rw [opening]
      exact starts
    · rw [closing]
      refine includes_rewritten_of_false (foreign_of_bracketed findOpening_bracketed
        (by decide) rfl) ?_
      refine includes_rewritten_eq_false (foreign_of_bracketed findClosing_bracketed
        (by decide) rfl) (fun text starts => findClosing_finds ?_) _
      rw [closing]
      exact starts
  · rename_i bare
    have absent : ∀ pattern after, pattern = ascii "<<<" ++ after →
        includes Letter.unit pattern body = false := by
      rintro pattern after rfl
      by_contra there
      obtain ⟨before, middle, rest, rfl, same⟩ :=
        includes_iff.mp (Bool.not_eq_false _ ▸ there)
      obtain ⟨one, two, rfl, front, -⟩ := List.map_eq_append_iff.mp same
      refine bare (includes_iff.mpr ⟨before, one, two ++ rest, ?_, front⟩)
      simp only [List.append_assoc]
    exact ⟨absent _ (ascii "untrusted_content") (by decide),
      absent _ (ascii "/untrusted_content>>>") (by decide)⟩

def Untaken (text : Text) : Prop := ∀ letter ∈ text, letter.taken = false

instance (text : Text) : Decidable (Untaken text) :=
  inferInstanceAs (Decidable (∀ letter ∈ text, _))

/-- Every taken letter is in the body of an envelope: after the tag that opens it and
before the first marker that closes it. -/
inductive Contained : Text → Prop
  | untaken {text : Text} : Untaken text → Contained text
  | envelope {before opening attrs tagEnd body closing rest : Text} :
      Untaken before → opening.map (·.unit) = UNTRUSTED_CONTENT_OPEN_PREFIX →
        Untaken attrs → tagEnd.map (·.unit) = ascii ">>>" →
          includes Letter.unit UNTRUSTED_CONTENT_CLOSE body = false →
            closing.map (·.unit) = UNTRUSTED_CONTENT_CLOSE → Untaken opening →
              Untaken tagEnd → Untaken closing → Contained rest →
                Contained
                  (before ++ opening ++ attrs ++ tagEnd ++ body ++ closing ++ rest)

theorem untaken_append {first second : Text} :
    Untaken (first ++ second) ↔ Untaken first ∧ Untaken second := by
  simp only [Untaken, List.mem_append]
  constructor
  · exact fun all => ⟨fun letter here => all letter (.inl here),
      fun letter here => all letter (.inr here)⟩
  · rintro ⟨all, all'⟩ letter (here | here)
    · exact all letter here
    · exact all' letter here

theorem untaken_fresh (text : JsText) : Untaken (fresh text) := by
  intro letter there
  obtain ⟨unit, -, rfl⟩ := List.mem_map.mp there
  rfl

theorem untaken_literal (text : String) : Untaken (literal text) := untaken_fresh _

theorem Contained.untaken_of_unmarked (contained : Contained text)
    (unmarked : includes Letter.unit UNTRUSTED_CONTENT_OPEN_PREFIX text = false) :
    Untaken text := by
  cases contained with
  | untaken untaken => exact untaken
  | @envelope before opening attrs tagEnd body closing rest _ opens =>
    have there : includes Letter.unit UNTRUSTED_CONTENT_OPEN_PREFIX
        (before ++ opening ++ attrs ++ tagEnd ++ body ++ closing ++ rest) = true :=
      includes_iff.mpr ⟨before, opening, attrs ++ tagEnd ++ body ++ closing ++ rest,
        by simp only [List.append_assoc], opens⟩
    rw [there] at unmarked
    cases unmarked

/-- The tag and the end of the envelope `wrapUntrusted` puts around a body. -/
def openingTag (attrs : List (String × String)) : Text :=
  attrs.flatMap fun attr =>
    literal (" " ++ attr.1 ++ "=\"") ++ fresh (escapeQuotes (ascii attr.2)) ++ literal "\""

theorem untaken_openingTag (attrs : List (String × String)) : Untaken (openingTag attrs) := by
  intro letter there
  obtain ⟨attr, -, here⟩ := List.mem_flatMap.mp there
  exact (untaken_append.mpr ⟨untaken_append.mpr ⟨untaken_literal _, untaken_fresh _⟩,
    untaken_literal _⟩) letter here

theorem closing_absent {safe : Text}
    (absent : includes Letter.unit UNTRUSTED_CONTENT_CLOSE safe = false) :
    includes Letter.unit UNTRUSTED_CONTENT_CLOSE (literal "\n" ++ safe ++ literal "\n") =
      false := by
  have marker : UNTRUSTED_CONTENT_CLOSE = 0x3c :: ascii "<</untrusted_content>>>" := by
    decide
  have lineBreak : literal "\n" = [{ unit := 0x0a }] := by decide
  rw [marker] at absent ⊢
  rw [lineBreak, List.append_assoc, List.singleton_append]
  refine (includes_parted (by decide) [] _).trans ?_
  rw [includes_parted (by decide), absent]
  rfl

variable {before : Text}

theorem contained_wrapped {after : Text} (body : Text) (attrs : List (String × String))
    (untaken : Untaken before) (rest : Contained after) :
    Contained (before ++ wrapUntrusted body attrs ++ after) := by
  have safe := (neutralize_unmarked body).2
  have joined : before ++ wrapUntrusted body attrs ++ after =
      before ++ fresh UNTRUSTED_CONTENT_OPEN_PREFIX ++ openingTag attrs ++ literal ">>>" ++
        (literal "\n" ++ neutralizeEnvelopeMarkers body ++ literal "\n") ++
        fresh UNTRUSTED_CONTENT_CLOSE ++ after := by
    have tag : literal ">>>\n" = literal ">>>" ++ literal "\n" := by decide
    rw [wrapUntrusted, tag, openingTag]
    simp only [List.append_assoc]
  rw [joined]
  refine .envelope untaken ?_ (untaken_openingTag attrs) ?_ (closing_absent safe) ?_
    (untaken_fresh _) (untaken_literal _) (untaken_fresh _) rest
  · decide
  · decide
  · decide

theorem Contained.behind (untaken : Untaken before) (contained : Contained text) :
    Contained (before ++ text) := by
  cases contained with
  | untaken all => exact .untaken (untaken_append.mpr ⟨untaken, all⟩)
  | @envelope front opening attrs tagEnd body closing rest inFront opens inAttrs ends bare
      closes inOpening inEnd inClosing inRest =>
    have whole := Contained.envelope (untaken_append.mpr ⟨untaken, inFront⟩) opens inAttrs
      ends bare closes inOpening inEnd inClosing inRest
    simp only [List.append_assoc] at whole ⊢
    exact whole

theorem Contained.append {text' : Text} (contained : Contained text)
    (contained' : Contained text') : Contained (text ++ text') := by
  induction contained with
  | untaken all => exact contained'.behind all
  | envelope inFront opens inAttrs ends bare closes inOpening inEnd inClosing _ ih =>
    have whole := Contained.envelope inFront opens inAttrs ends bare closes inOpening inEnd
      inClosing ih
    simp only [List.append_assoc] at whole ⊢
    exact whole

theorem Contained.untaken_of_unclosed (contained : Contained text)
    (unclosed : includes Letter.unit UNTRUSTED_CONTENT_CLOSE text = false) :
    Untaken text := by
  cases contained with
  | untaken untaken => exact untaken
  | @envelope before opening attrs tagEnd body closing rest _ _ _ _ _ closes =>
    have there : includes Letter.unit UNTRUSTED_CONTENT_CLOSE
        (before ++ opening ++ attrs ++ tagEnd ++ body ++ closing ++ rest) = true :=
      includes_iff.mpr ⟨before ++ opening ++ attrs ++ tagEnd ++ body, closing, rest,
        rfl, closes⟩
    rw [there] at unclosed
    cases unclosed

theorem trim_wrapped (body : Text) (attrs : List (String × String)) :
    trim (wrapUntrusted body attrs) = wrapUntrusted body attrs := by
  have opening : fresh UNTRUSTED_CONTENT_OPEN_PREFIX =
      { unit := 0x3c } :: literal "<<untrusted_content" := by decide
  have closing : fresh UNTRUSTED_CONTENT_CLOSE =
      literal "<<</untrusted_content>>" ++ [{ unit := 0x3e }] := by decide
  rw [wrapUntrusted, opening, closing, ← List.append_assoc]
  simp only [List.cons_append]
  exact Js.trim_visible (by decide) (by decide)

end Graphorin.Memory
