import Graphorin.Js.Buffer
import Mathlib.Data.List.Forall2
import Mathlib.Data.List.Induction

namespace Graphorin.Js.JsonText

/-! The texts that `JSON.parse` reads: lexemes over code units, and the grammar of their
kinds. -/

abbrev Units := List UInt16

def isBlank (unit : UInt16) : Bool :=
  unit == 0x20 || unit == 0x09 || unit == 0x0a || unit == 0x0d

/-- Neither opens, closes nor escapes anything. -/
def isInert (unit : UInt16) : Bool := unit != 0x22 && unit != 0x5c

/-- A unit that a string holds as it stands. -/
structure Plain where
  unit : UInt16
  inert : isInert unit = true
  printed : 0x20 ≤ unit

structure Blank where
  unit : UInt16
  blank : isBlank unit = true

def escapeLetters : Units := [0x22, 0x5c, 0x2f, 0x62, 0x66, 0x6e, 0x72, 0x74, 0x75]

def isHexDigit (unit : UInt16) : Bool :=
  (0x30 ≤ unit && unit ≤ 0x39) || (0x41 ≤ unit && unit ≤ 0x46) ||
    (0x61 ≤ unit && unit ≤ 0x66)

/-- A backslash, a letter, and four digits after a `u`. -/
structure Escape where
  letter : UInt16
  known : letter ∈ escapeLetters
  digits : Units
  hex : digits.all isHexDigit = true
  four : digits.length = if letter = 0x75 then 4 else 0

inductive Piece
  | plain (unit : Plain)
  | escape (escape : Escape)

abbrev Digit := Fin 10

structure Digits where
  first : Digit
  rest : List Digit

structure Exponent where
  upper : Bool
  negative : Option Bool
  digits : Digits

/-- Of several digits the first is no zero. -/
structure Number where
  negative : Bool
  whole : Digits
  led : whole.first = 0 → whole.rest = []
  fraction : Option Digits
  exponent : Option Exponent

inductive Punct
  | openBrace
  | closeBrace
  | openBracket
  | closeBracket
  | colon
  | comma
  deriving DecidableEq

inductive Word
  | true
  | false
  | null
  deriving DecidableEq

inductive Lexeme
  | blank (blank : Blank)
  | punct (punct : Punct)
  | word (word : Word)
  | number (number : Number)
  | string (pieces : List Piece)

def Piece.text : Piece → Units
  | .plain held => [held.unit]
  | .escape held => 0x5c :: held.letter :: held.digits

def digitUnit (digit : Digit) : UInt16 := 0x30 + UInt16.ofNat digit.val

def Digits.text (digits : Digits) : Units :=
  digitUnit digits.first :: digits.rest.map digitUnit

def Exponent.text (exponent : Exponent) : Units :=
  (if exponent.upper then 0x45 else 0x65) ::
    ((exponent.negative.map fun negative => if negative then 0x2d else 0x2b).toList ++
      exponent.digits.text)

/-- A number after its sign. -/
def Number.body (number : Number) : Units :=
  number.whole.text ++ (number.fraction.elim [] fun digits => 0x2e :: digits.text) ++
    number.exponent.elim [] Exponent.text

def Number.sign (number : Number) : Units := if number.negative then [0x2d] else []

def Number.text (number : Number) : Units := number.sign ++ number.body

def Punct.unit : Punct → UInt16
  | .openBrace => 0x7b
  | .closeBrace => 0x7d
  | .openBracket => 0x5b
  | .closeBracket => 0x5d
  | .colon => 0x3a
  | .comma => 0x2c

def Word.text : Word → Units
  | .true => [0x74, 0x72, 0x75, 0x65]
  | .false => [0x66, 0x61, 0x6c, 0x73, 0x65]
  | .null => [0x6e, 0x75, 0x6c, 0x6c]

def Lexeme.text : Lexeme → Units
  | .blank space => [space.unit]
  | .punct mark => [mark.unit]
  | .word held => held.text
  | .number held => held.text
  | .string pieces => 0x22 :: (pieces.flatMap Piece.text ++ [0x22])

def textOf (lexemes : List Lexeme) : Units := lexemes.flatMap Lexeme.text

inductive Kind
  | punct (punct : Punct)
  | scalar
  | string
  deriving DecidableEq

def Lexeme.kind : Lexeme → Option Kind
  | .blank _ => none
  | .punct mark => some (.punct mark)
  | .word _ => some .scalar
  | .number _ => some .scalar
  | .string _ => some .string

inductive Phrase
  | value
  | elements
  | members
  deriving DecidableEq

inductive Parses : Phrase → List Kind → Prop
  | scalar : Parses .value [.scalar]
  | string : Parses .value [.string]
  | noItems : Parses .value [.punct .openBracket, .punct .closeBracket]
  | items {kinds : List Kind} : Parses .elements kinds →
      Parses .value (.punct .openBracket :: (kinds ++ [.punct .closeBracket]))
  | noFields : Parses .value [.punct .openBrace, .punct .closeBrace]
  | fields {kinds : List Kind} : Parses .members kinds →
      Parses .value (.punct .openBrace :: (kinds ++ [.punct .closeBrace]))
  | lastItem {kinds : List Kind} : Parses .value kinds → Parses .elements kinds
  | item {kinds others : List Kind} : Parses .value kinds → Parses .elements others →
      Parses .elements (kinds ++ .punct .comma :: others)
  | lastField {kinds : List Kind} : Parses .value kinds →
      Parses .members (.string :: .punct .colon :: kinds)
  | field {kinds others : List Kind} : Parses .value kinds → Parses .members others →
      Parses .members (.string :: .punct .colon :: (kinds ++ .punct .comma :: others))

/-- The lexemes of a document. -/
def Document (lexemes : List Lexeme) : Prop :=
  Parses .value (lexemes.filterMap Lexeme.kind)

def Opens (before : Option Kind) : Prop :=
  before ∈ [none, some (.punct .colon), some (.punct .comma), some (.punct .openBracket)]

def Closes (after : Option Kind) : Prop :=
  after ∈ [none, some (.punct .comma), some (.punct .closeBrace),
    some (.punct .closeBracket)]

def Flanked (before : Option Kind) : List Kind → Option Kind → Prop
  | [], _ => True
  | kind :: rest, after =>
    (kind = .scalar → Opens before ∧ Closes (rest.head?.or after)) ∧
      Flanked (some kind) rest after

theorem flanked_append {before after : Option Kind} (kinds others : List Kind) :
    Flanked before (kinds ++ others) after ↔
      Flanked before kinds (others.head?.or after) ∧
        Flanked (kinds.getLast?.or before) others after := by
  induction kinds generalizing before with
  | nil =>
    rw [List.nil_append, Flanked, true_and]
    rfl
  | cons kind rest ih =>
    have next : (rest ++ others).head?.or after = rest.head?.or (others.head?.or after) := by
      rw [List.head?_append, Option.or_assoc]
    have last : (kind :: rest).getLast?.or before = rest.getLast?.or (some kind) := by
      rw [List.getLast?_cons]
      cases rest.getLast? <;> rfl
    rw [List.cons_append, Flanked, Flanked, ih, next, last, and_assoc]

theorem opens_punct (named : mark ∈ [.colon, .comma, .openBracket]) :
    Opens (some (.punct mark)) := by
  simp only [List.mem_cons, List.not_mem_nil, or_false] at named
  obtain rfl | rfl | rfl := named <;> simp [Opens]

theorem closes_punct (named : mark ∈ [.comma, .closeBrace, .closeBracket]) :
    Closes (some (.punct mark)) := by
  simp only [List.mem_cons, List.not_mem_nil, or_false] at named
  obtain rfl | rfl | rfl := named <;> simp [Closes]

theorem Parses.flanked (parsed : Parses phrase kinds)
    (opens : phrase ≠ .members → Opens before) (closes : Closes after) :
    Flanked before kinds after := by
  induction parsed generalizing before after with
  | scalar => exact ⟨fun _ => ⟨opens nofun, closes⟩, trivial⟩
  | string => exact ⟨nofun, trivial⟩
  | noItems => exact ⟨nofun, nofun, trivial⟩
  | noFields => exact ⟨nofun, nofun, trivial⟩
  | items _ ih =>
    exact ⟨nofun, (flanked_append _ _).mpr ⟨ih (fun _ => opens_punct (by decide))
      (closes_punct (by decide)), nofun, trivial⟩⟩
  | fields _ ih =>
    exact ⟨nofun, (flanked_append _ _).mpr ⟨ih nofun (closes_punct (by decide)),
      nofun, trivial⟩⟩
  | lastItem _ ih => exact ih (fun _ => opens nofun) closes
  | item _ _ valueIh othersIh =>
    exact (flanked_append _ _).mpr ⟨valueIh (fun _ => opens nofun)
      (closes_punct (by decide)), nofun,
      othersIh (fun _ => opens_punct (by decide)) closes⟩
  | lastField _ ih => exact ⟨nofun, nofun, ih (fun _ => opens_punct (by decide)) closes⟩
  | field _ _ valueIh othersIh =>
    exact ⟨nofun, nofun, (flanked_append _ _).mpr
      ⟨valueIh (fun _ => opens_punct (by decide)) (closes_punct (by decide)), nofun,
        othersIh nofun closes⟩⟩

def Loosens (kind other : Kind) : Prop := other = kind ∨ kind = .scalar ∧ other = .string

theorem Loosens.punct (loosens : Loosens (.punct mark) other) :
    other = .punct mark := by
  obtain rfl | ⟨scalar, -⟩ := loosens
  · rfl
  · cases scalar

theorem Loosens.string (loosens : Loosens .string other) : other = .string := by
  obtain rfl | ⟨-, rfl⟩ := loosens <;> rfl

theorem loosened_append (loosens : List.Forall₂ Loosens (kinds ++ others) loosened) :
    ∃ first second, loosened = first ++ second ∧ List.Forall₂ Loosens kinds first ∧
      List.Forall₂ Loosens others second :=
  ⟨loosened.take kinds.length, loosened.drop kinds.length, (List.take_append_drop _ _).symm,
    by simpa using List.forall₂_take kinds.length loosens,
    by simpa using List.forall₂_drop kinds.length loosens⟩

theorem loosened_punct (loosens : List.Forall₂ Loosens (.punct mark :: rest) loosened) :
    ∃ others, loosened = .punct mark :: others ∧ List.Forall₂ Loosens rest others := by
  obtain ⟨kind, others, head, tail, rfl⟩ := List.forall₂_cons_left_iff.mp loosens
  exact ⟨others, by rw [head.punct], tail⟩

theorem loosened_string (loosens : List.Forall₂ Loosens (.string :: rest) loosened) :
    ∃ others, loosened = .string :: others ∧ List.Forall₂ Loosens rest others := by
  obtain ⟨kind, others, head, tail, rfl⟩ := List.forall₂_cons_left_iff.mp loosens
  exact ⟨others, by rw [head.string], tail⟩

theorem Parses.loosened {phrase : Phrase} {kinds loosened : List Kind}
    (parsed : Parses phrase kinds) (loosens : List.Forall₂ Loosens kinds loosened) :
    Parses phrase loosened := by
  induction parsed generalizing loosened with
  | scalar =>
    obtain ⟨kind, others, head, tail, rfl⟩ := List.forall₂_cons_left_iff.mp loosens
    obtain rfl := List.forall₂_nil_left_iff.mp tail
    obtain rfl | ⟨-, rfl⟩ := head
    · exact .scalar
    · exact .string
  | string =>
    obtain ⟨others, rfl, tail⟩ := loosened_string loosens
    obtain rfl := List.forall₂_nil_left_iff.mp tail
    exact .string
  | noItems =>
    obtain ⟨others, rfl, last⟩ := loosened_punct loosens
    obtain ⟨rest, rfl, tail⟩ := loosened_punct last
    obtain rfl := List.forall₂_nil_left_iff.mp tail
    exact .noItems
  | noFields =>
    obtain ⟨others, rfl, last⟩ := loosened_punct loosens
    obtain ⟨rest, rfl, tail⟩ := loosened_punct last
    obtain rfl := List.forall₂_nil_left_iff.mp tail
    exact .noFields
  | items _ ih =>
    obtain ⟨others, rfl, inside⟩ := loosened_punct loosens
    obtain ⟨inner, last, rfl, held, closing⟩ := loosened_append inside
    obtain ⟨rest, rfl, tail⟩ := loosened_punct closing
    obtain rfl := List.forall₂_nil_left_iff.mp tail
    exact .items (ih held)
  | fields _ ih =>
    obtain ⟨others, rfl, inside⟩ := loosened_punct loosens
    obtain ⟨inner, last, rfl, held, closing⟩ := loosened_append inside
    obtain ⟨rest, rfl, tail⟩ := loosened_punct closing
    obtain rfl := List.forall₂_nil_left_iff.mp tail
    exact .fields (ih held)
  | lastItem _ ih => exact .lastItem (ih loosens)
  | item _ _ valueIh othersIh =>
    obtain ⟨value, rest, rfl, held, marked⟩ := loosened_append loosens
    obtain ⟨others, rfl, tail⟩ := loosened_punct marked
    exact .item (valueIh held) (othersIh tail)
  | lastField _ ih =>
    obtain ⟨others, rfl, marked⟩ := loosened_string loosens
    obtain ⟨value, rfl, tail⟩ := loosened_punct marked
    exact .lastField (ih tail)
  | field _ _ valueIh othersIh =>
    obtain ⟨others, rfl, marked⟩ := loosened_string loosens
    obtain ⟨body, rfl, inside⟩ := loosened_punct marked
    obtain ⟨value, rest, rfl, held, parted⟩ := loosened_append inside
    obtain ⟨fields, rfl, tail⟩ := loosened_punct parted
    exact .field (valueIh held) (othersIh tail)

inductive Reads : Units → Nat → Prop
  | nil : Reads [] 0
  | inert {unit : UInt16} {text : Units} {quotes : Nat} : isInert unit = true →
      Reads text quotes → Reads (unit :: text) quotes
  | quote {text : Units} {quotes : Nat} : Reads text quotes →
      Reads (0x22 :: text) (quotes + 1)
  | escape {letter : UInt16} {text : Units} {quotes : Nat} : letter ∈ escapeLetters →
      Reads text quotes → Reads (0x5c :: letter :: text) quotes

theorem reads_inert (inert : ∀ unit ∈ text, isInert unit = true) :
    Reads text 0 := by
  induction text with
  | nil => exact .nil
  | cons unit _ ih =>
    exact .inert (inert unit List.mem_cons_self)
      (ih fun other held => inert other (List.mem_cons_of_mem _ held))

theorem Reads.append (start : Reads first left) (rest : Reads second right) :
    Reads (first ++ second) (left + right) := by
  induction start with
  | nil => rwa [Nat.zero_add]
  | inert inert _ ih => exact .inert inert ih
  | quote _ ih =>
    rw [Nat.add_right_comm]
    exact .quote ih
  | escape known _ ih => exact .escape known ih

theorem Reads.of_inert (inert : isInert unit = true) (read : Reads (unit :: text) quotes) :
    Reads text quotes := by
  cases read with
  | inert _ read => exact read
  | quote => cases inert
  | escape => cases inert

theorem Reads.of_quote (read : Reads (0x22 :: text) quotes) :
    ∃ rest, Reads text rest ∧ quotes = rest + 1 := by
  cases read with
  | inert inert => cases inert
  | quote read => exact ⟨_, read, rfl⟩

theorem Reads.of_escape (read : Reads (0x5c :: letter :: text) quotes) :
    Reads text quotes := by
  cases read with
  | inert inert => cases inert
  | escape _ read => exact read

theorem Reads.rest (start : Reads first left) (whole : Reads (first ++ second) quotes) :
    ∃ right, Reads second right ∧ quotes = left + right := by
  induction start generalizing quotes with
  | nil => exact ⟨quotes, whole, (Nat.zero_add _).symm⟩
  | inert inert _ ih => exact ih (whole.of_inert inert)
  | quote _ ih =>
    obtain ⟨others, behind, rfl⟩ := whole.of_quote
    obtain ⟨right, read, rfl⟩ := ih behind
    exact ⟨right, read, Nat.add_right_comm _ _ _⟩
  | escape _ _ ih => exact ih whole.of_escape

theorem Reads.unique (one : Reads text left) (other : Reads text right) : right = left := by
  have whole : Reads (text ++ []) right := by rwa [List.append_nil]
  obtain ⟨none, read, rfl⟩ := one.rest whole
  cases read
  rfl

/-- Neither a quote nor a part of an escape. -/
def isSilent (unit : UInt16) : Bool := isInert unit && !escapeLetters.contains unit

theorem isSilent_iff {unit : UInt16} :
    isSilent unit = true ↔ isInert unit = true ∧ unit ∉ escapeLetters := by
  simp [isSilent]

theorem Reads.cut (silent : ∀ unit ∈ second, isSilent unit = true)
    (whole : Reads (first ++ second) quotes) : Reads first quotes := by
  have bare {quotes : Nat} (read : Reads second quotes) : Reads [] quotes := by
    rw [(reads_inert fun unit held => (isSilent_iff.mp (silent unit held)).1).unique read]
    exact .nil
  generalize split : first ++ second = text at whole
  induction whole generalizing first with
  | nil =>
    obtain ⟨rfl, -⟩ := List.append_eq_nil_iff.mp split
    exact .nil
  | inert inert read ih =>
    cases first with
    | nil =>
      obtain rfl : second = _ := split
      exact bare (.inert inert read)
    | cons =>
      cases split
      exact .inert inert (ih rfl)
  | quote read ih =>
    cases first with
    | nil =>
      obtain rfl : second = _ := split
      exact bare (.quote read)
    | cons =>
      cases split
      exact .quote (ih rfl)
  | escape known read ih =>
    match first with
    | [] =>
      obtain rfl : second = _ := split
      exact bare (.escape known read)
    | [unit] =>
      cases split
      exact absurd known (isSilent_iff.mp (silent _ List.mem_cons_self)).2
    | unit :: letter :: first =>
      cases split
      exact .escape known (ih rfl)

theorem digitUnit_range (digit : Digit) :
    isInert (digitUnit digit) = true ∧ 0x20 ≤ digitUnit digit := by
  revert digit
  decide

theorem Digits.range (digits : Digits) (held : unit ∈ digits.text) :
    isInert unit = true ∧ 0x20 ≤ unit := by
  obtain rfl | held := List.mem_cons.mp held
  · exact digitUnit_range _
  · obtain ⟨digit, -, rfl⟩ := List.mem_map.mp held
    exact digitUnit_range digit

theorem Exponent.range (exponent : Exponent) (held : unit ∈ exponent.text) :
    isInert unit = true ∧ 0x20 ≤ unit := by
  obtain rfl | held := List.mem_cons.mp held
  · cases exponent.upper <;> decide
  · obtain signed | held := List.mem_append.mp held
    · obtain ⟨negative, -, rfl⟩ := Option.map_eq_some_iff.mp (Option.mem_toList.mp signed)
      cases negative <;> decide
    · exact exponent.digits.range held

theorem Number.range (number : Number) (held : unit ∈ number.body) :
    isInert unit = true ∧ 0x20 ≤ unit := by
  obtain held | held := List.mem_append.mp held
  · obtain held | held := List.mem_append.mp held
    · exact number.whole.range held
    · cases fraction : number.fraction with
      | none =>
        rw [fraction] at held
        cases held
      | some digits =>
        rw [fraction] at held
        obtain rfl | held := List.mem_cons.mp held
        · decide
        · exact digits.range held
  · cases exponent : number.exponent with
    | none =>
      rw [exponent] at held
      cases held
    | some exponent' =>
      rw [exponent] at held
      exact exponent'.range held

theorem Number.sign_range (number : Number) (held : unit ∈ number.sign) :
    isInert unit = true ∧ 0x20 ≤ unit := by
  rw [Number.sign] at held
  split at held
  · obtain rfl := List.mem_singleton.mp held
    decide
  · cases held

theorem isBlank_silent (blank : isBlank unit = true) : isSilent unit = true := by
  simp only [isBlank, Bool.or_eq_true, beq_iff_eq] at blank
  obtain ((rfl | rfl) | rfl) | rfl := blank <;> decide

theorem isBlank_inert (blank : isBlank unit = true) : isInert unit = true :=
  (isSilent_iff.mp (isBlank_silent blank)).1

theorem isHexDigit_range (hex : isHexDigit unit = true) :
    isInert unit = true ∧ 0x20 ≤ unit := by
  simp only [isHexDigit, isInert, Bool.or_eq_true, Bool.and_eq_true, decide_eq_true_eq,
    UInt16.le_iff_toNat_le, bne_iff_ne, ne_eq, ← UInt16.toNat_inj, UInt16.reduceToNat] at hex ⊢
  omega

theorem escapeLetter_printed (known : letter ∈ escapeLetters) : 0x20 ≤ letter :=
  each_of_all (by decide) letter known

theorem Piece.printed (piece : Piece) (held : unit ∈ piece.text) : 0x20 ≤ unit := by
  cases piece with
  | plain plain =>
    obtain rfl := List.mem_singleton.mp held
    exact plain.printed
  | escape escape =>
    obtain rfl | held := List.mem_cons.mp held
    · decide
    · obtain rfl | held := List.mem_cons.mp held
      · exact escapeLetter_printed escape.known
      · exact (isHexDigit_range (List.all_eq_true.mp escape.hex _ held)).2

theorem Piece.reads (piece : Piece) : Reads piece.text 0 := by
  cases piece with
  | plain plain => exact .inert plain.inert .nil
  | escape escape =>
    exact .escape escape.known (reads_inert fun unit held =>
      (isHexDigit_range (List.all_eq_true.mp escape.hex _ held)).1)

theorem pieces_read (pieces : List Piece) : Reads (pieces.flatMap Piece.text) 0 := by
  induction pieces with
  | nil => exact .nil
  | cons piece _ ih => exact piece.reads.append ih

def Lexeme.quotes : Lexeme → Nat
  | .string _ => 2
  | _ => 0

theorem Lexeme.reads (lexeme : Lexeme) : Reads lexeme.text lexeme.quotes := by
  cases lexeme with
  | blank space => exact .inert (isBlank_inert space.blank) .nil
  | punct mark => cases mark <;> exact .inert rfl .nil
  | word word => cases word <;> exact reads_inert (each_of_all (by decide))
  | number number =>
    exact reads_inert fun unit held =>
      (List.mem_append.mp held).elim (fun sign => (number.sign_range sign).1)
        fun body => (number.range body).1
  | string pieces => exact .quote ((pieces_read pieces).append (.quote .nil))

theorem textOf_reads (lexemes : List Lexeme) :
    Reads (textOf lexemes) (lexemes.map Lexeme.quotes).sum := by
  induction lexemes with
  | nil => exact .nil
  | cons lexeme _ ih => exact lexeme.reads.append ih

theorem Lexeme.printed (lexeme : Lexeme) :
    (∃ space, lexeme = .blank space) ∨ ∀ unit ∈ lexeme.text, 0x20 ≤ unit := by
  cases lexeme with
  | blank space => exact .inl ⟨space, rfl⟩
  | punct mark => exact .inr (by cases mark <;> exact each_of_all (by decide))
  | word word => exact .inr (by cases word <;> exact each_of_all (by decide))
  | number number =>
    exact .inr fun unit held =>
      (List.mem_append.mp held).elim (fun sign => (number.sign_range sign).2)
        fun body => (number.range body).2
  | string =>
    refine .inr fun unit held => ?_
    obtain rfl | held := List.mem_cons.mp held
    · decide
    · obtain held | held := List.mem_append.mp held
      · obtain ⟨piece, -, held⟩ := List.mem_flatMap.mp held
        exact piece.printed held
      · obtain rfl := List.mem_singleton.mp held
        decide

theorem Lexeme.quotes_even (lexeme : Lexeme) : lexeme.quotes % 2 = 0 := by
  cases lexeme <;> simp [Lexeme.quotes]

variable {lexemes : List Lexeme}

/-- A control unit stands outside every string. -/
theorem control_outside {front back : Units} {control : UInt16} {quotes : Nat}
    (split : textOf lexemes = front ++ control :: back) (low : control < 0x20)
    (read : Reads front quotes) : quotes % 2 = 0 := by
  induction lexemes generalizing front quotes with
  | nil => simp [textOf] at split
  | cons lexeme _ ih =>
    rw [textOf, List.flatMap_cons] at split
    obtain ⟨inner, rfl, following⟩ | ⟨inner, cut, following⟩ :=
      List.append_eq_append_iff.mp split
    · obtain ⟨others, read, rfl⟩ := lexeme.reads.rest read
      have even := lexeme.quotes_even
      have := ih following ‹Reads inner others›
      omega
    · match inner, following with
      | [], following =>
        rw [List.append_nil] at cut
        subst cut
        rw [lexeme.reads.unique read]
        exact lexeme.quotes_even
      | unit :: inner, following =>
        cases following
        obtain ⟨space, rfl⟩ | printed := lexeme.printed
        · obtain rfl : front = [] := by
            have length := congrArg List.length cut
            simp only [Lexeme.text, List.length_append, List.length_cons,
              List.length_nil] at length
            exact List.length_eq_zero_iff.mp (by omega)
          cases read
          rfl
        · have held := printed control (by rw [cut]; simp)
          exact absurd low (UInt16.not_lt.mpr held)

def Kind.unit? : Kind → Option UInt16
  | .punct mark => some mark.unit
  | _ => none

theorem Punct.unit_solid (mark : Punct) : isBlank mark.unit = false := by
  cases mark <;> rfl

theorem Blank.dropped (space : Blank) (text : Units) :
    (space.unit :: text).dropWhile isBlank = text.dropWhile isBlank :=
  List.dropWhile_cons_of_pos space.blank

theorem Punct.stays (mark : Punct) (text : Units) :
    (mark.unit :: text).dropWhile isBlank = mark.unit :: text :=
  List.dropWhile_cons_of_neg (by rw [mark.unit_solid]; exact Bool.false_ne_true)

theorem Opens.punct (opens : Opens (some kind)) : ∃ mark, kind = .punct mark := by
  simp only [Opens, List.mem_cons, reduceCtorEq, Option.some.injEq, List.not_mem_nil, or_false,
    false_or] at opens
  obtain rfl | rfl | rfl := opens <;> exact ⟨_, rfl⟩

theorem Closes.punct (closes : Closes (some kind)) :
    ∃ mark, kind = .punct mark := by
  simp only [Closes, List.mem_cons, reduceCtorEq, Option.some.injEq, List.not_mem_nil, or_false,
    false_or] at closes
  obtain rfl | rfl | rfl := closes <;> exact ⟨_, rfl⟩

theorem kind_punct {lexeme : Lexeme} {mark : Punct} (kind : lexeme.kind = some (.punct mark)) :
    lexeme = .punct mark := by
  cases lexeme with
  | punct =>
    cases kind
    rfl
  | _ => cases kind

theorem unit_after (closes : Closes (lexemes.filterMap Lexeme.kind).head?) :
    ((textOf lexemes).dropWhile isBlank).head? =
      (lexemes.filterMap Lexeme.kind).head?.bind Kind.unit? := by
  induction lexemes with
  | nil => rfl
  | cons lexeme _ ih =>
    cases kind : lexeme.kind with
    | none =>
      cases lexeme with
      | blank space =>
        rw [List.filterMap_cons_none rfl] at closes ⊢
        rw [← ih closes]
        exact congrArg List.head? (space.dropped _)
      | _ => cases kind
    | some =>
      rw [List.filterMap_cons_some kind] at closes ⊢
      obtain ⟨mark, rfl⟩ := closes.punct
      obtain rfl := kind_punct kind
      exact congrArg List.head? (mark.stays _)

theorem unit_before (opens : Opens (lexemes.filterMap Lexeme.kind).getLast?) :
    ((textOf lexemes).reverse.dropWhile isBlank).head? =
      (lexemes.filterMap Lexeme.kind).getLast?.bind Kind.unit? := by
  induction lexemes using List.reverseRec with
  | nil => rfl
  | append_singleton front lexeme ih =>
    have text : (textOf (front ++ [lexeme])).reverse =
        lexeme.text.reverse ++ (textOf front).reverse := by
      simp [textOf, List.flatMap_append]
    rw [text]
    rw [List.filterMap_append] at opens ⊢
    cases kind : lexeme.kind with
    | none =>
      cases lexeme with
      | blank space =>
        rw [List.filterMap_cons_none rfl, List.filterMap_nil, List.append_nil] at opens ⊢
        rw [← ih opens]
        exact congrArg List.head? (space.dropped _)
      | _ => cases kind
    | some =>
      rw [List.filterMap_cons_some kind, List.filterMap_nil, List.getLast?_concat] at opens ⊢
      obtain ⟨mark, rfl⟩ := opens.punct
      obtain rfl := kind_punct kind
      exact congrArg List.head? (mark.stays _)

theorem Document.beside (document : Document (front ++ lexeme :: back))
    (scalar : lexeme.kind = some .scalar) :
    Opens (front.filterMap Lexeme.kind).getLast? ∧
      Closes (back.filterMap Lexeme.kind).head? := by
  rw [Document, List.filterMap_append, List.filterMap_cons_some scalar] at document
  have flanked : Flanked none _ none :=
    document.flanked (fun _ => by simp [Opens]) (by simp [Closes])
  have held := ((flanked_append _ _).mp flanked).2.1 rfl
  rwa [Option.or_none, Option.or_none] at held

end Graphorin.Js.JsonText
