import Graphorin.Audit.Canonical

namespace Graphorin.Audit

open Graphorin.Js

/-! A canonical text belongs to one value only. -/

def hexDigit? (unit : UInt16) : Option Nat :=
  Bytes.hexValue? (Char.ofNat unit.toNat)

def unescape? (unit : UInt16) : Option UInt16 :=
  if unit = 0x22 then some 0x22
  else if unit = 0x5c then some 0x5c
  else if unit = 0x62 then some 0x08
  else if unit = 0x66 then some 0x0c
  else if unit = 0x6e then some 0x0a
  else if unit = 0x72 then some 0x0d
  else if unit = 0x74 then some 0x09
  else none

def unquote : JsText → Option (JsText × JsText)
  | [] => none
  | unit :: rest =>
    if unit = 0x22 then some ([], rest)
    else if unit = 0x5c then
      match rest with
      | [] => none
      | escape :: more =>
        if escape = 0x75 then
          match more with
          | first :: second :: third :: fourth :: others => do
              let first ← hexDigit? first
              let second ← hexDigit? second
              let third ← hexDigit? third
              let fourth ← hexDigit? fourth
              let (text, after) ← unquote others
              pure (UInt16.ofNat (((first * 16 + second) * 16 + third) * 16 +
                fourth) :: text, after)
          | _ => none
        else do
          let unit ← unescape? escape
          let (text, after) ← unquote more
          pure (unit :: text, after)
    else do
      let (text, after) ← unquote rest
      pure (unit :: text, after)

def putBack (unit : UInt16) (read : Option (JsText × JsText)) :
    Option (JsText × JsText) :=
  read.map fun found => (unit :: found.1, found.2)

theorem unquote_end (rest : JsText) : unquote (0x22 :: rest) = some ([], rest) := by
  rw [unquote.eq_def]
  rfl

variable {unit : UInt16}

theorem unquote_raw (rest : JsText) (open' : unit ≠ 0x22) (plain : unit ≠ 0x5c) :
    unquote (unit :: rest) = putBack unit (unquote rest) := by
  rw [unquote.eq_def]
  simp only [if_neg open', if_neg plain]
  cases unquote rest <;> rfl

theorem unquote_short (rest : JsText) (short : escape ≠ 0x75)
    (means : unescape? escape = some unit) :
    unquote (0x5c :: escape :: rest) = putBack unit (unquote rest) := by
  rw [unquote.eq_def]
  simp only [if_neg short, means, show ((0x5c : UInt16) = 0x22) = False by decide,
    if_false, if_true]
  cases unquote rest <;> rfl

theorem hexDigit?_digit (small : digit < 16) :
    hexDigit? (UInt16.ofNat (Nat.digitChar digit).toNat) = some digit := by
  have each : ∀ digit ∈ List.range 16,
      hexDigit? (UInt16.ofNat (Nat.digitChar digit).toNat) = some digit := by decide
  exact each digit (List.mem_range.mpr small)

theorem unquote_hex (unit : UInt16) (rest : JsText) :
    unquote (0x5c :: 0x75 :: (hexUnit unit ++ rest)) =
      putBack unit (unquote rest) := by
  have bound := unit.toNat_lt
  rw [unquote.eq_def]
  simp only [hexUnit, List.map_cons, List.map_nil, List.cons_append,
    List.nil_append, show ((0x5c : UInt16) = 0x22) = False by decide, if_false,
    if_true, hexDigit?_digit (show unit.toNat / 4096 < 16 by omega),
    hexDigit?_digit (show unit.toNat / 256 % 16 < 16 by omega),
    hexDigit?_digit (show unit.toNat / 16 % 16 < 16 by omega),
    hexDigit?_digit (show unit.toNat % 16 < 16 by omega)]
  have value : ((unit.toNat / 4096 * 16 + unit.toNat / 256 % 16) * 16 +
      unit.toNat / 16 % 16) * 16 + unit.toNat % 16 = unit.toNat := by omega
  simp only [bind, Option.bind, value, UInt16.ofNat_toNat]
  cases unquote rest <;> rfl

theorem unquote_quoteUnit (unit : UInt16) (rest : JsText) :
    unquote (quoteUnit unit ++ rest) = putBack unit (unquote rest) := by
  unfold quoteUnit
  -- the seven characters with an escape of their own
  iterate 7
    split
    · rename_i special
      exact special ▸ unquote_short rest (by decide) (by decide)
  split
  · exact unquote_hex unit rest
  · exact unquote_raw rest (by assumption) (by assumption)

theorem surrogate_plain
    (surrogate : isHighSurrogate unit = true ∨ isLowSurrogate unit = true) :
    unit ≠ 0x22 ∧ unit ≠ 0x5c := by
  constructor
  · rintro rfl
    revert surrogate
    decide
  · rintro rfl
    revert surrogate
    decide

theorem unquote_quoteUnits (text rest : JsText) :
    unquote (quoteUnits text ++ 0x22 :: rest) = some (text, rest) := by
  fun_induction quoteUnits text with
  | case1 => exact unquote_end rest
  | case2 unit low others paired ih =>
    simp only [Bool.and_eq_true] at paired
    obtain ⟨open', plain⟩ := surrogate_plain (.inl paired.1)
    obtain ⟨open'', plain'⟩ := surrogate_plain (.inr paired.2)
    rw [List.cons_append, List.cons_append, unquote_raw _ open' plain,
      unquote_raw _ open'' plain', ih]
    rfl
  | case3 unit low others single ih =>
    rw [List.append_assoc, unquote_quoteUnit, ih]
    rfl
  | case4 =>
    rw [unquote_quoteUnit, unquote_end]
    rfl

theorem quote_cancel (same : quote text ++ rest = quote other ++ rest') :
    text = other ∧ rest = rest' := by
  have inner : quoteUnits text ++ 0x22 :: rest =
      quoteUnits other ++ 0x22 :: rest' := by
    simpa [quote, ascii] using same
  have read := congrArg unquote inner
  rw [unquote_quoteUnits, unquote_quoteUnits] at read
  exact Prod.mk.inj (Option.some.inj read)

section Value

variable (js : Runtime)

mutual
def Json.text : Json → JsText
  | .null => ascii "null"
  | .bool value => ascii (if value then "true" else "false")
  | .num value => js.numberText value
  | .str text => quote text
  | .arr items => ascii "[" ++ joinWith (Json.texts items) ++ ascii "]"
  | .obj fields => ascii "\x7b" ++ joinWith (Json.fieldTexts fields) ++ ascii "\x7d"

def Json.texts : List Json → List JsText
  | [] => []
  | item :: rest => item.text :: Json.texts rest

def Json.fieldTexts : List (JsText × Json) → List JsText
  | [] => []
  | (key, value) :: rest => entryText (key, value.text) :: Json.fieldTexts rest
end

def isNumeric (unit : UInt16) : Bool :=
  (0x30 ≤ unit && unit ≤ 0x39) || unit == 0x2b || unit == 0x2d || unit == 0x2e ||
    unit == 0x65

/-- How `String(number)` prints finite numbers. -/
structure NumberTexts : Prop where
  injective : ∀ {first second : Rat},
    js.numberText first = js.numberText second → first = second
  nonempty : ∀ value, js.numberText value ≠ []
  numeric : ∀ value, ∀ unit ∈ js.numberText value, isNumeric unit = true

def Delimited : JsText → Prop
  | [] => True
  | unit :: _ => unit = 0x2c ∨ unit = 0x5d ∨ unit = 0x7d

variable {unit : UInt16} {rest : JsText}

theorem Delimited.not_numeric (delimited : Delimited (unit :: rest)) :
    isNumeric unit = false := by
  rcases delimited with rfl | rfl | rfl
  · decide
  · decide
  · decide

variable {rest' : JsText}

theorem append_numeric (numeric : ∀ unit ∈ first, isNumeric unit = true)
    (numeric' : ∀ unit ∈ second, isNumeric unit = true) (ends : Delimited rest)
    (ends' : Delimited rest') (same : first ++ rest = second ++ rest') :
    first = second ∧ rest = rest' := by
  have cut : ∀ {text after : JsText}, (∀ unit ∈ text, isNumeric unit = true) →
      Delimited after → (text ++ after).takeWhile isNumeric = text := by
    intro text after numeric ends
    rw [List.takeWhile_append_of_pos numeric]
    cases after with
    | nil => simp
    | cons => simp [ends.not_numeric]
  have whole : first = second := by
    rw [← cut numeric ends, same, cut numeric' ends']
  subst whole
  exact ⟨rfl, List.append_cancel_left same⟩

inductive Kind
  | null
  | bool
  | num
  | str
  | arr
  | obj
deriving DecidableEq

def kindOf (unit : UInt16) : Option Kind :=
  if unit = 0x6e then some .null
  else if unit = 0x74 ∨ unit = 0x66 then some .bool
  else if unit = 0x22 then some .str
  else if unit = 0x5b then some .arr
  else if unit = 0x7b then some .obj
  else if isNumeric unit then some .num
  else none

def Json.kind : Json → Kind
  | .null => .null
  | .bool _ => .bool
  | .num _ => .num
  | .str _ => .str
  | .arr _ => .arr
  | .obj _ => .obj

theorem kindOf_numeric (numeric : isNumeric unit = true) :
    kindOf unit = some .num := by
  have apart : ∀ other : UInt16, isNumeric other = false → unit ≠ other := by
    rintro other plain rfl
    rw [numeric] at plain
    cases plain
  unfold kindOf
  rw [if_neg (apart _ (by decide)), if_neg, if_neg (apart _ (by decide)),
    if_neg (apart _ (by decide)), if_neg (apart _ (by decide)), if_pos numeric]
  rintro (same | same)
  · exact apart _ (by decide) same
  · exact apart _ (by decide) same

variable {js}

theorem text_head (numbers : NumberTexts js) (value : Json) :
    ∃ unit rest, value.text js = unit :: rest ∧ kindOf unit = some value.kind := by
  cases value with
  | null => exact ⟨_, _, rfl, by decide⟩
  | bool value => cases value <;> exact ⟨_, _, rfl, by decide⟩
  | num value =>
    obtain ⟨unit, rest, printed⟩ :=
      List.exists_cons_of_ne_nil (numbers.nonempty value)
    refine ⟨unit, rest, printed, kindOf_numeric ?_⟩
    exact numbers.numeric value unit (printed ▸ List.mem_cons_self)
  | str => exact ⟨0x22, _, rfl, show kindOf 0x22 = some .str by decide⟩
  | arr => exact ⟨0x5b, _, rfl, show kindOf 0x5b = some .arr by decide⟩
  | obj => exact ⟨0x7b, _, rfl, show kindOf 0x7b = some .obj by decide⟩

variable {value : Json}

theorem kind_eq (numbers : NumberTexts js) {other : Json}
    (same : value.text js ++ rest = other.text js ++ rest') :
    value.kind = other.kind := by
  obtain ⟨unit, after, starts, kind⟩ := text_head numbers value
  obtain ⟨unit', after', starts', kind'⟩ := text_head numbers other
  rw [starts, starts', List.cons_append, List.cons_append] at same
  rw [(List.cons.inj same).1, kind'] at kind
  exact (Option.some.inj kind).symm

theorem text_not_closing (numbers : NumberTexts js) (closing : kindOf unit = none)
    (same : value.text js ++ rest = unit :: rest') : False := by
  obtain ⟨first, after, starts, kind⟩ := text_head numbers value
  rw [starts, List.cons_append] at same
  rw [(List.cons.inj same).1, closing] at kind
  cases kind

theorem joinWith_cons (first : JsText) (rest : List JsText) :
    joinWith (first :: rest) = first ++ rest.flatMap (ascii "," ++ ·) := by
  induction rest generalizing first with
  | nil => simp [joinWith]
  | cons second rest ih =>
    rw [joinWith, ih]
    · simp
    · simp

theorem delimited_tail (texts : List JsText) (closing : unit = 0x5d ∨ unit = 0x7d) :
    Delimited (texts.flatMap (ascii "," ++ ·) ++ unit :: rest) := by
  cases texts with
  | nil => exact .inr closing
  | cons => exact .inl rfl

theorem comma_closing (closing : unit = 0x5d ∨ unit = 0x7d)
    (same : unit :: rest = (text :: texts).flatMap (ascii "," ++ ·) ++ rest') : False := by
  have first : unit = 0x2c := (List.cons.inj same).1
  rcases closing with rfl | rfl
  · exact absurd first (by decide)
  · exact absurd first (by decide)

/-- Lists of texts are told apart if the texts are. -/
theorem tail_cancel {α : Type} {textOf : α → JsText} (closing : unit = 0x5d ∨ unit = 0x7d) :
    ∀ {items others : List α} {rest rest' : JsText},
    (∀ item ∈ items, ∀ other {rest rest'}, Delimited rest → Delimited rest' →
      textOf item ++ rest = textOf other ++ rest' → item = other ∧ rest = rest') →
    (items.map textOf).flatMap (ascii "," ++ ·) ++ unit :: rest =
      (others.map textOf).flatMap (ascii "," ++ ·) ++ unit :: rest' →
    items = others ∧ rest = rest'
  | [], [], rest, rest', _, same => ⟨rfl, (List.cons.inj same).2⟩
  | [], other :: others, rest, rest', _, same => (comma_closing closing same).elim
  | item :: items, [], rest, rest', _, same =>
    (comma_closing closing same.symm).elim
  | item :: items, other :: others, rest, rest', each, same => by
      rw [List.map_cons, List.map_cons, List.flatMap_cons,
        List.flatMap_cons] at same
      simp only [List.append_assoc] at same
      obtain ⟨first, after⟩ := each item List.mem_cons_self other
        (delimited_tail _ closing) (delimited_tail _ closing)
        (List.append_cancel_left same)
      obtain ⟨others', after'⟩ := tail_cancel closing
        (fun later member => each later (List.mem_cons_of_mem _ member)) after
      exact ⟨by rw [first, others'], after'⟩

theorem list_cancel {α : Type} {textOf : α → JsText} {unit : UInt16}
    (closing : unit = 0x5d ∨ unit = 0x7d)
    (opens : ∀ item rest rest', textOf item ++ rest = unit :: rest' → False)
    {items others : List α} {rest rest' : JsText}
    (each : ∀ item ∈ items, ∀ other {rest rest'}, Delimited rest →
      Delimited rest' → textOf item ++ rest = textOf other ++ rest' →
      item = other ∧ rest = rest')
    (same : joinWith (items.map textOf) ++ unit :: rest =
      joinWith (others.map textOf) ++ unit :: rest') :
    items = others ∧ rest = rest' := by
  match items, others with
  | [], [] => exact ⟨rfl, (List.cons.inj same).2⟩
  | [], other :: others =>
    rw [List.map_cons, joinWith_cons, List.append_assoc] at same
    exact (opens _ _ _ same.symm).elim
  | item :: items, [] =>
    rw [List.map_cons, joinWith_cons, List.append_assoc] at same
    exact (opens _ _ _ same).elim
  | item :: items, other :: others =>
    rw [List.map_cons, List.map_cons, joinWith_cons, joinWith_cons,
      List.append_assoc, List.append_assoc] at same
    obtain ⟨first, after⟩ := each item List.mem_cons_self other
      (delimited_tail _ closing) (delimited_tail _ closing) same
    obtain ⟨others', after'⟩ := tail_cancel closing
      (fun later member => each later (List.mem_cons_of_mem _ member)) after
    exact ⟨by rw [first, others'], after'⟩

theorem texts_eq_map (items : List Json) :
    Json.texts js items = items.map (Json.text js) := by
  induction items with
  | nil => rfl
  | cons item rest ih => rw [Json.texts, ih, List.map_cons]

theorem fieldTexts_eq_map (fields : List (JsText × Json)) :
    Json.fieldTexts js fields =
      fields.map fun field => entryText (field.1, field.2.text js) := by
  induction fields with
  | nil => rfl
  | cons field rest ih => rw [Json.fieldTexts, ih, List.map_cons]

variable (js) in
def Told (value : Json) : Prop :=
  ∀ other {rest rest' : JsText}, Delimited rest → Delimited rest' →
    value.text js ++ rest = other.text js ++ rest' → value = other ∧ rest = rest'

theorem field_told (told : Told js value) (ends : Delimited rest) (ends' : Delimited rest')
    (same : entryText (key, value.text js) ++ rest = entryText (field.1, field.2.text js) ++
      rest') :
    (key, value) = field ∧ rest = rest' := by
  simp only [entryText, List.append_assoc] at same
  obtain ⟨rfl, after⟩ := quote_cancel same
  obtain ⟨rfl, final⟩ := told _ ends ends' (List.append_cancel_left after)
  exact ⟨rfl, final⟩

theorem field_not_closing {field : JsText × Json}
    (same : entryText (field.1, field.2.text js) ++ rest = 0x7d :: rest') : False :=
  absurd (List.cons.inj same).1 (by decide)

mutual
theorem text_told (numbers : NumberTexts js) : ∀ value : Json, Told js value
  | .null => by
      intro other rest rest' ends ends' same
      cases other with
      | null => exact ⟨rfl, List.append_cancel_left same⟩
      | _ => cases kind_eq numbers same
  | .bool value => by
      intro other rest rest' ends ends' same
      cases other with
      | bool other =>
        cases value <;> cases other
        · exact ⟨rfl, List.append_cancel_left same⟩
        · exact absurd (List.cons.inj same).1 (by decide)
        · exact absurd (List.cons.inj same).1 (by decide)
        · exact ⟨rfl, List.append_cancel_left same⟩
      | _ => cases kind_eq numbers same
  | .num value => by
      intro other rest rest' ends ends' same
      cases other with
      | num other =>
        obtain ⟨printed, after⟩ := append_numeric (numbers.numeric value)
          (numbers.numeric other) ends ends' same
        exact ⟨congrArg Json.num (numbers.injective printed), after⟩
      | _ => cases kind_eq numbers same
  | .str text => by
      intro other rest rest' ends ends' same
      cases other with
      | str =>
        obtain ⟨whole, after⟩ := quote_cancel same
        exact ⟨congrArg Json.str whole, after⟩
      | _ => cases kind_eq numbers same
  | .arr items => by
      intro other rest rest' ends ends' same
      cases other with
      | arr others =>
        rw [Json.text, Json.text, texts_eq_map, texts_eq_map] at same
        obtain ⟨whole, after⟩ := @list_cancel _ (Json.text js) _ (.inl rfl)
          (fun item rest rest' => text_not_closing numbers (by decide))
          items others rest rest'
          (fun item member => items_told numbers items item member)
          (by simpa [ascii] using same)
        exact ⟨congrArg Json.arr whole, after⟩
      | _ => cases kind_eq numbers same
  | .obj fields => by
      intro other rest rest' ends ends' same
      cases other with
      | obj others =>
        rw [Json.text, Json.text, fieldTexts_eq_map, fieldTexts_eq_map] at same
        obtain ⟨whole, after⟩ := @list_cancel _ (fun field : JsText × Json =>
            entryText (field.1, field.2.text js)) _ (.inr rfl)
          (fun item rest rest' => field_not_closing)
          fields others rest rest'
          (fun field member other _ _ => field_told
            (fields_told numbers fields field member))
          (by simpa [ascii] using same)
        exact ⟨congrArg Json.obj whole, after⟩
      | _ => cases kind_eq numbers same

theorem items_told (numbers : NumberTexts js) : ∀ items : List Json,
    ∀ item ∈ items, Told js item
  | [], item, member => by cases member
  | first :: rest, item, member => by
      rcases List.mem_cons.mp member with here | later
      · rw [here]
        exact text_told numbers first
      · exact items_told numbers rest item later

theorem fields_told (numbers : NumberTexts js) :
    ∀ fields : List (JsText × Json), ∀ field ∈ fields, Told js field.2
  | [], field, member => by cases member
  | (key, value) :: rest, field, member => by
      rcases List.mem_cons.mp member with here | later
      · rw [here]
        exact text_told numbers value
      · exact fields_told numbers rest field later
end

theorem text_injective (numbers : NumberTexts js) (same : value.text js = other.text js) :
    value = other := by
  have whole := @text_told js numbers value other [] [] trivial trivial
    (by rw [same])
  exact whole.1

end Value

theorem char_of_unit (small : character.toNat < 65536) :
    Char.ofNat (UInt16.ofNat character.toNat).toNat = character := by
  rw [UInt16.toNat_ofNat', Nat.mod_eq_of_lt small, Char.ofNat_toNat]

theorem units_injective {first second : List Char}
    (small : ∀ character ∈ first, character.toNat < 65536)
    (small' : ∀ character ∈ second, character.toNat < 65536)
    (same : (first.map fun character => UInt16.ofNat character.toNat) =
      second.map fun character => UInt16.ofNat character.toNat) :
    first = second := by
  have back : ∀ {text : List Char},
      (∀ character ∈ text, character.toNat < 65536) →
      (text.map fun character => UInt16.ofNat character.toNat).map
        (fun unit => Char.ofNat unit.toNat) = text := by
    intro text small
    rw [List.map_map]
    conv_rhs => rw [← List.map_id text]
    exact List.map_congr_left fun character member =>
      char_of_unit (small character member)
  rw [← back small, same, back small']

def isDigitUnit (unit : UInt16) : Bool := 0x30 ≤ unit && unit ≤ 0x39

theorem digit_bounds {digit : Char} (isDigit : digit.isDigit = true) :
    48 ≤ digit.toNat ∧ digit.toNat ≤ 57 := by
  simpa [Char.isDigit, UInt32.le_iff_toNat_le] using isDigit

theorem decimal_digits (member : unit ∈ decimal number) : isDigitUnit unit = true := by
  obtain ⟨digit, inside, rfl⟩ := List.mem_map.mp member
  have bounds := digit_bounds
    (Nat.isDigit_of_mem_toDigits (by decide) (by decide) inside)
  simp only [isDigitUnit, Bool.and_eq_true, decide_eq_true_eq,
    UInt16.le_iff_toNat_le, UInt16.toNat_ofNat']
  have low : UInt16.toNat 0x30 = 48 := rfl
  have high : UInt16.toNat 0x39 = 57 := rfl
  omega

theorem decimal_injective {first second : Nat}
    (same : decimal first = decimal second) : first = second := by
  have small : ∀ {number : Nat}, ∀ digit ∈ Nat.toDigits 10 number,
      digit.toNat < 65536 := by
    intro number digit inside
    have bounds := digit_bounds
      (Nat.isDigit_of_mem_toDigits (by decide) (by decide) inside)
    omega
  have digits : Nat.toDigits 10 first = Nat.toDigits 10 second :=
    units_injective small small same
  rw [← @Nat.ofDigitChars_ten_toDigits first, digits, Nat.ofDigitChars_ten_toDigits]

theorem decimal_cons (number : Nat) : ∃ unit rest,
    decimal number = unit :: rest ∧ isDigitUnit unit = true := by
  obtain ⟨unit, rest, shape⟩ := List.exists_cons_of_ne_nil
    (show decimal number ≠ [] by simp [decimal, Nat.toDigits_ne_nil])
  exact ⟨unit, rest, shape, decimal_digits (shape ▸ List.mem_cons_self)⟩

def fractionText (denominator : Nat) : JsText :=
  if denominator = 1 then [] else 0x2e :: decimal denominator

theorem digits_cancel
    (same : decimal first ++ fractionText denominator = decimal second ++
      fractionText denominator') :
    first = second ∧ denominator = denominator' := by
  have cut : ∀ number denominator,
      (decimal number ++ fractionText denominator).takeWhile isDigitUnit =
        decimal number := by
    intro number denominator
    rw [List.takeWhile_append_of_pos fun unit member => decimal_digits member,
      fractionText]
    split
    · simp
    · simp [show isDigitUnit 0x2e = false by decide]
  have digits : decimal first = decimal second := by
    rw [← cut first denominator, same, cut]
  rw [digits] at same
  refine ⟨decimal_injective digits, ?_⟩
  have fractions := List.append_cancel_left same
  unfold fractionText at fractions
  split at fractions
  · split at fractions
    · omega
    · cases fractions
  · split at fractions
    · cases fractions
    · exact decimal_injective (List.cons.inj fractions).2

theorem plain_text (value : Rat) :
    plainRuntime.numberText value =
      if value.num < 0 then
        0x2d :: (decimal value.num.natAbs ++ fractionText value.den)
      else decimal value.num.natAbs ++ fractionText value.den := by
  simp only [plainRuntime, fractionText]
  split
  · simp
  · simp

theorem minus_digit (same : 0x2d :: rest = decimal number ++ rest') : False := by
  obtain ⟨unit, after, shape, digit⟩ := decimal_cons number
  rw [shape, List.cons_append] at same
  rw [← (List.cons.inj same).1] at digit
  exact absurd digit (by decide)

theorem plain_numbers : NumberTexts plainRuntime where
  injective := by
    intro first second same
    rw [plain_text, plain_text] at same
    apply Rat.ext
    · split at same
      · split at same
        · have numbers := (digits_cancel (List.cons.inj same).2).1
          omega
        · exact (minus_digit same).elim
      · split at same
        · exact (minus_digit same.symm).elim
        · have numbers := (digits_cancel same).1
          omega
    · split at same
      · split at same
        · exact (digits_cancel (List.cons.inj same).2).2
        · exact (minus_digit same).elim
      · split at same
        · exact (minus_digit same.symm).elim
        · exact (digits_cancel same).2
  nonempty := by
    intro value none
    obtain ⟨unit, rest, shape, -⟩ := decimal_cons value.num.natAbs
    rw [plain_text, shape] at none
    split at none <;> cases none
  numeric := by
    intro value unit member
    have digits : ∀ number, ∀ unit ∈ decimal number, isNumeric unit = true := by
      intro number unit inside
      have digit := decimal_digits inside
      rw [isDigitUnit] at digit
      rw [isNumeric, digit]
      rfl
    simp only [plainRuntime, List.mem_append] at member
    rcases member with (sign | whole) | fraction
    · split at sign
      · rw [List.mem_singleton.mp sign]
        decide
      · cases sign
    · exact digits _ unit whole
    · split at fraction
      · cases fraction
      · rcases List.mem_cons.mp fraction with rfl | later
        · decide
        · exact digits _ unit later

end Graphorin.Audit
