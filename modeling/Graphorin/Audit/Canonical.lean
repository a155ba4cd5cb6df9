import Mathlib.Data.List.Sort
import Graphorin.Js.Buffer

namespace Graphorin.Audit

open Graphorin.Js

/-! Canonical JSON, and the values it is taken of. -/

/-- A JavaScript string: UTF-16 code units, surrogates paired or not. -/
abbrev JsText := List UInt16

def ascii (text : String) : JsText :=
  text.toList.map fun character => UInt16.ofNat character.toNat

/-- What `JSON.parse` returns. -/
inductive Json
  | null
  | bool (value : Bool)
  | num (value : Rat)
  | str (text : JsText)
  | arr (items : List Json)
  | obj (fields : List (JsText × Json))

/-- A value in memory.  `arrAs` and `objAs` are arrays and objects that
`JSON.stringify` does not write as they stand, because they have a `toJSON`
method or box a primitive: `written` is what it writes, `none` when it leaves
the value out. -/
inductive Live
  | undefined
  | null
  | bool (value : Bool)
  | num (value : Rat)
  | nonFinite (text : String)
  | str (text : JsText)
  | bigint
  | function
  | symbol
  | arr (items : List Live)
  | obj (fields : List (JsText × Live))
  | arrAs (items : List Live) (written : Option Json)
  | objAs (fields : List (JsText × Live)) (written : Option Json)

mutual
def Json.live : Json → Live
  | .null => .null
  | .bool value => .bool value
  | .num value => .num value
  | .str text => .str text
  | .arr items => .arr (Json.liveItems items)
  | .obj fields => .obj (Json.liveFields fields)

def Json.liveItems : List Json → List Live
  | [] => []
  | item :: rest => item.live :: Json.liveItems rest

def Json.liveFields : List (JsText × Json) → List (JsText × Live)
  | [] => []
  | (key, value) :: rest => (key, value.live) :: Json.liveFields rest
end

mutual
/-- `JSON.parse(JSON.stringify(value))`; `none` when nothing is written.  A
`bigint` makes `JSON.stringify` throw and never gets here. -/
def Live.written : Live → Option Json
  | .undefined => none
  | .null => some .null
  | .bool value => some (.bool value)
  | .num value => some (.num value)
  | .nonFinite _ => some .null
  | .str text => some (.str text)
  | .bigint => none
  | .function => none
  | .symbol => none
  | .arr items => some (.arr (Live.writtenItems items))
  | .obj fields => some (.obj (Live.writtenFields fields))
  | .arrAs _ written => written
  | .objAs _ written => written

def Live.writtenItems : List Live → List Json
  | [] => []
  | item :: rest => item.written.getD .null :: Live.writtenItems rest

def Live.writtenFields : List (JsText × Live) → List (JsText × Json)
  | [] => []
  | (key, value) :: rest =>
    match value.written with
    | some written => (key, written) :: Live.writtenFields rest
    | none => Live.writtenFields rest
end

def isHighSurrogate (unit : UInt16) : Bool := 0xd800 ≤ unit && unit ≤ 0xdbff

def isLowSurrogate (unit : UInt16) : Bool := 0xdc00 ≤ unit && unit ≤ 0xdfff

def hexUnit (unit : UInt16) : JsText :=
  [unit.toNat / 4096, unit.toNat / 256 % 16, unit.toNat / 16 % 16,
    unit.toNat % 16].map fun digit => UInt16.ofNat (Nat.digitChar digit).toNat

/-- A unit that is no half of a pair, as `JSON.stringify` writes it. -/
def quoteUnit (unit : UInt16) : JsText :=
  if unit = 0x22 then ascii "\\\""
  else if unit = 0x5c then ascii "\\\\"
  else if unit = 0x08 then ascii "\\b"
  else if unit = 0x0c then ascii "\\f"
  else if unit = 0x0a then ascii "\\n"
  else if unit = 0x0d then ascii "\\r"
  else if unit = 0x09 then ascii "\\t"
  else if unit < 0x20 ∨ isHighSurrogate unit ∨ isLowSurrogate unit then
    ascii "\\u" ++ hexUnit unit
  else [unit]

def quoteUnits : JsText → JsText
  | [] => []
  | unit :: rest =>
    match rest with
    | low :: others =>
      if isHighSurrogate unit && isLowSurrogate low then
        unit :: low :: quoteUnits others
      else quoteUnit unit ++ quoteUnits (low :: others)
    | [] => quoteUnit unit

/-- `JSON.stringify` of a string. -/
def quote (text : JsText) : JsText := ascii "\"" ++ quoteUnits text ++ ascii "\""

def toWellFormed : JsText → JsText
  | [] => []
  | unit :: rest =>
    match rest with
    | low :: others =>
      if isHighSurrogate unit && isLowSurrogate low then
        unit :: low :: toWellFormed others
      else
        (if isHighSurrogate unit || isLowSurrogate unit then 0xfffd
          else unit) :: toWellFormed (low :: others)
    | [] =>
      [if isHighSurrogate unit || isLowSurrogate unit then 0xfffd else unit]

def utf8Point (point : Nat) : Bytes :=
  if point < 0x80 then [UInt8.ofNat point]
  else if point < 0x800 then
    [UInt8.ofNat (0xc0 + point / 64), UInt8.ofNat (0x80 + point % 64)]
  else if point < 0x10000 then
    [UInt8.ofNat (0xe0 + point / 4096), UInt8.ofNat (0x80 + point / 64 % 64),
      UInt8.ofNat (0x80 + point % 64)]
  else
    [UInt8.ofNat (0xf0 + point / 262144), UInt8.ofNat (0x80 + point / 4096 % 64),
      UInt8.ofNat (0x80 + point / 64 % 64), UInt8.ofNat (0x80 + point % 64)]

/-- `Buffer.from(text, 'utf8')`. -/
def utf8 : JsText → Bytes
  | [] => []
  | unit :: rest =>
    match rest with
    | low :: others =>
      if isHighSurrogate unit && isLowSurrogate low then
        utf8Point (0x10000 + (unit.toNat - 0xd800) * 1024 +
          (low.toNat - 0xdc00)) ++ utf8 others
      else
        utf8Point (if isHighSurrogate unit || isLowSurrogate unit then
          0xfffd else unit.toNat) ++ utf8 (low :: others)
    | [] =>
      utf8Point (if isHighSurrogate unit || isLowSurrogate unit then 0xfffd
        else unit.toNat)

/-- Parts of the runtime nothing here looks into: how a number is printed, and
`Intl.Collator('en')`. -/
structure Runtime where
  numberText : Rat → JsText
  collate : JsText → JsText → Ordering

def decimal (number : Nat) : JsText :=
  (Nat.toDigits 10 number).map fun digit => UInt16.ofNat digit.toNat

/-- A runtime that is right on whole numbers and on plain keys. -/
def plainRuntime : Runtime where
  numberText value :=
    (if value.num < 0 then [0x2d] else []) ++ decimal value.num.natAbs ++
      (if value.den = 1 then [] else 0x2e :: decimal value.den)
  collate first second := compareOfLessAndEq first second

/-- Reason of an `AuditPayloadSerializationError`. -/
inductive NotSerialisable
  | topLevelUndefined
  | nonFinite (text : String)
  | bigint
  | unsupported (type : String)
deriving DecidableEq

def NotSerialisable.reason : NotSerialisable → String
  | .topLevelUndefined => "top-level value is undefined"
  | .nonFinite text => "non-finite number " ++ text
  | .bigint => "BigInt is not supported"
  | .unsupported type => "cannot serialise " ++ type

variable (js : Runtime)

/-- Order of keys: the collator's, code units where it sees no difference. -/
def keyBefore (first second : JsText) : Bool :=
  match js.collate first second with
  | .lt => true
  | .gt => false
  | .eq => decide (first ≤ second)

def sortEntries (entries : List (JsText × JsText)) : List (JsText × JsText) :=
  entries.insertionSort fun first second => keyBefore js first.1 second.1 = true

def joinWith : List JsText → JsText
  | [] => []
  | [last] => last
  | first :: rest => first ++ ascii "," ++ joinWith rest

def entryText (entry : JsText × JsText) : JsText :=
  quote entry.1 ++ ascii ":" ++ entry.2

def arrayText (parts : List JsText) : JsText :=
  ascii "[" ++ joinWith parts ++ ascii "]"

def objectText (entries : List (JsText × JsText)) : JsText :=
  ascii "\x7b" ++ joinWith ((sortEntries js entries).map entryText) ++ ascii "\x7d"

mutual
def serialize : Live → Except NotSerialisable JsText
  | .undefined => .error (.unsupported "undefined")
  | .null => .ok (ascii "null")
  | .bool value => .ok (ascii (if value then "true" else "false"))
  | .num value => .ok (js.numberText value)
  | .nonFinite text => .error (.nonFinite text)
  | .str text => .ok (quote text)
  | .bigint => .error .bigint
  | .function => .error (.unsupported "function")
  | .symbol => .error (.unsupported "symbol")
  | .arr items => (serializeItems items).map arrayText
  | .arrAs items _ => (serializeItems items).map arrayText
  | .obj fields => (serializeFields fields).map (objectText js)
  | .objAs fields _ => (serializeFields fields).map (objectText js)

def serializeItems : List Live → Except NotSerialisable (List JsText)
  | [] => .ok []
  | item :: rest => do
      let part ← match item with
        | .undefined => pure (ascii "null")
        | item => serialize item
      let parts ← serializeItems rest
      pure (part :: parts)

def serializeFields : List (JsText × Live) →
    Except NotSerialisable (List (JsText × JsText))
  | [] => .ok []
  | (key, value) :: rest =>
    match value with
    | .undefined => serializeFields rest
    | value => do
        let part ← serialize value
        let parts ← serializeFields rest
        pure ((key, part) :: parts)
end

def canonicalJson : Live → Except NotSerialisable JsText
  | .undefined => .error .topLevelUndefined
  | value => serialize js value

end Graphorin.Audit
