import Graphorin.Audit.Checkpoint
import Graphorin.Lib.OrderedMap

/-!
# Secret references

`parseSecretRef` reads a reference from left to right with a cursor. One accessor looks a
parameter up in the parsed query; the other scans the raw text again.
-/

namespace Graphorin.Security.SecretRef

open Graphorin.Audit Graphorin.Lib

inductive SecretRefParseErrorKind where
  | emptyInput
  | malformedUri
  | invalidScheme
  | unexpectedAuthority
  | emptyPath
  | invalidPercentEncoding
  deriving DecidableEq

structure SecretRefParseError where
  kind : SecretRefParseErrorKind
  message : JsText
  input : JsText
  position : Nat

def OPAQUE_ONLY_SCHEMES : List JsText :=
  [ascii "env", ascii "keyring", ascii "literal", ascii "ref"]

def number (value : Nat) : JsText := ascii (toString value)

def isAlpha (ch : UInt16) : Bool :=
  (0x41 ≤ ch && ch ≤ 0x5a) || (0x61 ≤ ch && ch ≤ 0x7a)

def isDigit (ch : UInt16) : Bool := 0x30 ≤ ch && ch ≤ 0x39

def isHex (ch : UInt16) : Bool :=
  isDigit ch || (0x41 ≤ ch && ch ≤ 0x46) || (0x61 ≤ ch && ch ≤ 0x66)

/-- Letters, digits and `+`, `-`, `.`. -/
def isSchemeTail (ch : UInt16) : Bool :=
  isAlpha ch || isDigit ch || ch = 0x2b || ch = 0x2d || ch = 0x2e

def isUnreserved (ch : UInt16) : Bool :=
  isAlpha ch || isDigit ch || ch = 0x2d || ch = 0x2e || ch = 0x5f || ch = 0x7e

/-- `!$&'()*+,;=`. -/
def isSubDelim (ch : UInt16) : Bool :=
  ch = 0x21 || ch = 0x24 || (0x26 ≤ ch && ch ≤ 0x2c) || ch = 0x3b || ch = 0x3d

def isPchar (ch : UInt16) : Bool :=
  isUnreserved ch || isSubDelim ch || ch = 0x3a || ch = 0x40

def isQueryChar (ch : UInt16) : Bool := isPchar ch || ch = 0x2f || ch = 0x3f

def hexDigit (ch : UInt16) : Nat :=
  if isDigit ch then ch.toNat - 0x30
  else if ch.toNat < 0x61 then ch.toNat - 0x37
  else ch.toNat - 0x57

/-- `position` is where in `raw` the rest begins. -/
def percentDecode (raw : JsText) : Nat → JsText → Except SecretRefParseError JsText
  | _, [] => .ok []
  | position, ch :: rest =>
    if ch ≠ 0x25 then (percentDecode raw (position + 1) rest).map (ch :: ·)
    else
      let malformed : SecretRefParseError :=
        { kind := .invalidPercentEncoding
          message := ascii "Malformed percent-encoded triplet at position " ++
            number position ++ ascii " of '" ++ raw ++ ascii "'."
          input := raw, position }
      match rest with
      | hi :: lo :: others =>
        if isHex hi && isHex lo then
          (percentDecode raw (position + 3) others).map
            (UInt16.ofNat (16 * hexDigit hi + hexDigit lo) :: ·)
        else .error malformed
      | _ => .error malformed

def readSchemeTail (input : JsText) :
    Nat → JsText → Except SecretRefParseError (JsText × JsText)
  | position, [] => .error
      { kind := .malformedUri
        message := ascii "SecretRef '" ++ input ++
          ascii "' is missing the ':' delimiter after the scheme."
        input, position }
  | position, ch :: rest =>
    if ch = 0x3a then .ok ([], rest)
    else if ¬ isSchemeTail ch then .error
      { kind := .invalidScheme
        message := ascii "Invalid character '" ++ [ch] ++
          ascii "' in scheme at position " ++ number position ++ ascii "."
        input, position }
    else (readSchemeTail input (position + 1) rest).map fun read => (ch :: read.1, read.2)

def toLowerCase (ch : UInt16) : UInt16 :=
  if 0x41 ≤ ch && ch ≤ 0x5a then ch + 0x20 else ch

def readScheme (input : JsText) : Except SecretRefParseError (JsText × JsText) :=
  match input with
  | [] => .error
      { kind := .emptyInput, message := ascii "SecretRef is empty.", input, position := 0 }
  | first :: rest =>
    if ¬ isAlpha first then .error
      { kind := .invalidScheme
        message := ascii "SecretRef scheme must start with an ASCII letter; got '" ++
          [first] ++ ascii "'."
        input, position := 0 }
    else (readSchemeTail input 1 rest).map fun read => (first :: read.1, read.2)

def inAuthority (ch : UInt16) : Bool := ch ≠ 0x2f && ch ≠ 0x3f && ch ≠ 0x23

def readAuthority (rest : JsText) : JsText × JsText :=
  (rest.takeWhile inAuthority, rest.dropWhile inAuthority)

def readComponent (component : String) (ends allowed : UInt16 → Bool) (input : JsText) :
    Nat → JsText → Except SecretRefParseError (JsText × JsText)
  | _, [] => .ok ([], [])
  | position, ch :: rest =>
    if ends ch then .ok ([], ch :: rest)
    else if ¬ (allowed ch || ch = 0x25) then .error
      { kind := .malformedUri
        message := ascii "Invalid character '" ++ [ch] ++ ascii "' in " ++
          ascii component ++ ascii " at position " ++ number position ++ ascii "."
        input, position }
    else if ch = 0x25 then
      let malformed : SecretRefParseError :=
        { kind := .invalidPercentEncoding
          message := ascii "Malformed percent-encoded triplet at position " ++
            number position ++ ascii "."
          input, position }
      match rest with
      | hi :: lo :: others =>
        if isHex hi && isHex lo then
          (readComponent component ends allowed input (position + 3) others).map
            fun read => (ch :: hi :: lo :: read.1, read.2)
        else .error malformed
      | _ => .error malformed
    else
      (readComponent component ends allowed input (position + 1) rest).map
        fun read => (ch :: read.1, read.2)

/-- The space is no path character, but tolerated. -/
def readPath (input : JsText) (start : Nat) (hasAuthority : Bool) (rest : JsText) :
    Except SecretRefParseError (JsText × JsText) := do
  let read ← readComponent "path" (fun ch => ch = 0x3f || ch = 0x23)
    (fun ch => ch = 0x2f || isPchar ch || ch = 0x20) input start rest
  if hasAuthority = false ∧ read.1 = [] then
    .error
      { kind := .emptyPath
        message := ascii "SecretRef has an empty path component (no authority either)."
        input, position := start }
  else .ok read

def readQueryRaw (input : JsText) (start : Nat) (rest : JsText) :
    Except SecretRefParseError (JsText × JsText) :=
  match rest with
  | [] => .ok ([], [])
  | ch :: others =>
    if ch = 0x3f then
      readComponent "query" (fun ch => ch = 0x23) isQueryChar input (start + 1) others
    else .ok ([], ch :: others)

def readFragmentRaw (input : JsText) (start : Nat) (rest : JsText) :
    Except SecretRefParseError JsText :=
  match rest with
  | [] => .ok []
  | ch :: others =>
    if ch = 0x23 then
      (readComponent "fragment" (fun _ => false) isQueryChar input (start + 1) others).map
        (·.1)
    else .ok []

def pieces (rawQuery : JsText) : List JsText :=
  (rawQuery.splitOn 0x26).filter fun piece => 0 < piece.length

def plusToSpace (text : JsText) : JsText :=
  text.map fun ch => if ch = 0x2b then 0x20 else ch

def pieceKey (raw : JsText) (offset : Nat) (piece : JsText) :
    Except SecretRefParseError JsText :=
  percentDecode raw offset (plusToSpace (piece.takeWhile (· ≠ 0x3d)))

def pieceValue (raw : JsText) (offset : Nat) (piece : JsText) :
    Except SecretRefParseError JsText :=
  percentDecode raw offset (plusToSpace ((piece.dropWhile (· ≠ 0x3d)).drop 1))

def recordPiece (raw : JsText) (offset : Nat) (out : OrderedMap JsText JsText)
    (piece : JsText) : Except SecretRefParseError (OrderedMap JsText JsText) := do
  let key ← pieceKey raw offset piece
  let value ← pieceValue raw offset piece
  return out.set key value

def parseQueryString (rawQuery raw : JsText) (offset : Nat) :
    Except SecretRefParseError (OrderedMap JsText JsText) :=
  (pieces rawQuery).foldlM (recordPiece raw offset) .empty

structure ParsedSecretRef where
  raw : JsText
  scheme : JsText
  authority : Option JsText
  path : JsText
  query : OrderedMap JsText JsText
  fragment : Option JsText

def parseSecretRef (uri : JsText) : Except SecretRefParseError ParsedSecretRef := do
  let (name, afterColon) ← readScheme uri
  let scheme := name.map toLowerCase
  let colon := name.length + 1
  let slashes := (ascii "//").isPrefixOf afterColon
  if slashes ∧ scheme ∈ OPAQUE_ONLY_SCHEMES then
    throw
      { kind := .unexpectedAuthority
        message := ascii "Scheme '" ++ scheme ++
          ascii ":' does not accept an authority component (no '//' allowed)."
        input := uri, position := colon }
  let authority := if slashes then some (readAuthority (afterColon.drop 2)).1 else none
  let beforePath := if slashes then (readAuthority (afterColon.drop 2)).2 else afterColon
  let cursor := uri.length - beforePath.length
  let (rawPath, afterPath) ← readPath uri cursor slashes beforePath
  let path ← percentDecode uri cursor rawPath
  let queryStart := uri.length - afterPath.length
  let (rawQuery, afterQuery) ← readQueryRaw uri queryStart afterPath
  let query ← parseQueryString rawQuery uri (queryStart + 1)
  let fragmentStart := uri.length - afterQuery.length
  let fragmentRaw ← readFragmentRaw uri fragmentStart afterQuery
  let fragment ←
    if 0 < fragmentRaw.length then
      (percentDecode uri (fragmentStart + 1) fragmentRaw).map some
    else pure none
  return { raw := uri, scheme, authority, path, query, fragment }

def getQueryParam (ref : ParsedSecretRef) (key : JsText) : Option JsText :=
  ref.query.get key

def rescanned (raw : JsText) : JsText :=
  ((raw.dropWhile (· ≠ 0x3f)).drop 1).takeWhile (· ≠ 0x23)

def collectPiece (raw : JsText) (offset : Nat) (key : JsText) (out : List JsText)
    (piece : JsText) : Except SecretRefParseError (List JsText) := do
  let decodedKey ← pieceKey raw offset piece
  if decodedKey = key then
    let value ← pieceValue raw offset piece
    return out ++ [value]
  else return out

def getQueryParamAll (ref : ParsedSecretRef) (key : JsText) :
    Except SecretRefParseError (List JsText) :=
  (pieces (rescanned ref.raw)).foldlM
    (collectPiece ref.raw ((ref.raw.takeWhile (· ≠ 0x3f)).length + 1) key) []

end Graphorin.Security.SecretRef
