import Graphorin.Audit.Canonical
import Graphorin.Lib.Pieces

namespace Graphorin.Security

open Graphorin.Audit (JsText ascii isHighSurrogate isLowSurrogate)
open Graphorin.Lib (windows tiles)

/-! The taint ledger of a run: which untrusted texts entered it, and whether the
arguments of a call carry a piece of one. -/

/-- `normalize('NFKC')`, `\p{L}` or `\p{N}`, and `toLowerCase`. -/
structure Unicode where
  nfkc : JsText → JsText
  letterOrNumber : Nat → Bool
  lowerCase : JsText → JsText

/-- `.replace(/[^\p{L}\p{N}]/gu, '')`, by code points. -/
def keepLettersAndNumbers (letterOrNumber : Nat → Bool) : JsText → JsText
  | [] => []
  | [unit] => if letterOrNumber unit.toNat then [unit] else []
  | high :: low :: rest =>
    if isHighSurrogate high ∧ isLowSurrogate low then
      let point := 0x10000 + (high.toNat - 0xd800) * 0x400 + (low.toNat - 0xdc00)
      if letterOrNumber point then
        high :: low :: keepLettersAndNumbers letterOrNumber rest
      else keepLettersAndNumbers letterOrNumber rest
    else if letterOrNumber high.toNat then
      high :: keepLettersAndNumbers letterOrNumber (low :: rest)
    else keepLettersAndNumbers letterOrNumber (low :: rest)

def normalize (unicode : Unicode) (text : JsText) : JsText :=
  unicode.lowerCase
    (keepLettersAndNumbers unicode.letterOrNumber (unicode.nfkc text))

def shingles (text : JsText) (window : Nat) : List JsText :=
  if window = 0 ∨ text.length < window then [] else windows window text

def sharesAnyGram (text : JsText) (grams : List JsText) (window : Nat) : Bool :=
  (shingles text window).any (· ∈ grams)

/-- 32-bit FNV-1a over UTF-16 code units, as eight hex digits. -/
def fnv1a32 (text : JsText) : JsText :=
  let hash : UInt32 := text.foldl
    (fun hash unit => (hash ^^^ unit.toUInt32) * 0x01000193) 0x811c9dc5
  (List.range 8).map fun place =>
    UInt16.ofNat (Nat.digitChar (hash.toNat / 16 ^ (7 - place) % 16)).toNat

/-- `DEFAULT_MIN_SPAN_LENGTH` -/
def defaultMinSpanLength : Int := 20

/-- `DEFAULT_MAX_TRACKED_CHARS` -/
def defaultMaxTrackedChars : Int := 262144

/-- `MIN_TRUSTWORTHY_WINDOW` -/
def minTrustworthyWindow : Nat := 8

/-- `MAX_PERSISTED_TILE_HASHES` -/
def maxPersistedTileHashes : Nat := 8192

def addTo (set : List JsText) (value : JsText) : List JsText :=
  if value ∈ set then set else set ++ [value]

def setOf (values : List JsText) : List JsText := values.foldl addTo []

structure TaintLabel where
  sourceKind : JsText
  untrusted : Bool
  sensitive : Bool

structure TaintLedgerSnapshot where
  untrustedSeen : Bool
  sensitiveSeen : Bool
  untrustedSourceKinds : List JsText
  spanTileHashes : Option (List JsText)
  deriving DecidableEq

structure LedgerOptions where
  minSpanLength : Option Int := none
  maxTrackedChars : Option Int := none
  piiSensitivity : Option (JsText → Bool) := none

structure TrackedSpan where
  text : JsText
  sourceKind : JsText
  deriving DecidableEq

structure TaintLedger where
  untrustedSeen : Bool
  sensitiveSeen : Bool
  untrustedSourceKinds : List JsText
  rehydratedTiles : List JsText
  spans : List TrackedSpan
  trackedChars : Nat
  deriving DecidableEq

structure ArgsTaintProbe where
  carriesUntrustedVerbatim : Bool
  matchedSourceKinds : List JsText
  deriving DecidableEq

namespace LedgerOptions

def spanLength (options : LedgerOptions) : Nat :=
  let requestedMinSpan := max 1 (options.minSpanLength.getD defaultMinSpanLength)
  max requestedMinSpan.toNat minTrustworthyWindow

def trackedLimit (options : LedgerOptions) : Nat :=
  max options.spanLength (options.maxTrackedChars.getD defaultMaxTrackedChars).toNat

end LedgerOptions

def createTaintLedger (initial : Option TaintLedgerSnapshot) : TaintLedger where
  untrustedSeen := (initial.map (·.untrustedSeen)).getD false
  sensitiveSeen := (initial.map (·.sensitiveSeen)).getD false
  untrustedSourceKinds := setOf ((initial.map (·.untrustedSourceKinds)).getD [])
  rehydratedTiles := setOf ((initial.bind (·.spanTileHashes)).getD [])
  spans := []
  trackedChars := 0

def evictOldest (maxTrackedChars : Nat) : List TrackedSpan → Nat → List TrackedSpan × Nat
  | first :: second :: rest, trackedChars =>
    if maxTrackedChars < trackedChars then
      evictOldest maxTrackedChars (second :: rest) (trackedChars - first.text.length)
    else (first :: second :: rest, trackedChars)
  | spans, trackedChars => (spans, trackedChars)

namespace TaintLedger

def track (options : LedgerOptions) (ledger : TaintLedger) (normalized : JsText)
    (sourceKind : JsText) : TaintLedger :=
  if normalized.length < options.spanLength then ledger
  else
    let text := normalized.take options.trackedLimit
    let (spans, trackedChars) := evictOldest options.trackedLimit
      (ledger.spans ++ [⟨text, sourceKind⟩]) (ledger.trackedChars + text.length)
    { ledger with spans := spans, trackedChars := trackedChars }

def ingest (unicode : Unicode) (options : LedgerOptions) (ledger : TaintLedger)
    (label : TaintLabel) (outputText : JsText) : TaintLedger :=
  let sensitiveSeen :=
    if label.sensitive then true
    else if !ledger.sensitiveSeen then
      (options.piiSensitivity.map fun scan => scan outputText).getD false
    else ledger.sensitiveSeen
  let ledger := { ledger with sensitiveSeen := sensitiveSeen }
  if !label.untrusted then ledger
  else
    { ledger with
      untrustedSeen := true
      untrustedSourceKinds := addTo ledger.untrustedSourceKinds label.sourceKind }.track
        options (normalize unicode outputText) label.sourceKind

def recordOutput (unicode : Unicode) (options : LedgerOptions) (ledger : TaintLedger)
    (label : TaintLabel) (outputText : JsText) : TaintLedger :=
  ledger.ingest unicode options label outputText

def recordInboundMessage (unicode : Unicode) (options : LedgerOptions)
    (ledger : TaintLedger) (label : TaintLabel) (text : JsText) : TaintLedger :=
  ledger.ingest unicode options label text

def recordAssistantOutput (unicode : Unicode) (options : LedgerOptions)
    (ledger : TaintLedger) (text : JsText) : TaintLedger :=
  if !ledger.untrustedSeen then ledger
  else ledger.track options (normalize unicode text) (ascii "llm-derived")

def inspectArgs (unicode : Unicode) (options : LedgerOptions) (ledger : TaintLedger)
    (argsText : JsText) : ArgsTaintProbe :=
  let argsNorm := normalize unicode argsText
  let window := min options.spanLength argsNorm.length
  if window < minTrustworthyWindow ∨ (ledger.spans = [] ∧ ledger.rehydratedTiles = [])
  then ⟨false, []⟩
  else
    let argGrams := shingles argsNorm window
    if argGrams = [] then ⟨false, []⟩
    else
      let live := setOf ((ledger.spans.filter fun span =>
        sharesAnyGram span.text argGrams window).map TrackedSpan.sourceKind)
      let matched :=
        if live = [] ∧ ledger.rehydratedTiles ≠ [] ∧ window = options.spanLength ∧
            argGrams.any (fnv1a32 · ∈ ledger.rehydratedTiles) then
          [ascii "resumed-untrusted"]
        else live
      ⟨!matched.isEmpty, matched⟩

def snapshot (options : LedgerOptions) (ledger : TaintLedger) : TaintLedgerSnapshot :=
  let cut := (ledger.spans.flatMap fun span =>
    (tiles options.spanLength span.text).map fnv1a32).take maxPersistedTileHashes
  let all := (cut ++ ledger.rehydratedTiles).take maxPersistedTileHashes
  { untrustedSeen := ledger.untrustedSeen
    sensitiveSeen := ledger.sensitiveSeen
    untrustedSourceKinds := ledger.untrustedSourceKinds
    spanTileHashes := if 0 < all.length then some all else none }

end TaintLedger

end Graphorin.Security
