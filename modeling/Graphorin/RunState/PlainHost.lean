import Mathlib.Data.List.DropRight
import Mathlib.Tactic.IntervalCases
import Graphorin.RunState.Parse

namespace Graphorin.RunState

open Graphorin.Js Graphorin.Audit

/-! A platform that is right on whole numbers and knows one URL. -/

def digitsValue (digits : JsText) : Nat :=
  digits.foldl (fun sum digit => 10 * sum + (digit.toNat - 48)) 0

def denominatorOf : JsText → Option Nat
  | [] => some 1
  | 0x2e :: digits => some (digitsValue digits)
  | _ => none

def plainUnsigned (digits : JsText) : Option (Nat × Nat) :=
  (denominatorOf (digits.dropWhile isDigitUnit)).map fun denominator =>
    (digitsValue (digits.takeWhile isDigitUnit), denominator)

/-- The number a text of `plainRuntime` stands for. -/
def plainNumber : JsText → Option Rat
  | 0x2d :: digits =>
    (plainUnsigned digits).map fun parts => mkRat (-(parts.1 : Int)) parts.2
  | digits => (plainUnsigned digits).map fun parts => mkRat parts.1 parts.2

def imageUrl : JsText := ascii "https://example.com/a.png"

def plainHost : Host where
  js := plainRuntime
  readNumber := plainNumber
  parseUrl text := if text = imageUrl then some imageUrl else none
  coerceNumber _ := none
  coerceText _ := []

end Graphorin.RunState
