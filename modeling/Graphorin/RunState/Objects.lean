import Mathlib.Data.List.Induction
import Mathlib.Data.List.TakeWhile
import Graphorin.Audit.Text

namespace Graphorin.RunState

open Graphorin.Js Graphorin.Audit

/-! Objects as lists of their own properties, in the order in which the runtime
enumerates them: array indexes ascending, then the other keys as they were
added. -/

variable {α β : Type}

abbrev Props (α : Type) := List (JsText × α)

/-- What a run state is made of.  `nonFinite` is `NaN` or an infinity; a URL is
its `href`. -/
inductive Value
  | null
  | bool (value : Bool)
  | num (value : Rat)
  | nonFinite
  | str (text : JsText)
  | arr (items : List Value)
  | obj (props : List (JsText × Value))
  | bytes (content : Bytes)
  | url (href : JsText)

def arrayIndex? (key : JsText) : Option Nat :=
  let value := key.foldl (fun sum digit => 10 * sum + (digit.toNat - 48)) 0
  if key.all isDigitUnit && decimal value == key && value < 2 ^ 32 - 1 then some value
  else none

def spellsBelow (index : Nat) (key : JsText) : Bool :=
  match arrayIndex? key with
  | some other => other < index
  | none => false

/-- `object[key] = value`, as an own property. -/
def setField (props : Props α) (key : JsText) (value : α) : Props α :=
  if props.any fun entry => entry.1 == key then
    props.map fun entry => if entry.1 = key then (key, value) else entry
  else
    match arrayIndex? key with
    | none => props ++ [(key, value)]
    | some index =>
      props.takeWhile (spellsBelow index ·.1) ++
        (key, value) :: props.dropWhile (spellsBelow index ·.1)

/-- One property after the other onto an empty object. -/
def assemble (props : Props α) : Props α :=
  props.foldl (fun object entry => setField object entry.1 entry.2) []

end Graphorin.RunState
