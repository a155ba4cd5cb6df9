import Graphorin.Audit.Canonical
import Graphorin.Lib.OrderedMap

namespace Graphorin.Stores

open Graphorin.Audit Graphorin.Lib

/-! The keys of the in-memory checkpoint store, and which of them can be taken apart
again. -/

def colon : UInt16 := 0x3a

def indexKey (threadId namespaceName : JsText) : JsText :=
  threadId ++ colon :: colon :: namespaceName

/-- A key cut at its first `::`, which every key has. -/
def splitKey : JsText → JsText × JsText
  | [] => ([], [])
  | unit :: rest =>
    match rest with
    | [] => ([unit], [])
    | next :: others =>
      if unit = colon ∧ next = colon then ([], others)
      else (unit :: (splitKey rest).1, (splitKey rest).2)

/-- `slice(0, limit)`. -/
def sliceTo {α : Type} (items : List α) (limit : Int) : List α :=
  if limit < 0 then items.take (items.length - (-limit).toNat)
  else items.take limit.toNat

/-- A text without `::` that does not end in `:`. -/
def Separable : JsText → Prop
  | [] => True
  | unit :: rest =>
    match rest with
    | [] => unit ≠ colon
    | next :: _ => ¬ (unit = colon ∧ next = colon) ∧ Separable rest

theorem splitKey_append {text rest : JsText} (separable : Separable text) :
    splitKey (text ++ colon :: colon :: rest) = (text, rest) := by
  induction text with
  | nil => simp [splitKey]
  | cons unit others ih =>
    cases others with
    | nil =>
      have apart : unit ≠ colon := separable
      simp [splitKey, apart]
    | cons next tail =>
      obtain ⟨apart, later⟩ : ¬ (unit = colon ∧ next = colon) ∧
        Separable (next :: tail) := separable
      have split := ih later
      simp only [List.cons_append] at split ⊢
      rw [splitKey]
      simp only [if_neg apart, split]

theorem append_cancel (separable : Separable first) (separable' : Separable second)
    (same : first ++ colon :: colon :: rest = second ++ colon :: colon :: rest') :
    first = second ∧ rest = rest' := by
  have split := @splitKey_append first rest separable
  rw [same, splitKey_append separable'] at split
  exact ⟨(Prod.mk.inj split).1.symm, (Prod.mk.inj split).2.symm⟩

theorem indexKey_cancel (separable : Separable threadId) (separable' : Separable threadId')
    (same : indexKey threadId namespaceName = indexKey threadId' namespaceName') :
    threadId = threadId' ∧ namespaceName = namespaceName' :=
  append_cancel separable separable' same

@[simp] theorem splitKey_indexKey {threadId namespaceName : JsText}
    (separable : Separable threadId) :
    splitKey (indexKey threadId namespaceName) = (threadId, namespaceName) :=
  splitKey_append separable

end Graphorin.Stores
