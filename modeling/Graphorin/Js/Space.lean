import Mathlib.Data.List.DropRight

namespace Graphorin.Js

/-! White space, and the texts without it at their ends. -/

/-- `\s`, and what `trim` removes. -/
def isWhiteCode (code : Nat) : Bool :=
  (0x09 ≤ code && code ≤ 0x0d) || code == 0x20 || code == 0xa0 || code == 0x1680 ||
    (0x2000 ≤ code && code ≤ 0x200a) || code == 0x2028 || code == 0x2029 ||
    code == 0x202f || code == 0x205f || code == 0x3000 || code == 0xfeff

def isWhitespace (unit : UInt16) : Bool := isWhiteCode unit.toNat

def isWhiteChar (char : Char) : Bool := isWhiteCode char.toNat

section Trim

variable {α : Type} (white : α → Bool)

def trimStart (text : List α) : List α := text.dropWhile white

def trimEnd (text : List α) : List α := (trimStart white text.reverse).reverse

/-- `String.prototype.trim`. -/
def trim (text : List α) : List α := trimEnd white (trimStart white text)

variable {white : α → Bool} {front text : List α}

theorem trimStart_white (all : ∀ item ∈ front, white item = true) (more : List α) :
    trimStart white (front ++ more) = trimStart white more :=
  List.dropWhile_append_of_pos all

theorem trimStart_solid (solid : ¬text.all white = true) (more : List α) :
    trimStart white (text ++ more) = trimStart white text ++ more := by
  rw [trimStart, List.dropWhile_append, if_neg]
  · rfl
  · rw [List.isEmpty_iff, List.dropWhile_eq_nil_iff]
    exact fun all => solid (List.all_eq_true.mpr all)

theorem trimEnd_white (all : ∀ item ∈ front, white item = true) (text : List α) :
    trimEnd white (text ++ front) = trimEnd white text := by
  rw [trimEnd, List.reverse_append]
  exact congrArg List.reverse
    (trimStart_white (fun item held => all item (List.mem_reverse.mp held)) _)

theorem trimEnd_solid (solid : ¬text.all white = true) (front : List α) :
    trimEnd white (front ++ text) = front ++ trimEnd white text := by
  have solid' : ¬text.reverse.all white = true := by rwa [List.all_reverse]
  rw [trimEnd, List.reverse_append]
  refine (congrArg List.reverse (trimStart_solid solid' _)).trans ?_
  rw [List.reverse_append, List.reverse_reverse]
  rfl

theorem trim_visible {first last : α} (starts : white first = false)
    (ends : white last = false) :
    trim white (first :: text ++ [last]) = first :: text ++ [last] := by
  have visible {item : α} (stays : white item = false) (more : List α) :
      trimStart white (item :: more) = item :: more :=
    List.dropWhile_cons_of_neg (Bool.not_eq_true _ ▸ stays)
  rw [trim, trimEnd, List.cons_append, visible starts, ← List.cons_append,
    List.reverse_append, List.reverse_singleton, List.singleton_append, visible ends,
    List.reverse_cons, List.reverse_reverse]

end Trim

end Graphorin.Js
