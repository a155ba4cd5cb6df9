import Mathlib.Data.List.Infix
import Mathlib.Data.List.Basic
import Mathlib.Data.List.Sort
import Mathlib.Order.Defs.LinearOrder

namespace Graphorin.Lib

section Selection

/-! Taking the first element with a property out of a list. -/

def takeFirst (p : α → Bool) : List α → Option (α × List α)
  | [] => none
  | item :: rest =>
    if p item then some (item, rest)
    else (takeFirst p rest).map fun found => (found.1, item :: found.2)

variable {p : α → Bool} {items : List α}

theorem takeFirst_none_iff :
    takeFirst p items = none ↔ ∀ item ∈ items, p item = false := by
  induction items with
  | nil => simp [takeFirst]
  | cons item _ ih =>
    by_cases hit : p item = true
    · simp [takeFirst, hit]
    · simp [takeFirst, hit, ih]

theorem takeFirst_some_iff {rest : List α} {item : α} :
    takeFirst p items = some (item, rest) ↔
      ∃ before after, items = before ++ item :: after ∧
        rest = before ++ after ∧ p item = true ∧
        ∀ other ∈ before, p other = false := by
  induction items generalizing rest with
  | nil => simp [takeFirst]
  | cons head tail ih =>
    by_cases hit : p head = true
    · constructor
      · intro taken
        simp only [takeFirst, hit, if_true, Option.some.injEq,
          Prod.mk.injEq] at taken
        obtain ⟨rfl, rfl⟩ := taken
        exact ⟨[], tail, rfl, rfl, hit, by simp⟩
      · rintro ⟨before, after, split, rfl, found, missed⟩
        cases before with
        | nil =>
          obtain ⟨rfl, rfl⟩ := List.cons.inj split
          simp [takeFirst, hit]
        | cons =>
          obtain ⟨rfl, -⟩ := List.cons.inj split
          simp [missed head (by simp)] at hit
    · simp only [takeFirst, hit, Bool.false_eq_true, if_false,
        Option.map_eq_some_iff]
      constructor
      · rintro ⟨⟨found, others⟩, taken, pairing⟩
        simp only [Prod.mk.injEq] at pairing
        obtain ⟨rfl, rfl⟩ := pairing
        obtain ⟨before, after, rfl, rfl, holds, missed⟩ := ih.mp taken
        refine ⟨head :: before, after, rfl, rfl, holds, ?_⟩
        intro other member
        rcases List.mem_cons.mp member with rfl | member
        · simpa using hit
        · exact missed other member
      · rintro ⟨before, after, split, rfl, found, missed⟩
        cases before with
        | nil =>
          obtain ⟨rfl, -⟩ := List.cons.inj split
          exact absurd found hit
        | cons _ others =>
          obtain ⟨rfl, rfl⟩ := List.cons.inj split
          refine ⟨(item, others ++ after), ih.mpr
            ⟨others, after, rfl, rfl, found, ?_⟩, rfl⟩
          intro other member
          exact missed other (by simp [member])

end Selection

section Windows

variable {α : Type}

def windows (width : Nat) (items : List α) : List (List α) :=
  (List.range (items.length + 1 - width)).map fun start =>
    (items.drop start).take width

def tiles (width : Nat) (items : List α) : List (List α) :=
  (List.range (items.length / width)).map fun index =>
    (items.drop (index * width)).take width

variable {width : Nat} {items : List α}

variable {piece : List α}

theorem mem_windows :
    piece ∈ windows width items ↔ piece.length = width ∧ piece <:+: items := by
  rw [windows, List.mem_map]
  constructor
  · rintro ⟨start, inside, rfl⟩
    rw [List.mem_range] at inside
    refine ⟨?_, (List.take_prefix _ _).isInfix.trans (List.drop_suffix _ _).isInfix⟩
    rw [List.length_take, List.length_drop]
    omega
  · rintro ⟨rfl, before, after, rfl⟩
    refine ⟨before.length, ?_, ?_⟩
    · simp only [List.mem_range, List.length_append]
      omega
    · simp

theorem windows_mono {inner outer : List α} (inside : inner <:+: outer)
    (member : piece ∈ windows width inner) : piece ∈ windows width outer := by
  rw [mem_windows] at member ⊢
  exact ⟨member.1, member.2.trans inside⟩

theorem exists_window (long : width ≤ items.length) :
    ∃ piece, piece ∈ windows width items :=
  ⟨items.take width, mem_windows.mpr
    ⟨List.length_take_of_le long, (List.take_prefix width items).isInfix⟩⟩

/-- Wherever a stretch of `2 * width - 1` items begins, a whole tile lies in it. -/
theorem tile_in_stretch {stretch : List α} (positive : 0 < width)
    (inside : stretch <:+: items) (long : 2 * width - 1 ≤ stretch.length) :
    ∃ tile ∈ tiles width items, tile ∈ windows width stretch := by
  obtain ⟨before, after, rfl⟩ := inside
  -- The first tile that begins in the stretch.
  obtain ⟨index, first⟩ : ∃ index, index = (before.length + width - 1) / width := ⟨_, rfl⟩
  have remainder := Nat.div_add_mod (before.length + width - 1) width
  have small := Nat.mod_lt (before.length + width - 1) positive
  rw [← first, Nat.mul_comm] at remainder
  have lower : before.length ≤ index * width := by omega
  have upper : index * width ≤ before.length + width - 1 := by omega
  have cut : ((before ++ stretch ++ after).drop (index * width)).take width =
      (stretch.drop (index * width - before.length)).take width := by
    rw [List.append_assoc, List.drop_append, List.drop_eq_nil_of_le lower,
      List.nil_append, List.drop_append_of_le_length (by omega),
      List.take_append_of_le_length (by rw [List.length_drop]; omega)]
  refine ⟨_, List.mem_map.mpr ⟨index, ?_, rfl⟩, ?_⟩
  · rw [List.mem_range, Nat.lt_div_iff_mul_lt positive]
    simp only [List.length_append]
    omega
  · rw [cut, mem_windows, List.length_take, List.length_drop]
    refine ⟨by omega, ?_⟩
    exact (List.take_prefix _ _).isInfix.trans (List.drop_suffix _ _).isInfix

end Windows

end Graphorin.Lib
