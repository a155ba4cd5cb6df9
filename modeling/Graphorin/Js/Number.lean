import Mathlib.Algebra.Order.Ring.Rat
import Mathlib.Data.Rat.Floor

namespace Graphorin.Js

/-! Numbers that stand for a count or for a limit. -/

inductive Number
  | nan
  | negativeInfinity
  | finite (value : Rat)
  | infinity

namespace Number

/-- `count < number` -/
def admits (count : Nat) : Number → Bool
  | .finite value => (count : Rat) < value
  | .infinity => true
  | .nan | .negativeInfinity => false

/-- `count <= number` -/
def allows (count : Nat) : Number → Bool
  | .finite value => (count : Rat) ≤ value
  | .infinity => true
  | .nan | .negativeInfinity => false

/-- How many of so many things come before it admits no more. -/
def share (many : Nat) : Number → Nat
  | .finite value => min ⌈value⌉.toNat many
  | .infinity => many
  | .nan | .negativeInfinity => 0

def isWhole : Number → Bool
  | .finite value => value.den = 1
  | .infinity | .nan | .negativeInfinity => false

/-- The place where `slice(0, number)` ends, of a number that is not negative. -/
def place (length : Nat) : Number → Nat
  | .finite value => ⌊value⌋.toNat
  | .infinity => length
  | .nan | .negativeInfinity => 0

variable {number : Number} {fewer more : Nat}

theorem admits_mono (le : fewer ≤ more) (admitted : number.admits more = true) :
    number.admits fewer = true := by
  cases number with
  | finite =>
    rw [admits, decide_eq_true_eq] at admitted ⊢
    exact lt_of_le_of_lt (by exact_mod_cast le) admitted
  | infinity => rfl
  | nan => cases admitted
  | negativeInfinity => cases admitted

theorem allows_mono (le : fewer ≤ more) (allowed : number.allows more = true) :
    number.allows fewer = true := by
  cases number with
  | finite =>
    rw [allows, decide_eq_true_eq] at allowed ⊢
    exact le_trans (by exact_mod_cast le) allowed
  | infinity => rfl
  | nan => cases allowed
  | negativeInfinity => cases allowed

theorem share_le (many : Nat) (number : Number) : number.share many ≤ many := by
  cases number with
  | finite => exact Nat.min_le_right _ _
  | infinity => exact Nat.le_refl _
  | nan => exact Nat.zero_le _
  | negativeInfinity => exact Nat.zero_le _

theorem lt_ceil_iff (count : Nat) (value : Rat) :
    (count : Rat) < value ↔ count < ⌈value⌉.toNat := by
  rw [Int.lt_toNat, Int.lt_ceil]
  rfl

theorem share_all {many : Nat} (admitted : number.admits (number.share many) = true) :
    number.share many = many := by
  cases number with
  | finite value =>
    simp only [admits, decide_eq_true_eq, lt_ceil_iff, share] at admitted ⊢
    omega
  | infinity => rfl
  | nan => cases admitted
  | negativeInfinity => cases admitted

/-- One thing more makes a share grow as long as the number admits it. -/
theorem share_succ (many : Nat) (number : Number) :
    number.share (many + 1) =
      if number.admits (number.share many) then number.share many + 1
      else number.share many := by
  cases number with
  | finite value =>
    simp only [share, admits, lt_ceil_iff, decide_eq_true_eq]
    split <;> omega
  | infinity => rfl
  | nan => rfl
  | negativeInfinity => rfl

end Number

end Graphorin.Js
