import Mathlib.Data.Nat.Basic

namespace Graphorin.Lib

/-! Bisection for the last number that fits. -/

/-- The window is halved at most `fuel` times. -/
def bisect (fits : Nat → Bool) : Nat → Nat → Nat → Nat
  | 0, lo, _ => lo
  | fuel + 1, lo, hi =>
    if lo < hi then
      let mid := (lo + hi + 1) / 2
      if fits mid then bisect fits fuel mid hi else bisect fits fuel lo (mid - 1)
    else lo

variable {fits : Nat → Bool}

theorem bisect_within (fuel : Nat) {lo hi : Nat} (window : lo ≤ hi) :
    lo ≤ bisect fits fuel lo hi ∧ bisect fits fuel lo hi ≤ hi := by
  induction fuel generalizing lo hi with
  | zero => exact ⟨Nat.le_refl _, window⟩
  | succ _ ih =>
    rw [bisect]
    split
    · simp only
      split
      · have later := @ih ((lo + hi + 1) / 2) hi (by omega)
        omega
      · have later := @ih lo ((lo + hi + 1) / 2 - 1) (by omega)
        omega
    · exact ⟨Nat.le_refl _, window⟩

theorem bisect_fits (fuel : Nat) {lo hi : Nat} :
    bisect fits fuel lo hi = lo ∨ fits (bisect fits fuel lo hi) = true := by
  induction fuel generalizing lo hi with
  | zero => exact .inl rfl
  | succ fuel ih =>
    rw [bisect]
    split
    · simp only
      split
      · rename_i fit
        rcases @ih ((lo + hi + 1) / 2) hi with same | found
        · rw [same]
          exact .inr fit
        · exact .inr found
      · exact ih
    · exact .inl rfl

theorem bisect_last (closed : ∀ small large, 0 < small → small ≤ large →
    fits large = true → fits small = true) {fuel lo hi top : Nat} (enough : hi - lo ≤ fuel)
    (above : ∀ number, hi < number → number ≤ top → fits number = false) :
    ∀ number, bisect fits fuel lo hi < number → number ≤ top → fits number = false := by
  induction fuel generalizing lo hi with
  | zero =>
    intro number past inside
    exact above number (by rw [bisect] at past; omega) inside
  | succ fuel ih =>
    rw [bisect]
    split
    · simp only
      split
      · exact ih (by omega) above
      · rename_i unfit
        refine ih (by omega) fun number past inside => ?_
        cases found : fits number with
        | false => rfl
        | true => exact absurd (closed _ number (by omega) (by omega) found) unfit
    · exact fun number past inside => above number (by omega) inside

end Graphorin.Lib
