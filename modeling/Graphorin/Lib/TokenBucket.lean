import Mathlib.Algebra.BigOperators.Group.List.Basic
import Mathlib.Algebra.Order.Ring.Defs
import Mathlib.Tactic.Linarith
import Mathlib.Tactic.Ring

namespace Graphorin.Lib

/-! A bucket that fills at a rate up to its capacity and is filled lazily, when it is looked
at. Whatever is taken from it in any window of time is bounded by the capacity and what flowed
in during the window. -/

variable {K : Type} [CommRing K] [LinearOrder K]

structure TokenBucket (K : Type) where
  tokens : K
  lastRefill : K

structure Taking (K : Type) where
  time : K
  amount : K

namespace TokenBucket

def refill (capacity rate : K) (bucket : TokenBucket K) (now : K) : TokenBucket K :=
  ⟨min capacity (bucket.tokens + (now - bucket.lastRefill) * rate), now⟩

def take (bucket : TokenBucket K) (amount : K) : TokenBucket K :=
  { bucket with tokens := bucket.tokens - amount }

def within (first last : K) (taking : Taking K) : K :=
  if first ≤ taking.time ∧ taking.time ≤ last then taking.amount else 0

def takenBetween (takings : List (Taking K)) (first last : K) : K :=
  (takings.map (within first last)).sum

/-- What is in the bucket was not taken, so the window that ends with the last refill leaves
room for it. -/
structure Bounded (capacity rate : K) (bucket : TokenBucket K) (takings : List (Taking K)) :
    Prop where
  filled : 0 ≤ bucket.tokens
  fits : bucket.tokens ≤ capacity
  past : ∀ taking ∈ takings, taking.time ≤ bucket.lastRefill
  since : ∀ first ≤ bucket.lastRefill,
    takenBetween takings first bucket.lastRefill + bucket.tokens ≤
      capacity + (bucket.lastRefill - first) * rate
  between : ∀ first last, first ≤ last →
    takenBetween takings first last ≤ capacity + (last - first) * rate

variable {capacity rate : K} {bucket : TokenBucket K} {takings : List (Taking K)}

variable {later : K}

theorem takenBetween_past {last : K} (past : ∀ taking ∈ takings, taking.time ≤ last)
    (order : last ≤ later) (first : K) :
    takenBetween takings first later = takenBetween takings first last := by
  refine congrArg List.sum (List.map_congr_left fun taking among => ?_)
  have early := past taking among
  rw [within, within]
  simp only [early, early.trans order]

theorem takenBetween_none {first : K} (past : ∀ taking ∈ takings, taking.time < first)
    (last : K) : takenBetween takings first last = 0 := by
  refine List.sum_eq_zero fun amount among => ?_
  obtain ⟨taking, listed, rfl⟩ := List.mem_map.mp among
  rw [within, if_neg]
  rintro ⟨after, -⟩
  exact absurd (past taking listed) (not_lt.mpr after)

theorem takenBetween_append (taking : Taking K) (first last : K) :
    takenBetween (takings ++ [taking]) first last =
      takenBetween takings first last + within first last taking := by
  rw [takenBetween, List.map_append, List.sum_append, List.map_singleton,
    List.sum_singleton, takenBetween]

variable [IsStrictOrderedRing K]

variable {now : K}

/-- Looking at a bucket early loses nothing of what a later look finds. -/
theorem refill_refill (steady : 0 ≤ rate) (order : now ≤ later) :
    refill capacity rate (refill capacity rate bucket now) later =
      refill capacity rate bucket later := by
  have flow : 0 ≤ (later - now) * rate := mul_nonneg (sub_nonneg.mpr order) steady
  have split : bucket.tokens + (now - bucket.lastRefill) * rate + (later - now) * rate =
      bucket.tokens + (later - bucket.lastRefill) * rate := by
    ring
  simp only [refill, mk.injEq, and_true]
  rw [min_add, split, ← min_assoc, min_eq_left (le_add_of_nonneg_right flow)]

/-- After the time it takes to flow in, an amount that fits is there. -/
theorem le_refill_tokens {amount : K} (fits : amount ≤ capacity)
    (flow : amount - bucket.tokens ≤ (now - bucket.lastRefill) * rate) :
    amount ≤ (refill capacity rate bucket now).tokens :=
  le_min fits (by linarith)

namespace Bounded

theorem full (positive : 0 ≤ capacity) (steady : 0 ≤ rate) (now : K) :
    Bounded capacity rate ⟨capacity, now⟩ [] where
  filled := positive
  fits := le_rfl
  past := nofun
  since first order := by
    have flow := mul_nonneg (sub_nonneg.mpr order) steady
    show 0 + capacity ≤ capacity + (now - first) * rate
    linarith
  between first last order := by
    have flow := mul_nonneg (sub_nonneg.mpr order) steady
    show 0 ≤ capacity + (last - first) * rate
    linarith

theorem refill (bounded : Bounded capacity rate bucket takings) (steady : 0 ≤ rate) {now : K}
    (order : bucket.lastRefill ≤ now) :
    Bounded capacity rate (bucket.refill capacity rate now) takings where
  filled := le_min (bounded.filled.trans bounded.fits)
    (add_nonneg bounded.filled (mul_nonneg (sub_nonneg.mpr order) steady))
  fits := min_le_left _ _
  past taking among := (bounded.past taking among).trans order
  since first before := by
    show takenBetween takings first now + min capacity _ ≤ _
    rcases le_or_gt first bucket.lastRefill with early | late
    · have earlier := bounded.since first early
      have flown := min_le_right capacity
        (bucket.tokens + (now - bucket.lastRefill) * rate)
      rw [takenBetween_past bounded.past order]
      have split : (now - first) * rate = (bucket.lastRefill - first) * rate +
          (now - bucket.lastRefill) * rate := by
        ring
      show _ ≤ capacity + (now - first) * rate
      linarith
    · have flow : 0 ≤ (now - first) * rate := mul_nonneg (sub_nonneg.mpr before) steady
      have held := min_le_left capacity (bucket.tokens + (now - bucket.lastRefill) * rate)
      rw [takenBetween_none fun taking among => (bounded.past taking among).trans_lt late]
      show _ ≤ capacity + (now - first) * rate
      linarith
  between := bounded.between

theorem take (bounded : Bounded capacity rate bucket takings) (steady : 0 ≤ rate) {amount : K}
    (positive : 0 ≤ amount) (there : amount ≤ bucket.tokens) :
    Bounded capacity rate (bucket.take amount)
      (takings ++ [⟨bucket.lastRefill, amount⟩]) where
  filled := sub_nonneg.mpr there
  fits := (sub_le_self _ positive).trans bounded.fits
  past := by
    intro taking among
    rcases List.mem_append.mp among with earlier | last
    · exact bounded.past taking earlier
    · rw [List.mem_singleton.mp last]
      exact le_rfl
  since first order := by
    have earlier := bounded.since first order
    rw [takenBetween_append, within, if_pos ⟨order, le_rfl⟩]
    show takenBetween takings first bucket.lastRefill + amount + (bucket.tokens - amount) ≤
      capacity + (bucket.lastRefill - first) * rate
    linarith
  between first last order := by
    rw [takenBetween_append, within]
    split
    · rename_i inside
      have earlier := bounded.since first inside.1
      have flow := mul_nonneg (sub_nonneg.mpr inside.2) steady
      have split : (last - first) * rate = (bucket.lastRefill - first) * rate +
          (last - bucket.lastRefill) * rate := by
        ring
      rw [takenBetween_past bounded.past inside.2]
      show _ + amount ≤ _
      linarith
    · rw [add_zero]
      exact bounded.between first last order

end Bounded

end TokenBucket

end Graphorin.Lib
