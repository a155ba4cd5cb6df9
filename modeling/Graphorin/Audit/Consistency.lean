import Graphorin.Audit.Inclusion
import Graphorin.Audit.Log

namespace Graphorin.Audit

open Graphorin.Js Graphorin.Lib

/-! Consistency proofs, and checkpoints that are verified with them. -/

def isPowerOfTwo (n : Int) : Bool :=
  0 < n && (toInt32 n &&& toInt32 (n - 1)).toInt == 0

/-- `while ((fn & 1) === 1)`.  What is odd after 32 turns is `-1` and stays so:
`none` is a loop that does not end. -/
def skipOdd : Nat → Int → Int → Option (Int × Int)
  | 0, fn, sn => if lowBit fn = 1 then none else some (fn, sn)
  | turns + 1, fn, sn =>
    if lowBit fn = 1 then skipOdd turns (shiftOne fn) (shiftOne sn)
    else some (fn, sn)

/-- The loop of `verifyAuditConsistency`; `none` where it returns `false`. -/
def foldBoth : List Bytes → Int → Int → Bytes → Bytes → Option (Int × Bytes × Bytes)
  | [], _, sn, fr, sr => some (sn, fr, sr)
  | c :: rest, fn, sn, fr, sr =>
    if sn = 0 then none
    else if lowBit fn = 1 ∨ fn = sn then
      foldBoth rest (shiftOne (collapsed fn sn).1) (shiftOne (collapsed fn sn).2)
        (nodeHash c fr) (nodeHash c sr)
    else foldBoth rest (shiftOne fn) (shiftOne sn) fr (nodeHash sr c)

def foldBothInputs : List Bytes → Int → Int → Bytes → Bytes → List Bytes
  | [], _, _, _, _ => []
  | c :: rest, fn, sn, fr, sr =>
    if sn = 0 then []
    else if lowBit fn = 1 ∨ fn = sn then
      nodeInput c fr :: nodeInput c sr ::
        foldBothInputs rest (shiftOne (collapsed fn sn).1)
          (shiftOne (collapsed fn sn).2) (nodeHash c fr) (nodeHash c sr)
    else
      nodeInput sr c ::
        foldBothInputs rest (shiftOne fn) (shiftOne sn) fr (nodeHash sr c)

def fullPath (older : AuditTreeHead) (proof : List String) : List Bytes :=
  if isPowerOfTwo older.size then
    Bytes.fromHex older.rootHash :: proof.map Bytes.fromHex
  else proof.map Bytes.fromHex

/-- `none` when it does not return. -/
def verifyAuditConsistency (older newer : AuditTreeHead) (proof : List String) :
    Option Bool :=
  if older.size > newer.size then some false
  else if older.size = 0 then some true
  else if older.size = newer.size then
    some (older.rootHash == newer.rootHash && proof.length == 0)
  else
    match fullPath older proof with
    | [] => some false
    | seed :: rest =>
      match skipOdd 32 (older.size - 1) (newer.size - 1) with
      | none => none
      | some (fn, sn) =>
        match foldBoth rest fn sn seed seed with
        | none => some false
        | some (sn, fr, sr) =>
          some (fr.toHex == older.rootHash && sr.toHex == newer.rootHash &&
            sn == 0)

/-- What `verifyAuditConsistency` hashes. -/
def consistencyInputs (older newer : AuditTreeHead) (proof : List String) :
    List Bytes :=
  match fullPath older proof, skipOdd 32 (older.size - 1) (newer.size - 1) with
  | seed :: rest, some (fn, sn) => foldBothInputs rest fn sn seed seed
  | _, _ => []

variable {fn sn : Nat}

theorem skipOdd_leftBranch (small : fn < 2 ^ 31) (small' : sn < 2 ^ 31)
    (enough : fn < 2 ^ turns) : skipOdd turns (fn : Int) sn =
      some (((Pairing.leftBranch fn sn).1 : Int),
        ((Pairing.leftBranch fn sn).2 : Int)) := by
  induction turns generalizing fn sn with
  | zero =>
    obtain rfl : fn = 0 := by omega
    rw [skipOdd, lowBit_nat small, if_neg (by decide), Pairing.leftBranch_even rfl]
  | succ _ ih =>
    rw [skipOdd, lowBit_nat small]
    rcases Nat.mod_two_eq_zero_or_one fn with even | odd
    · rw [even, if_neg (by decide), Pairing.leftBranch_even even]
    · rw [odd, if_pos (by decide), shiftOne_nat small, shiftOne_nat small',
        ih (by omega) (by omega) (by rw [Nat.pow_succ] at enough; omega),
        Pairing.leftBranch_odd odd]

theorem foldBoth_climbBoth (path : List Bytes) (fr sr : Bytes) (inside : fn ≤ sn)
    (small : sn < 2 ^ 31) : reachedTop (foldBoth path (fn : Int) sn fr sr) =
      Pairing.climbBoth nodeHash fn sn path fr sr := by
  induction path generalizing fn sn fr sr with
  | nil =>
    rw [foldBoth, reachedTop]
    by_cases top : sn = 0
    · rw [if_pos (by omega), Pairing.climbBoth, if_pos top]
      rfl
    · rw [if_neg (by omega), Pairing.climbBoth_nil inside (by omega)]
  | cons c rest ih =>
    rw [foldBoth]
    by_cases top : sn = 0
    · rw [if_pos (by omega), Pairing.climbBoth.eq_def, if_pos top]
      rfl
    rw [if_neg (by omega)]
    rcases turn_cases inside small top with
      ⟨joins, fn', sn', up, up', odd, inside', below, moves⟩ | ⟨passes, up, up', even, apart⟩
    · rw [if_pos joins, up, up', ih _ _ (by omega) (by omega),
        moves (Pairing.climbBoth nodeHash · · (c :: rest) fr sr)
          fun _ above even => Pairing.climbBoth_moved above even,
        Pairing.climbBoth_left (by omega) odd]
    · rw [if_neg passes, up, up', ih _ _ (by omega) (by omega),
        Pairing.climbBoth_right (by omega) even apart]

theorem foldBothInputs_climbedBoth (path : List Bytes) (fr sr : Bytes) (inside : fn ≤ sn)
    (small : sn < 2 ^ 31) : foldBothInputs path (fn : Int) sn fr sr =
      (Pairing.climbedBoth nodeHash fn sn path fr sr).map fun pair =>
        nodeInput pair.1 pair.2 := by
  induction path generalizing fn sn fr sr with
  | nil => rw [foldBothInputs, Pairing.climbedBoth_nil inside, List.map_nil]
  | cons c rest ih =>
    rw [foldBothInputs]
    by_cases top : sn = 0
    · rw [if_pos (by omega), Pairing.climbedBoth.eq_def, if_pos top, List.map_nil]
    rw [if_neg (by omega)]
    rcases turn_cases inside small top with
      ⟨joins, fn', sn', up, up', odd, inside', below, moves⟩ | ⟨passes, up, up', even, apart⟩
    · rw [if_pos joins, up, up', ih _ _ (by omega) (by omega),
        moves (Pairing.climbedBoth nodeHash · · (c :: rest) fr sr)
          fun _ above even => Pairing.climbedBoth_moved above even,
        Pairing.climbedBoth_left (by omega) odd]
      rfl
    · rw [if_neg passes, up, up', ih _ _ (by omega) (by omega),
        Pairing.climbedBoth_right (by omega) even apart]
      rfl

theorem isPowerOfTwo_nat {n : Nat} (small : n < 2 ^ 31) :
    isPowerOfTwo n = true ↔ n.isPowerOfTwo := by
  by_cases positive : 0 < n
  · have before : ((n : Int) - 1) = ((n - 1 : Nat) : Int) := by omega
    have masked : (toInt32 n &&& toInt32 ((n - 1 : Nat) : Int)).toNat =
        n &&& (n - 1) := by
      rw [BitVec.toNat_and, toNat_toInt32 small, toNat_toInt32 (by omega)]
    have bounded := @Nat.and_le_left n (n - 1)
    have value : (toInt32 n &&& toInt32 ((n - 1 : Nat) : Int)).toInt =
        ((n &&& (n - 1) : Nat) : Int) := by
      rw [BitVec.toInt_eq_toNat_of_lt, masked]
      rw [masked]
      omega
    rw [isPowerOfTwo, before, value,
      ← Nat.and_sub_one_eq_zero_iff_isPowerOfTwo (by omega)]
    simp [positive]
  · obtain rfl : n = 0 := by omega
    simp only [isPowerOfTwo, Int.natCast_zero, lt_self_iff_false, decide_false,
      Bool.false_and, Bool.false_eq_true, false_iff]
    rintro ⟨exponent, power⟩
    exact absurd power (Nat.two_pow_pos exponent).ne

variable {n : Nat}

theorem largestPowerOfTwoBelow_unique (below : 2 ^ depth < n) (above : n ≤ 2 * 2 ^ depth) :
    largestPowerOfTwoBelow n = 2 ^ depth := by
  have positive := Nat.two_pow_pos depth
  obtain ⟨depth', power, below', above'⟩ :=
    @largestPowerOfTwoBelow_spec n (by omega)
  rw [power]
  have same : depth' = depth := by
    rcases Nat.lt_trichotomy depth' depth with less | same | more
    · have grows := Nat.pow_le_pow_right (show 0 < 2 by decide) less
      rw [Nat.succ_eq_add_one, Nat.pow_succ] at grows
      omega
    · exact same
    · have grows := Nat.pow_le_pow_right (show 0 < 2 by decide) more
      rw [Nat.succ_eq_add_one, Nat.pow_succ] at grows
      omega
  rw [same]

/-- From three leaves on, the cut is between two pairs. -/
theorem cut_pairUp {leaves : List Bytes} (several : 3 ≤ leaves.length) :
    2 * largestPowerOfTwoBelow (Pairing.pairUp nodeHash leaves).length =
        largestPowerOfTwoBelow leaves.length ∧
      lower (Pairing.pairUp nodeHash leaves) =
        Pairing.pairUp nodeHash (lower leaves) ∧
      upper (Pairing.pairUp nodeHash leaves) =
        Pairing.pairUp nodeHash (upper leaves) := by
  obtain ⟨depth, power, below, above⟩ :=
    @largestPowerOfTwoBelow_spec leaves.length (by omega)
  cases depth with
  | zero => omega
  | succ depth =>
    have half : largestPowerOfTwoBelow
        (Pairing.pairUp nodeHash leaves).length = 2 ^ depth := by
      rw [Nat.pow_succ] at below above
      apply largestPowerOfTwoBelow_unique
      · rw [Pairing.pairUp_length]
        omega
      · rw [Pairing.pairUp_length]
        omega
    have whole : 2 * 2 ^ depth = largestPowerOfTwoBelow leaves.length := by
      rw [power, Nat.pow_succ]
      omega
    have left := lower_length (show 2 ≤ leaves.length by omega)
    have split := Pairing.pairUp_append nodeHash (upper leaves)
      (show (lower leaves).length % 2 = 0 by omega)
    have size : (Pairing.pairUp nodeHash (lower leaves)).length = 2 ^ depth := by
      rw [Pairing.pairUp_length]
      omega
    rw [lower_append_upper] at split
    refine ⟨by rw [half]; exact whole, ?_, ?_⟩
    · rw [lower.eq_def (Pairing.pairUp nodeHash leaves), half, split, ← size,
        List.take_left]
    · rw [upper.eq_def (Pairing.pairUp nodeHash leaves), half, split, ← size,
        List.drop_left]

variable {leaves : List Bytes}

theorem merkleTreeHash_pairUp (nonempty : leaves ≠ []) :
    merkleTreeHash (Pairing.pairUp nodeHash leaves) = merkleTreeHash leaves := by
  have positive := List.length_pos_iff.mpr nonempty
  have above : Pairing.pairUp nodeHash leaves ≠ [] := by
    rw [← List.length_pos_iff, Pairing.pairUp_length]
    omega
  have same := @Pairing.root_pairUp_self _ nodeHash leaves
  rw [root_merkleTreeHash above, root_merkleTreeHash nonempty] at same
  exact Option.some.inj same

theorem consistencyPath_whole {leaves : List Bytes} {m : Nat} {complete : Bool}
    (whole : m = leaves.length) :
    consistencyPath m leaves complete =
      if complete then [] else [merkleTreeHash leaves] := by
  rw [consistencyPath, if_pos whole]

variable {m : Nat} {complete : Bool}

theorem consistencyPath_lower (several : 2 ≤ leaves.length) (inside : m ≠ leaves.length)
    (first : m ≤ largestPowerOfTwoBelow leaves.length) :
    consistencyPath m leaves complete = consistencyPath m (lower leaves) complete ++
        [merkleTreeHash (upper leaves)] := by
  rw [consistencyPath, if_neg inside, dif_pos several, if_pos first]

theorem consistencyPath_upper (several : 2 ≤ leaves.length) (inside : m ≠ leaves.length)
    (second : ¬ m ≤ largestPowerOfTwoBelow leaves.length) :
    consistencyPath m leaves complete =
      consistencyPath (m - largestPowerOfTwoBelow leaves.length) (upper leaves)
          false ++ [merkleTreeHash (lower leaves)] := by
  rw [consistencyPath, if_neg inside, dif_pos several, if_neg second]

theorem consistencyPath_even (even : m % 2 = 0) (some' : 0 < m) (inside : m ≤ leaves.length) :
    consistencyPath m leaves complete =
      consistencyPath (m / 2) (Pairing.pairUp nodeHash leaves) complete := by
  induction leaves using leaves_induction generalizing m complete with
  | few => omega
  | cut leaves several ours theirs =>
    have size := Pairing.pairUp_length nodeHash leaves
    have nonempty : leaves ≠ [] := List.length_pos_iff.mp (by omega)
    by_cases whole : m = leaves.length
    · rw [consistencyPath_whole whole, consistencyPath_whole (by omega),
        merkleTreeHash_pairUp nonempty]
    · obtain ⟨half, left, right⟩ := @cut_pairUp leaves (by omega)
      have count := lower_length several
      have count' := upper_length leaves
      have bounds := largestPowerOfTwoBelow_bounds several
      have bounds' := @largestPowerOfTwoBelow_bounds
        (Pairing.pairUp nodeHash leaves).length (by omega)
      have inner : m / 2 ≠ (Pairing.pairUp nodeHash leaves).length := by omega
      obtain ⟨depth, cut⟩ := cut_leaves several
      by_cases first : m ≤ largestPowerOfTwoBelow leaves.length
      · rw [consistencyPath_lower several whole first,
          consistencyPath_lower (by omega) inner (by omega), left, right,
          merkleTreeHash_pairUp cut.rest, ours even some' (by omega)]
      · rw [consistencyPath_upper several whole first,
          consistencyPath_upper (by omega) inner (by omega), left, right,
          merkleTreeHash_pairUp (lower_ne_nil several),
          theirs (by omega) (by omega) (by omega)]
        congr 2
        omega

theorem consistencyPath_odd {leaves : List Bytes} {m : Nat} {complete : Bool}
    {last : Bytes} (odd : m % 2 = 1)
    (inside : m < leaves.length ∨ leaves.length = 1)
    (here : leaves[m - 1]? = some last) :
    consistencyPath m leaves complete =
      (if complete = true ∧ m = 1 then [] else [last]) ++
        Pairing.siblings nodeHash (m - 1) leaves := by
  have bound := (List.getElem?_eq_some_iff.mp here).1
  induction leaves using leaves_induction generalizing m complete with
  | few leaves =>
    obtain ⟨leaf, rfl⟩ := List.length_eq_one_iff.mp
      (show leaves.length = 1 by omega)
    obtain rfl : m = 1 := by simp at bound; omega
    cases here
    rw [@consistencyPath_whole [last] 1 complete rfl,
      Pairing.siblings_one (by simp), merkleTreeHash_one]
    cases complete <;> rfl
  | cut leaves several ours theirs =>
    have count := lower_length several
    have count' := upper_length leaves
    have bounds := largestPowerOfTwoBelow_bounds several
    obtain ⟨depth, cut⟩ := cut_leaves several
    obtain ⟨exponent, power, -, room⟩ := largestPowerOfTwoBelow_spec several
    rw [← power] at room
    have parity : largestPowerOfTwoBelow leaves.length = 1 ∨
        largestPowerOfTwoBelow leaves.length % 2 = 0 := by
      rw [power]
      cases exponent with
      | zero => exact .inl rfl
      | succ =>
        rw [Nat.pow_succ]
        exact .inr (by omega)
    have joined := lower_append_upper leaves
    by_cases first : m ≤ largestPowerOfTwoBelow leaves.length
    · have there : (lower leaves)[m - 1]? = some last := by
        rwa [← joined, List.getElem?_append_left (by omega)] at here
      rw [consistencyPath_lower several (by omega) first,
        ours odd (by omega) there (by omega), List.append_assoc,
        ← cut.siblings_left (by omega) (root_merkleTreeHash cut.rest), joined]
    · have there : (upper leaves)[m - largestPowerOfTwoBelow leaves.length - 1]? =
          some last := by
        rw [← joined, List.getElem?_append_right (by omega), count] at here
        rw [← here]
        congr 1
        omega
      rw [consistencyPath_upper several (by omega) first,
        theirs (by omega) (by omega) there (by omega), List.append_assoc,
        ← cut.siblings_right (by omega)
          (root_merkleTreeHash (lower_ne_nil several)), joined,
        if_neg (by simp), if_neg (by omega), count]
      congr 2
      omega

theorem isPowerOfTwo_half (even : m % 2 = 0) (some' : 0 < m) :
    m.isPowerOfTwo ↔ (m / 2).isPowerOfTwo := by
  constructor
  · rintro ⟨exponent, rfl⟩
    cases exponent with
    | zero => cases even
    | succ exponent => exact ⟨exponent, by rw [Nat.pow_succ]; omega⟩
  · rintro ⟨exponent, half⟩
    exact ⟨exponent + 1, by rw [Nat.pow_succ]; omega⟩

theorem isPowerOfTwo_odd (odd : m % 2 = 1) : m.isPowerOfTwo ↔ m = 1 := by
  constructor
  · rintro ⟨exponent, rfl⟩
    cases exponent with
    | zero => rfl
    | succ =>
      rw [Nat.pow_succ] at odd
      omega
  · rintro rfl
    exact ⟨0, rfl⟩

theorem take_ne_nil (some' : 0 < m) (inside : m ≤ leaves.length) : leaves.take m ≠ [] := by
  rw [← List.length_pos_iff, List.length_take]
  omega

/-- Halving the older tree halves the newer one. -/
theorem leftBranch_half (even : m % 2 = 0) (some' : 0 < m) :
    Pairing.leftBranch (m - 1) (n - 1) =
      Pairing.leftBranch (m / 2 - 1) ((n + 1) / 2 - 1) := by
  rw [Pairing.leftBranch_odd (by omega)]
  congr 1
  · omega
  · omega

theorem merkleTreeHash_take (even : m % 2 = 0) (some' : 0 < m) (inside : m ≤ leaves.length) :
    merkleTreeHash ((Pairing.pairUp nodeHash leaves).take (m / 2)) =
      merkleTreeHash (leaves.take m) := by
  rw [← Pairing.pairUp_take nodeHash leaves even,
    merkleTreeHash_pairUp (take_ne_nil some' inside)]

/-- The honest path leads to both roots.  The seed is its first node, unless the
older root is a node of the newer tree. -/
theorem honest_climbs (some' : 0 < m) (inside : m < leaves.length) : ∃ seed rest,
      (m.isPowerOfTwo → seed = merkleTreeHash (leaves.take m) ∧
        consistencyPath m leaves true = rest) ∧
      (¬ m.isPowerOfTwo → consistencyPath m leaves true = seed :: rest) ∧
      Pairing.climbBoth nodeHash (Pairing.leftBranch (m - 1) (leaves.length - 1)).1
          (Pairing.leftBranch (m - 1) (leaves.length - 1)).2 rest seed seed =
        some (merkleTreeHash (leaves.take m), merkleTreeHash leaves) := by
  induction m using Nat.strongRecOn generalizing leaves with
  | ind m ih =>
    have nonempty : leaves ≠ [] := List.length_pos_iff.mp (by omega)
    rcases Nat.mod_two_eq_zero_or_one m with even | odd
    · have size := Pairing.pairUp_length nodeHash leaves
      obtain ⟨seed, rest, seeded, first, climbs⟩ :=
        @ih (m / 2) (by omega) (Pairing.pairUp nodeHash leaves) (by omega)
          (by omega)
      rw [← isPowerOfTwo_half even some', merkleTreeHash_take even some' (by omega),
        ← consistencyPath_even even some' (by omega)] at seeded
      rw [← isPowerOfTwo_half even some',
        ← consistencyPath_even even some' (by omega)] at first
      rw [merkleTreeHash_take even some' (by omega),
        merkleTreeHash_pairUp nonempty, size, ← leftBranch_half even some']
        at climbs
      exact ⟨seed, rest, seeded, first, climbs⟩
    · obtain ⟨last, here⟩ : ∃ last, leaves[m - 1]? = some last :=
        ⟨_, List.getElem?_eq_getElem (by omega)⟩
      have path := @consistencyPath_odd leaves m true last odd (.inl inside) here
      have ends : (leaves.take m).length = m - 1 + 1 := by
        rw [List.length_take]
        omega
      obtain ⟨tops, climbs, older, newer⟩ := Pairing.climbBoth_siblings nodeHash
        ends (fun before earlier => List.getElem?_take_of_lt (by omega))
        ((List.getElem?_take_of_lt (by omega)).trans here) here
      rw [root_merkleTreeHash (take_ne_nil some' (by omega))] at older
      rw [root_merkleTreeHash nonempty] at newer
      rw [Pairing.leftBranch_even (by omega)]
      refine ⟨last, Pairing.siblings nodeHash (m - 1) leaves, ?_, ?_, ?_⟩
      · rw [isPowerOfTwo_odd odd]
        rintro rfl
        rw [path, if_pos ⟨rfl, rfl⟩]
        refine ⟨?_, rfl⟩
        obtain ⟨leaf, others, rfl⟩ := List.exists_cons_of_ne_nil nonempty
        cases here
        exact (merkleTreeHash_one _).symm
      · rw [isPowerOfTwo_odd odd]
        intro more
        rw [path, if_neg (by omega)]
        rfl
      · rw [climbs, Option.some.inj older, Option.some.inj newer]

variable {proof : List String}

variable {older newer : AuditTreeHead}

theorem verifyAuditConsistency_iff (size : older.size = m) (size' : newer.size = n)
    (some' : 0 < m) (shorter : m < n) (small : n < 2 ^ 31) :
    verifyAuditConsistency older newer proof = some true ↔
      ∃ seed rest tops, fullPath older proof = seed :: rest ∧
        Pairing.climbBoth nodeHash (Pairing.leftBranch (m - 1) (n - 1)).1
            (Pairing.leftBranch (m - 1) (n - 1)).2 rest seed seed = some tops ∧
        tops.1.toHex = older.rootHash ∧ tops.2.toHex = newer.rootHash := by
  have last : older.size - 1 = ((m - 1 : Nat) : Int) := by omega
  have last' : newer.size - 1 = ((n - 1 : Nat) : Int) := by omega
  obtain ⟨bound, bound'⟩ := Pairing.leftBranch_le (show m - 1 ≤ n - 1 by omega)
  rw [verifyAuditConsistency, if_neg (by omega), if_neg (by omega),
    if_neg (by omega)]
  cases full : fullPath older proof with
  | nil => simp
  | cons seed rest =>
    have climbs := foldBoth_climbBoth rest seed seed bound (by omega)
    simp only [last, last', List.cons.injEq]
    rw [skipOdd_leftBranch (by omega) (by omega) (by omega)]
    simp only
    cases folded : foldBoth rest (Pairing.leftBranch (m - 1) (n - 1)).1
        (Pairing.leftBranch (m - 1) (n - 1)).2 seed seed with
    | none =>
      rw [folded, reachedTop] at climbs
      simp only [Option.some.injEq, Bool.false_eq_true, false_iff]
      rintro ⟨_, _, tops, ⟨rfl, rfl⟩, reached, -⟩
      rw [reached] at climbs
      cases climbs
    | some found =>
      obtain ⟨sn, fr, sr⟩ := found
      rw [folded, reachedTop] at climbs
      simp only [Option.some.injEq, Bool.and_eq_true, beq_iff_eq]
      constructor
      · rintro ⟨⟨first, second⟩, top⟩
        rw [if_pos top] at climbs
        exact ⟨seed, rest, (fr, sr), ⟨rfl, rfl⟩, climbs.symm, first, second⟩
      · rintro ⟨_, _, tops, ⟨rfl, rfl⟩, reached, first, second⟩
        rw [reached] at climbs
        split at climbs
        · rename_i top
          cases climbs
          exact ⟨⟨first, second⟩, top⟩
        · cases climbs

theorem verifyAuditConsistency_same (some' : 0 < m) (size : older.size = m)
    (size' : newer.size = m) : verifyAuditConsistency older newer proof =
      some (older.rootHash == newer.rootHash && proof.length == 0) := by
  rw [verifyAuditConsistency, if_neg (by omega), if_neg (by omega),
    if_pos (size.trans size'.symm)]

theorem consistencyInputs_climbedBoth {older newer : AuditTreeHead}
    {proof : List String} {m n : Nat} {seed : Bytes} {rest : List Bytes}
    (size : older.size = m) (size' : newer.size = n) (some' : 0 < m)
    (shorter : m < n) (small : n < 2 ^ 31)
    (full : fullPath older proof = seed :: rest) :
    consistencyInputs older newer proof =
      (Pairing.climbedBoth nodeHash (Pairing.leftBranch (m - 1) (n - 1)).1
        (Pairing.leftBranch (m - 1) (n - 1)).2 rest seed seed).map fun pair =>
          nodeInput pair.1 pair.2 := by
  have last : older.size - 1 = ((m - 1 : Nat) : Int) := by omega
  have last' : newer.size - 1 = ((n - 1 : Nat) : Int) := by omega
  obtain ⟨bound, bound'⟩ := Pairing.leftBranch_le (show m - 1 ≤ n - 1 by omega)
  rw [consistencyInputs, full, last, last',
    skipOdd_leftBranch (by omega) (by omega) (by omega)]
  exact foldBothInputs_climbedBoth rest seed seed bound (by omega)

theorem consistency_complete {leaves : List Bytes} {m : Nat}
    {lastSeq lastSeq' : Int} (small : leaves.length < 2 ^ 31) (some' : 0 < m)
    (inside : m ≤ leaves.length) :
    verifyAuditConsistency (treeHead (leaves.take m) lastSeq)
      (treeHead leaves lastSeq')
      ((consistencyPath m leaves true).map Bytes.toHex) = some true := by
  have count : (leaves.take m).length = m := by
    rw [List.length_take]
    omega
  rcases Nat.lt_or_eq_of_le inside with shorter | rfl
  · obtain ⟨seed, rest, seeded, first, climbs⟩ := honest_climbs some' shorter
    rw [verifyAuditConsistency_iff (congrArg Int.ofNat count) rfl some' shorter
      small]
    refine ⟨seed, rest, _, ?_, climbs, rfl, rfl⟩
    have decoded : ((consistencyPath m leaves true).map Bytes.toHex).map
        Bytes.fromHex = consistencyPath m leaves true := by
      rw [List.map_map]
      exact List.map_id'' Bytes.fromHex_toHex _
    rw [fullPath, decoded]
    have power := @isPowerOfTwo_nat m (by omega)
    simp only [treeHead, count, Bytes.fromHex_toHex]
    split
    · rename_i powered
      obtain ⟨rfl, path⟩ := seeded (power.mp powered)
      rw [path]
    · rename_i other
      exact first (fun powered => other (power.mpr powered))
  · rw [List.take_length, consistencyPath_whole rfl,
      verifyAuditConsistency_same some' rfl rfl]
    simp [treeHead]

theorem consistency_sound {older newer : List Bytes} {lastSeq lastSeq' : Int}
    (digests : ∀ leaf ∈ older, IsDigest leaf) (digests' : ∀ leaf ∈ newer, IsDigest leaf)
    (free : CollisionFree (treeInputs older ++ treeInputs newer ++
      consistencyInputs (treeHead older lastSeq) (treeHead newer lastSeq') proof))
    (some' : 1 ≤ older.length) (inside : older.length ≤ newer.length)
    (small : newer.length < 2 ^ 31)
    (accepted : verifyAuditConsistency (treeHead older lastSeq) (treeHead newer lastSeq') proof =
      some true) :
    older <+: newer := by
  have nonempty : older ≠ [] := List.length_pos_iff.mp some'
  have nonempty' : newer ≠ [] := List.length_pos_iff.mp (by omega)
  obtain ⟨inputs, named⟩ : ∃ inputs, inputs = treeInputs older ++
    treeInputs newer ++ consistencyInputs (treeHead older lastSeq)
      (treeHead newer lastSeq') proof := ⟨_, rfl⟩
  rw [← named] at free
  have cancels := nodeHash_cancels free
  have known := @known_leaves inputs older digests (by
    intro input member
    rw [named]
    exact List.mem_append_left _ (List.mem_append_left _ member))
  have other := @known_leaves inputs newer digests' (by
    intro input member
    rw [named]
    exact List.mem_append_left _ (List.mem_append_right _ member))
  have roots := root_merkleTreeHash nonempty
  have roots' := root_merkleTreeHash nonempty'
  rcases Nat.lt_or_eq_of_le inside with shorter | same
  · obtain ⟨seed, rest, tops, full, climbs, first, second⟩ :=
      (verifyAuditConsistency_iff rfl rfl some' shorter small).mp accepted
    have older' := Bytes.toHex_injective first
    have newer' := Bytes.toHex_injective second
    rw [← older'] at roots
    rw [← newer'] at roots'
    rw [@consistencyInputs_climbedBoth (treeHead older lastSeq)
      (treeHead newer lastSeq') _ _ _ _ _ rfl rfl some' shorter small full] at named
    have agree := Pairing.leftBranch_sound cancels
      ⟨known, other, by omega, rfl, by omega, roots, roots'⟩
      (fun pair walked => by
        rw [named]
        exact List.mem_append_right _ (List.mem_map_of_mem walked)) climbs
    rw [List.prefix_iff_getElem?]
    intro place inside'
    rw [← agree place (by omega), List.getElem?_eq_getElem inside']
  · rw [verifyAuditConsistency_same some' rfl (congrArg Int.ofNat same.symm)]
      at accepted
    simp only [Option.some.injEq, Bool.and_eq_true, beq_iff_eq] at accepted
    have top := Bytes.toHex_injective accepted.1
    have equal := Pairing.root_injective cancels known other same
      (by rw [roots, roots', top])
    exact equal ▸ List.prefix_refl _

end Graphorin.Audit
