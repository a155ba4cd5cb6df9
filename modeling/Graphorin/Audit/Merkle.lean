import Graphorin.Lib.Pairing
import Graphorin.Audit.Entry

namespace Graphorin.Audit

open Graphorin.Js

/-! RFC-6962 Merkle layer over the audit log. -/

/-- RFC 6962 leaf hash: `SHA-256(0x00 || leaf-bytes)`. -/
def leafHash (js : Runtime) (entry : StoredAuditEntry) :
    Except NotSerialisable Bytes := do
  let canonical ← canonicalJson js entry.live
  pure (sha256 (0x00 :: utf8 canonical))

def nodeInput (left right : Bytes) : Bytes := 0x01 :: (left ++ right)

/-- RFC 6962 interior-node hash: `SHA-256(0x01 || left || right)`. -/
def nodeHash (left right : Bytes) : Bytes := sha256 (nodeInput left right)

/-- `while (k * 2 < n) k *= 2`, which ends before `n` turns. -/
def doubleBelow (n : Nat) : Nat → Nat → Nat
  | 0, k => k
  | turns + 1, k => if k * 2 < n then doubleBelow n turns (k * 2) else k

/-- Largest power of two strictly less than `n` (n >= 2). -/
def largestPowerOfTwoBelow (n : Nat) : Nat := doubleBelow n n 1

theorem doubleBelow_spec {n : Nat} (turns : Nat) {depth : Nat}
    (below : 2 ^ depth < n) (enough : n ≤ 2 ^ depth + turns) :
    ∃ depth', doubleBelow n turns (2 ^ depth) = 2 ^ depth' ∧
      2 ^ depth' < n ∧ n ≤ 2 * 2 ^ depth' := by
  induction turns generalizing depth with
  | zero => omega
  | succ turns ih =>
    have positive := Nat.two_pow_pos depth
    rw [doubleBelow]
    split
    · rename_i more
      rw [← Nat.pow_succ]
      exact ih (by rw [Nat.pow_succ]; exact more) (by rw [Nat.pow_succ]; omega)
    · exact ⟨depth, rfl, below, by omega⟩

theorem largestPowerOfTwoBelow_spec {n : Nat} (several : 2 ≤ n) :
    ∃ depth, largestPowerOfTwoBelow n = 2 ^ depth ∧ 2 ^ depth < n ∧
      n ≤ 2 * 2 ^ depth := by
  exact @doubleBelow_spec n n 0 (by omega) (by omega)

theorem largestPowerOfTwoBelow_bounds {n : Nat} (several : 2 ≤ n) :
    0 < largestPowerOfTwoBelow n ∧ largestPowerOfTwoBelow n < n := by
  obtain ⟨depth, power, below, -⟩ := largestPowerOfTwoBelow_spec several
  rw [power]
  exact ⟨Nat.two_pow_pos depth, below⟩

/-- `leaves.slice(0, k)` and `leaves.slice(k)` for the `k` of their number. -/
def lower (leaves : List Bytes) : List Bytes :=
  leaves.take (largestPowerOfTwoBelow leaves.length)

def upper (leaves : List Bytes) : List Bytes :=
  leaves.drop (largestPowerOfTwoBelow leaves.length)

variable {leaves : List Bytes}

theorem lower_length (several : 2 ≤ leaves.length) :
    (lower leaves).length = largestPowerOfTwoBelow leaves.length := by
  have := largestPowerOfTwoBelow_bounds several
  rw [lower, List.length_take]
  omega

theorem upper_length (leaves : List Bytes) : (upper leaves).length =
      leaves.length - largestPowerOfTwoBelow leaves.length := by
  rw [upper, List.length_drop]

theorem lower_append_upper (leaves : List Bytes) :
    lower leaves ++ upper leaves = leaves :=
  List.take_append_drop _ _

theorem lower_shorter (several : 2 ≤ leaves.length) :
    (lower leaves).length < leaves.length := by
  rw [lower_length several]
  exact (largestPowerOfTwoBelow_bounds several).2

theorem upper_shorter (several : 2 ≤ leaves.length) :
    (upper leaves).length < leaves.length := by
  have := largestPowerOfTwoBelow_bounds several
  rw [upper_length]
  omega

/-- RFC 6962 §2.1 Merkle Tree Hash over ordered leaf hashes. -/
def merkleTreeHash (leaves : List Bytes) : Bytes :=
  if _several : 2 ≤ leaves.length then
    nodeHash (merkleTreeHash (lower leaves)) (merkleTreeHash (upper leaves))
  else
    match leaves with
    | [] => sha256 []
    | leaf :: _ => leaf
termination_by leaves.length
decreasing_by
  · exact lower_shorter ‹_›
  · exact upper_shorter ‹_›

/-- What is hashed on the way. -/
def treeInputs (leaves : List Bytes) : List Bytes :=
  if _several : 2 ≤ leaves.length then
    treeInputs (lower leaves) ++ treeInputs (upper leaves) ++
      [nodeInput (merkleTreeHash (lower leaves)) (merkleTreeHash (upper leaves))]
  else
    match leaves with
    | [] => [[]]
    | _ :: _ => []
termination_by leaves.length
decreasing_by
  · exact lower_shorter ‹_›
  · exact upper_shorter ‹_›

/-- RFC 6962 §2.1.1 inclusion-proof path for leaf `m` of `n`. -/
def inclusionPath (m : Nat) (leaves : List Bytes) : List Bytes :=
  if _several : 2 ≤ leaves.length then
    if m < largestPowerOfTwoBelow leaves.length then
      inclusionPath m (lower leaves) ++ [merkleTreeHash (upper leaves)]
    else
      inclusionPath (m - largestPowerOfTwoBelow leaves.length) (upper leaves) ++
        [merkleTreeHash (lower leaves)]
  else []
termination_by leaves.length
decreasing_by
  · exact lower_shorter ‹_›
  · exact upper_shorter ‹_›

/-- RFC 6962 §2.1.2 SUBPROOF(m, D[n], b).  The source has no branch for
`m ≠ n` with a single leaf, which no caller asks for. -/
def consistencyPath (m : Nat) (leaves : List Bytes) (isCompleteSubtree : Bool) :
    List Bytes :=
  if m = leaves.length then
    if isCompleteSubtree then [] else [merkleTreeHash leaves]
  else if _several : 2 ≤ leaves.length then
    if m ≤ largestPowerOfTwoBelow leaves.length then
      consistencyPath m (lower leaves) isCompleteSubtree ++
        [merkleTreeHash (upper leaves)]
    else
      consistencyPath (m - largestPowerOfTwoBelow leaves.length) (upper leaves)
          false ++
        [merkleTreeHash (lower leaves)]
  else []
termination_by leaves.length
decreasing_by
  · exact lower_shorter ‹_›
  · exact upper_shorter ‹_›

/-! Verification.  Numbers are integers; the bitwise operators cut them to 32
bits. -/

def toInt32 (number : Int) : BitVec 32 := BitVec.ofInt 32 number

/-- `number & 1`. -/
def lowBit (number : Int) : Int := (toInt32 number &&& 1#32).toInt

/-- `number >> 1`. -/
def shiftOne (number : Int) : Int := ((toInt32 number).sshiftRight 1).toInt

structure AuditTreeHead where
  size : Int
  rootHash : String
  lastSeq : Int
deriving DecidableEq

structure AuditInclusionProof where
  seq : Int
  leafIndex : Int
  treeSize : Int
  path : List String
deriving DecidableEq

/-- The inner loop of both verifiers; 32 bits are shifted out in 33 turns. -/
def collapse : Nat → Int → Int → Int × Int
  | 0, fn, sn => (fn, sn)
  | turns + 1, fn, sn =>
    if fn ≠ 0 ∧ lowBit fn = 0 then collapse turns (shiftOne fn) (shiftOne sn)
    else (fn, sn)

/-- `fn` and `sn` at the end of a turn that took the sibling on the left. -/
def collapsed (fn sn : Int) : Int × Int :=
  if lowBit fn = 0 then collapse 33 fn sn else (fn, sn)

/-- The loop of `verifyAuditInclusion`; `none` where it returns `false`. -/
def foldPath : List Bytes → Int → Int → Bytes → Option (Int × Bytes)
  | [], _, sn, hash => some (sn, hash)
  | sibling :: rest, fn, sn, hash =>
    if sn = 0 then none
    else if lowBit fn = 1 ∨ fn = sn then
      foldPath rest (shiftOne (collapsed fn sn).1) (shiftOne (collapsed fn sn).2)
        (nodeHash sibling hash)
    else foldPath rest (shiftOne fn) (shiftOne sn) (nodeHash hash sibling)

def foldInputs : List Bytes → Int → Int → Bytes → List Bytes
  | [], _, _, _ => []
  | sibling :: rest, fn, sn, hash =>
    if sn = 0 then []
    else if lowBit fn = 1 ∨ fn = sn then
      nodeInput sibling hash ::
        foldInputs rest (shiftOne (collapsed fn sn).1)
          (shiftOne (collapsed fn sn).2) (nodeHash sibling hash)
    else
      nodeInput hash sibling ::
        foldInputs rest (shiftOne fn) (shiftOne sn) (nodeHash hash sibling)

def verifyAuditInclusion (js : Runtime) (entry : StoredAuditEntry)
    (proof : AuditInclusionProof) (head : AuditTreeHead) :
    Except NotSerialisable Bool :=
  if proof.treeSize ≠ head.size then .ok false
  else if proof.leafIndex < 0 ∨ proof.leafIndex ≥ proof.treeSize then .ok false
  else do
    let hash ← leafHash js entry
    match foldPath (proof.path.map Bytes.fromHex) proof.leafIndex
        (proof.treeSize - 1) hash with
    | none => pure false
    | some (sn, hash) => pure (sn == 0 && hash.toHex == head.rootHash)

/-- What `verifyAuditInclusion` hashes besides the leaf. -/
def inclusionInputs (js : Runtime) (entry : StoredAuditEntry)
    (proof : AuditInclusionProof) : List Bytes :=
  match leafHash js entry with
  | .ok hash =>
    foldInputs (proof.path.map Bytes.fromHex) proof.leafIndex
      (proof.treeSize - 1) hash
  | .error _ => []

/-- No two different ones of these inputs have the same digest. -/
def CollisionFree (inputs : List Bytes) : Prop :=
  ∀ first ∈ inputs, ∀ second ∈ inputs, sha256 first = sha256 second →
    first = second

open Graphorin.Lib

theorem cut_leaves (several : 2 ≤ leaves.length) :
    ∃ depth, Pairing.Cut depth (lower leaves) (upper leaves) := by
  obtain ⟨depth, power, below, above⟩ := largestPowerOfTwoBelow_spec several
  refine ⟨depth, ⟨?_, ?_, ?_⟩⟩
  · rw [lower_length several, power]
  · rw [upper_length, power]
    omega
  · rw [← List.length_pos_iff, upper_length, power]
    omega

theorem lower_ne_nil (several : 2 ≤ leaves.length) : lower leaves ≠ [] := by
  rw [← List.length_pos_iff, lower_length several]
  exact (largestPowerOfTwoBelow_bounds several).1

theorem merkleTreeHash_more (several : 2 ≤ leaves.length) : merkleTreeHash leaves =
      nodeHash (merkleTreeHash (lower leaves)) (merkleTreeHash (upper leaves)) := by
  rw [merkleTreeHash, dif_pos several]

theorem merkleTreeHash_one (leaf : Bytes) : merkleTreeHash [leaf] = leaf := by
  rw [merkleTreeHash, dif_neg (by simp)]

theorem leaves_induction {motive : List Bytes → Prop}
    (few : ∀ leaves, leaves.length ≤ 1 → motive leaves)
    (cut : ∀ leaves, 2 ≤ leaves.length → motive (lower leaves) →
      motive (upper leaves) → motive leaves) (leaves : List Bytes) :
    motive leaves := by
  by_cases several : 2 ≤ leaves.length
  · exact cut leaves several (leaves_induction few cut (lower leaves))
      (leaves_induction few cut (upper leaves))
  · exact few leaves (by omega)
termination_by leaves.length
decreasing_by
  · exact lower_shorter ‹_›
  · exact upper_shorter ‹_›

theorem root_merkleTreeHash (nonempty : leaves ≠ []) :
    Pairing.root nodeHash leaves = some (merkleTreeHash leaves) := by
  induction leaves using leaves_induction with
  | few _ few =>
    have positive := List.length_pos_iff.mpr nonempty
    obtain ⟨leaf, rfl⟩ := List.length_eq_one_iff.mp (Nat.le_antisymm few positive)
    rw [Pairing.root, merkleTreeHash_one]
  | cut _ several ours theirs =>
    obtain ⟨depth, cut⟩ := cut_leaves several
    have whole := cut.root (ours (lower_ne_nil several)) (theirs cut.rest)
    rwa [lower_append_upper, ← merkleTreeHash_more several] at whole

theorem inclusionPath_siblings {m : Nat} (inside : m < leaves.length) :
    inclusionPath m leaves = Pairing.siblings nodeHash m leaves := by
  induction leaves using leaves_induction generalizing m with
  | few _ few =>
    rw [inclusionPath, dif_neg (by omega), Pairing.siblings_one few]
  | cut leaves several ours theirs =>
    obtain ⟨depth, cut⟩ := cut_leaves several
    have left := lower_length several
    have right := upper_length leaves
    rw [inclusionPath, dif_pos several]
    split
    · rw [ours (by omega),
        ← cut.siblings_left (by omega) (root_merkleTreeHash cut.rest),
        lower_append_upper]
    · rw [theirs (by omega), ← cut.siblings_right (by omega)
          (root_merkleTreeHash (lower_ne_nil several)), lower_append_upper, left]
      congr 1
      omega

theorem joins_treeInputs {pair : Bytes × Bytes}
    (joined : pair ∈ Pairing.joins nodeHash leaves) :
    nodeInput pair.1 pair.2 ∈ treeInputs leaves := by
  induction leaves using leaves_induction with
  | few _ few =>
    rw [Pairing.joins, if_pos few] at joined
    cases joined
  | cut leaves several ours theirs =>
    obtain ⟨depth, cut⟩ := cut_leaves several
    rw [treeInputs, dif_pos several]
    simp only [List.mem_append, List.mem_singleton]
    rw [← lower_append_upper leaves] at joined
    rcases cut.joins (root_merkleTreeHash (lower_ne_nil several))
      (root_merkleTreeHash cut.rest) joined with first | second | rfl
    · exact .inl (.inl (ours first))
    · exact .inl (.inr (theirs second))
    · exact .inr rfl

end Graphorin.Audit
