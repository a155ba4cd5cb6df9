import Graphorin.Audit.Merkle

namespace Graphorin.Audit

open Graphorin.Js Graphorin.Lib

/-! Inclusion proofs.  Below `2 ^ 31` the bitwise operators are the arithmetic
ones, and the verifier's loop climbs the levels of the tree. -/

variable {number : Nat}

theorem toInt_toInt32 (small : number < 2 ^ 31) :
    (toInt32 number).toInt = number := by
  rw [toInt32, BitVec.toInt_ofInt]
  apply Int.bmod_eq_of_le <;> omega

theorem toNat_toInt32 (small : number < 2 ^ 31) :
    (toInt32 number).toNat = number := by
  have value := toInt_toInt32 small
  have range := (toInt32 number).isLt
  rw [BitVec.toInt_eq_toNat_cond] at value
  split at value <;> omega

theorem lowBit_nat {number : Nat} (small : number < 2 ^ 31) :
    lowBit number = (number % 2 : Nat) := by
  have masked : (toInt32 number &&& 1#32).toNat = number % 2 := by
    rw [BitVec.toNat_and, toNat_toInt32 small]
    exact Nat.and_one_is_mod number
  rw [lowBit, BitVec.toInt_eq_toNat_of_lt, masked]
  rw [masked]
  omega

theorem shiftOne_nat (small : number < 2 ^ 31) :
    shiftOne number = (number / 2 : Nat) := by
  rw [shiftOne, BitVec.toInt_sshiftRight, toInt_toInt32 small,
    Int.shiftRight_eq_div_pow]
  simp

variable {fn : Nat}

theorem collapse_odd {turns : Nat} (small : fn < 2 ^ 31) (odd : fn % 2 = 1) (sn : Int) :
    collapse turns (fn : Int) sn = ((fn : Int), sn) := by
  cases turns with
  | zero => rfl
  | succ =>
    rw [collapse, if_neg]
    rintro ⟨-, even⟩
    rw [lowBit_nat small, odd] at even
    cases even

/-- At the right edge, shifting out the zero bits is moving up until there is a
sibling on the left. -/
theorem collapse_edge {turns fn : Nat} (small : fn < 2 ^ 31) (above : 0 < fn)
    (enough : fn < 2 ^ turns) :
    ∃ fn' : Nat, collapse turns (fn : Int) fn = ((fn' : Int), (fn' : Int)) ∧
      fn' % 2 = 1 ∧ fn' ≤ fn ∧ ∀ {α : Type} (climbs : Nat → α),
        (∀ place, 0 < place → place % 2 = 0 → climbs place = climbs (place / 2)) →
        climbs fn = climbs fn' := by
  induction turns generalizing fn with
  | zero => omega
  | succ turns ih =>
    rcases Nat.mod_two_eq_zero_or_one fn with even | odd
    · have half : fn / 2 < 2 ^ turns := by
        rw [Nat.pow_succ] at enough
        omega
      obtain ⟨fn', collapses, odd, below, moves⟩ :=
        @ih (fn / 2) (by omega) (by omega) half
      refine ⟨fn', ?_, odd, by omega, ?_⟩
      · rw [collapse, if_pos, shiftOne_nat small, collapses]
        refine ⟨by omega, ?_⟩
        rw [lowBit_nat small, even]
        rfl
      · intro α climbs moved
        rw [moved fn above even, moves climbs moved]
    · exact ⟨fn, collapse_odd small odd fn, odd, le_refl fn, fun _ _ => rfl⟩

variable {sn : Nat}

theorem collapsed_left (small : fn < 2 ^ 31) (odd : fn % 2 = 1) :
    collapsed (fn : Int) sn = ((fn : Int), (sn : Int)) := by
  rw [collapsed, if_neg]
  rw [lowBit_nat small, odd]
  decide

theorem collapsed_edge (small : fn < 2 ^ 31) (above : 0 < fn) (even : fn % 2 = 0) :
    ∃ fn' : Nat, collapsed (fn : Int) fn = ((fn' : Int), (fn' : Int)) ∧
      fn' % 2 = 1 ∧ fn' ≤ fn ∧ ∀ {α : Type} (climbs : Nat → α),
        (∀ place, 0 < place → place % 2 = 0 → climbs place = climbs (place / 2)) →
        climbs fn = climbs fn' := by
  obtain ⟨fn', collapses, edge⟩ := @collapse_edge 33 fn small above (by omega)
  refine ⟨fn', ?_, edge⟩
  rw [collapsed, if_pos, collapses]
  rw [lowBit_nat small, even]
  rfl

/-- What one turn of a verifier's loop does: there is a sibling on the left, here or where
the edge leads, or one on the right. -/
theorem turn_cases (inside : fn ≤ sn) (small : sn < 2 ^ 31) (below : sn ≠ 0) :
    ((lowBit fn = 1 ∨ (fn : Int) = sn) ∧ ∃ fn' sn' : Nat,
      shiftOne (collapsed fn sn).1 = (fn' / 2 : Nat) ∧
      shiftOne (collapsed fn sn).2 = (sn' / 2 : Nat) ∧
      fn' % 2 = 1 ∧ fn' ≤ sn' ∧ sn' ≤ sn ∧ ∀ {α : Type} (climbs : Nat → Nat → α),
        (∀ place, 0 < place → place % 2 = 0 →
          climbs place place = climbs (place / 2) (place / 2)) →
        climbs fn sn = climbs fn' sn') ∨
    ¬ (lowBit fn = 1 ∨ (fn : Int) = sn) ∧ shiftOne fn = (fn / 2 : Nat) ∧
      shiftOne sn = (sn / 2 : Nat) ∧ fn % 2 = 0 ∧ fn ≠ sn := by
  have low := @lowBit_nat fn (by omega)
  rcases Nat.mod_two_eq_zero_or_one fn with even | odd
  · by_cases edge : fn = sn
    · subst edge
      obtain ⟨fn', collapses, odd, below, moves⟩ := collapsed_edge small (by omega) even
      refine .inl ⟨.inr rfl, fn', fn', ?_, ?_, odd, le_refl fn', below, fun climbs =>
        moves fun place => climbs place place⟩
      · rw [collapses, shiftOne_nat (by omega)]
      · rw [collapses, shiftOne_nat (by omega)]
    · exact .inr ⟨by omega, shiftOne_nat (by omega), shiftOne_nat small, even, edge⟩
  · refine .inl ⟨.inl (by omega), fn, sn, ?_, ?_, odd, inside, le_refl sn, fun _ _ => rfl⟩
    · rw [collapsed_left (by omega) odd, shiftOne_nat (by omega)]
    · rw [collapsed_left (by omega) odd, shiftOne_nat small]

def reachedTop {α : Type} : Option (Int × α) → Option α
  | some (sn, hash) => if sn = 0 then some hash else none
  | none => none

theorem foldPath_climb (path : List Bytes) (hash : Bytes) (inside : fn ≤ sn)
    (small : sn < 2 ^ 31) : reachedTop (foldPath path (fn : Int) sn hash) =
      Pairing.climb nodeHash fn sn path hash := by
  induction path generalizing fn sn hash with
  | nil =>
    rw [foldPath, reachedTop]
    by_cases top : sn = 0
    · rw [if_pos (by omega), Pairing.climb, if_pos top]
      rfl
    · rw [if_neg (by omega), Pairing.climb_nil inside (by omega)]
  | cons sibling rest ih =>
    rw [foldPath]
    by_cases top : sn = 0
    · rw [if_pos (by omega), Pairing.climb.eq_def, if_pos top]
      rfl
    rw [if_neg (by omega)]
    rcases turn_cases inside small top with
      ⟨joins, fn', sn', up, up', odd, inside', below, moves⟩ | ⟨passes, up, up', even, apart⟩
    · rw [if_pos joins, up, up', ih _ (by omega) (by omega),
        moves (Pairing.climb nodeHash · · (sibling :: rest) hash)
          fun _ above even => Pairing.climb_moved above even,
        Pairing.climb_left (by omega) odd]
    · rw [if_neg passes, up, up', ih _ (by omega) (by omega),
        Pairing.climb_right (by omega) even apart]

theorem foldInputs_climbed (path : List Bytes) (hash : Bytes) (inside : fn ≤ sn)
    (small : sn < 2 ^ 31) : foldInputs path (fn : Int) sn hash =
      (Pairing.climbed nodeHash fn sn path hash).map fun pair =>
        nodeInput pair.1 pair.2 := by
  induction path generalizing fn sn hash with
  | nil => rw [foldInputs, Pairing.climbed_nil inside, List.map_nil]
  | cons sibling rest ih =>
    rw [foldInputs]
    by_cases top : sn = 0
    · rw [if_pos (by omega), Pairing.climbed.eq_def, if_pos top, List.map_nil]
    rw [if_neg (by omega)]
    rcases turn_cases inside small top with
      ⟨joins, fn', sn', up, up', odd, inside', below, moves⟩ | ⟨passes, up, up', even, apart⟩
    · rw [if_pos joins, up, up', ih _ (by omega) (by omega),
        moves (Pairing.climbed nodeHash · · (sibling :: rest) hash)
          fun _ above even => Pairing.climbed_moved above even,
        Pairing.climbed_left (by omega) odd, List.map_cons]
    · rw [if_neg passes, up, up', ih _ (by omega) (by omega),
        Pairing.climbed_right (by omega) even apart, List.map_cons]

/-- As long as a SHA-256 digest. -/
def IsDigest (buffer : Bytes) : Prop := buffer.length = 32

theorem append_cancel {left right other another : Bytes}
    (same : left ++ right = other ++ another)
    (sided : left.length = other.length ∨ right.length = another.length) :
    left = other ∧ right = another := by
  rcases sided with size | size
  · exact List.append_inj same size
  · exact List.append_inj' same size

theorem nodeHash_cancels {inputs : List Bytes} (free : CollisionFree inputs) :
    Pairing.Cancels nodeHash IsDigest
      (fun pair => nodeInput pair.1 pair.2 ∈ inputs) where
  proper left right := sha256_length _
  cancel := by
    intro left right other another used used' sided own own' same
    have input := free _ used _ used' same
    refine append_cancel (List.cons.inj input).2 ?_
    rcases sided with size | size
    · exact .inl (size.trans own.symm)
    · exact .inr (size.trans own'.symm)

theorem known_leaves {inputs leaves : List Bytes}
    (digests : ∀ leaf ∈ leaves, IsDigest leaf) (used : treeInputs leaves ⊆ inputs) :
    Pairing.Known nodeHash IsDigest
      (fun pair => nodeInput pair.1 pair.2 ∈ inputs) leaves :=
  ⟨digests, fun _ joined => used (joins_treeInputs joined)⟩

variable {js : Runtime} {entry : StoredAuditEntry}

theorem leafHash_isDigest {hash : Bytes} (hashed : leafHash js entry = .ok hash) :
    IsDigest hash := by
  simp only [leafHash, bind, Except.bind] at hashed
  split at hashed
  · cases hashed
  · cases hashed
    exact sha256_length _

/-- The head of a tree. -/
def treeHead (leaves : List Bytes) (lastSeq : Int) : AuditTreeHead :=
  ⟨leaves.length, (merkleTreeHash leaves).toHex, lastSeq⟩

theorem verifyAuditInclusion_iff {proof : AuditInclusionProof} {leaves : List Bytes}
    {m : Nat} {lastSeq : Int} (small : leaves.length < 2 ^ 31) (inside : m < leaves.length)
    (index : proof.leafIndex = m) (size : proof.treeSize = leaves.length) :
    verifyAuditInclusion js entry proof (treeHead leaves lastSeq) = .ok true ↔
      ∃ hash, leafHash js entry = .ok hash ∧
        Pairing.climb nodeHash m (leaves.length - 1)
          (proof.path.map Bytes.fromHex) hash = Pairing.root nodeHash leaves := by
  have nonempty : leaves ≠ [] := by
    rintro rfl
    cases inside
  have last : proof.treeSize - 1 = ((leaves.length - 1 : Nat) : Int) := by omega
  rw [verifyAuditInclusion, if_neg (by simp [treeHead, size]),
    if_neg (by omega), index, last, root_merkleTreeHash nonempty]
  cases hashed : leafHash js entry with
  | error => simp [bind, Except.bind]
  | ok hash =>
    have climbs := foldPath_climb (proof.path.map Bytes.fromHex) hash
      (show m ≤ leaves.length - 1 by omega) (by omega)
    simp only [bind, Except.bind, pure, Except.pure, Except.ok.injEq,
      exists_eq_left']
    rw [← climbs]
    cases foldPath (proof.path.map Bytes.fromHex) m (leaves.length - 1 : Nat)
        hash with
    | none => simp [reachedTop]
    | some reached =>
      obtain ⟨sn, hash'⟩ := reached
      by_cases top : sn = 0
      · simp only [reachedTop, top, treeHead, if_pos, beq_self_eq_true,
          Bool.true_and, beq_iff_eq, Except.ok.injEq, Option.some.injEq]
        exact ⟨Bytes.toHex_injective, congrArg Bytes.toHex⟩
      · simp [reachedTop, top]

/-- The honest path is accepted, and whatever path is accepted proves the leaf
of its index. -/
theorem inclusion_complete_sound (js : Runtime) (leaves : List Bytes) (m : Nat)
    (leaf : Bytes) (lastSeq : Int) (small : leaves.length < 2 ^ 31)
    (here : leaves[m]? = some leaf) :
    (∀ (entry : StoredAuditEntry) (proof : AuditInclusionProof),
      leafHash js entry = .ok leaf → proof.leafIndex = m →
      proof.treeSize = leaves.length →
      proof.path = (inclusionPath m leaves).map Bytes.toHex →
      verifyAuditInclusion js entry proof (treeHead leaves lastSeq) = .ok true) ∧
    (∀ (entry : StoredAuditEntry) (proof : AuditInclusionProof),
      (∀ leaf ∈ leaves, IsDigest leaf) →
      CollisionFree (treeInputs leaves ++ inclusionInputs js entry proof) →
      proof.leafIndex = m → proof.treeSize = leaves.length →
      verifyAuditInclusion js entry proof (treeHead leaves lastSeq) = .ok true →
      leafHash js entry = .ok leaf) := by
  have inside := (List.getElem?_eq_some_iff.mp here).1
  constructor
  · intro entry proof hashed index size path
    rw [verifyAuditInclusion_iff small inside index size]
    refine ⟨leaf, hashed, ?_⟩
    have decoded : proof.path.map Bytes.fromHex = inclusionPath m leaves := by
      rw [path, List.map_map]
      exact List.map_id'' Bytes.fromHex_toHex _
    rw [decoded, inclusionPath_siblings inside]
    exact Pairing.climb_siblings nodeHash here
  · intro entry proof digests free index size accepted
    obtain ⟨hash, hashed, climbs⟩ :=
      (verifyAuditInclusion_iff small inside index size).mp accepted
    have last : (leaves.length : Int) - 1 = (leaves.length - 1 : Nat) := by omega
    simp only [inclusionInputs, hashed, index, size, last] at free
    rw [foldInputs_climbed _ hash (by omega) (by omega)] at free
    have found := Pairing.climb_sound (nodeHash_cancels free)
      (known_leaves digests (List.subset_append_left _ _)) inside
      (leafHash_isDigest hashed) ?_ climbs
    · rw [here] at found
      rw [hashed, Option.some.inj found]
    · intro pair walked
      exact List.mem_append_right _ (List.mem_map_of_mem walked)

theorem CollisionFree.of_all_same (same : ∀ other ∈ inputs, other = input) :
    CollisionFree inputs := by
  intro first member second member' _
  rw [same first member, same second member']

theorem CollisionFree.of_pair (apart : sha256 first ≠ sha256 second) :
    CollisionFree ([first, second] ++ [first, second]) := by
  intro input member other member' same
  simp only [List.cons_append, List.nil_append, List.mem_cons, List.not_mem_nil,
    or_false] at member member'
  rcases member with rfl | rfl | rfl | rfl <;>
    rcases member' with rfl | rfl | rfl | rfl <;>
    first
      | rfl
      | exact absurd same apart
      | exact absurd same.symm apart

/-- The entry of a database that was opened. -/
def openedEntry : StoredAuditEntry where
  seq := 1
  ts := 1700000000000
  actor := ⟨.system, ascii "boot", none⟩
  action := ascii "audit:db-opened"
  target := ascii "audit.db"
  decision := .success
  context := none
  metadata := .undefined
  prevHash := GENESIS_PREV_HASH
  hash := ascii "c0ffee"

def openedLeaves : List Bytes :=
  [(leafHash plainRuntime openedEntry).toOption.getD [], sha256 [], sha256 [1]]

def openedProof : AuditInclusionProof :=
  ⟨1, 0, 3, (inclusionPath 0 openedLeaves).map Bytes.toHex⟩

theorem openedEntry_hashed : leafHash plainRuntime openedEntry =
      .ok ((leafHash plainRuntime openedEntry).toOption.getD []) := by
  have served : (canonicalJson plainRuntime openedEntry.live).toOption.isSome = true := by
    decide
  rw [leafHash]
  cases canonical : canonicalJson plainRuntime openedEntry.live with
  | error =>
    rw [canonical] at served
    cases served
  | ok => rfl

theorem openedInputs :
    treeInputs openedLeaves ++ inclusionInputs plainRuntime openedEntry openedProof =
      [nodeInput ((leafHash plainRuntime openedEntry).toOption.getD []) (sha256 []),
        nodeInput (nodeHash ((leafHash plainRuntime openedEntry).toOption.getD [])
          (sha256 [])) (sha256 [1])] ++
      [nodeInput ((leafHash plainRuntime openedEntry).toOption.getD []) (sha256 []),
        nodeInput (nodeHash ((leafHash plainRuntime openedEntry).toOption.getD [])
          (sha256 [])) (sha256 [1])] := by
  have tree : inclusionPath 0 openedLeaves = [sha256 [], sha256 [1]] := by
    simp [openedLeaves, inclusionPath, merkleTreeHash, lower, upper,
      largestPowerOfTwoBelow, doubleBelow]
  congr 1
  · simp [openedLeaves, treeInputs, merkleTreeHash, lower, upper,
      largestPowerOfTwoBelow, doubleBelow]
  · rw [inclusionInputs, openedEntry_hashed]
    simp only [openedProof, tree, List.map_cons, List.map_nil, Bytes.fromHex_toHex]
    rfl

theorem openedInputs_apart :
    sha256 (nodeInput ((leafHash plainRuntime openedEntry).toOption.getD [])
        (sha256 [])) ≠
      sha256 (nodeInput (nodeHash ((leafHash plainRuntime openedEntry).toOption.getD [])
        (sha256 [])) (sha256 [1])) := by
  simp only [leafHash, nodeHash, sha256_settled]
  set_option maxRecDepth 20000 in decide

theorem opened_entry_included :
    verifyAuditInclusion plainRuntime openedEntry openedProof
        (treeHead openedLeaves 3) = .ok true ∧ leafHash plainRuntime openedEntry =
        .ok ((leafHash plainRuntime openedEntry).toOption.getD []) := by
  have both := inclusion_complete_sound plainRuntime openedLeaves 0 _ 3
    (by decide) rfl
  have accepted := both.1 openedEntry openedProof openedEntry_hashed rfl rfl rfl
  refine ⟨accepted, both.2 openedEntry openedProof ?_ ?_ rfl rfl accepted⟩
  · intro leaf member
    simp only [openedLeaves, List.mem_cons, List.not_mem_nil, or_false] at member
    rcases member with rfl | rfl | rfl
    · exact leafHash_isDigest openedEntry_hashed
    · exact sha256_length []
    · exact sha256_length [1]
  · rw [openedInputs]
    exact .of_pair openedInputs_apart

end Graphorin.Audit
