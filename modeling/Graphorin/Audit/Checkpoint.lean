import Graphorin.Audit.Consistency

namespace Graphorin.Audit

open Graphorin.Js Graphorin.Lib

/-! Signed checkpoints, verified over the stored log. -/

inductive AuditProofError
  | payload (reason : NotSerialisable)
  | smallerFirst
  | sizeMismatch (found expected : Int)
deriving DecidableEq

def AuditProofError.message : AuditProofError → String
  | .payload reason => reason.reason
  | .smallerFirst =>
    "[graphorin/security] consistency proofs go from the SMALLER head to the " ++
      "larger"
  | .sizeMismatch found expected =>
    "[graphorin/security] audit log size " ++ toString found ++
      " does not match head size " ++ toString expected

/-- Load leaf hashes in `seq` order, with the `seq` of the newest. -/
def loadLeaves (js : Runtime) (table : AuditTable) (toSeq : Option Int) :
    Except AuditProofError (List Bytes × Int) := do
  let entries := table.iterate none toSeq
  let leaves ← (entries.mapM (leafHash js)).mapError .payload
  pure (leaves, (entries.getLast?.map fun entry => (entry.seq : Int)).getD 0)

def computeAuditTreeHead (js : Runtime) (table : AuditTable)
    (toSeq : Option Int) : Except AuditProofError AuditTreeHead := do
  let (leaves, lastSeq) ← loadLeaves js table toSeq
  pure (treeHead leaves lastSeq)

def proveAuditConsistency (js : Runtime) (table : AuditTable)
    (older newer : AuditTreeHead) : Except AuditProofError (List String) :=
  if older.size > newer.size then .error .smallerFirst
  else do
    let (leaves, _) ← loadLeaves js table (some newer.lastSeq)
    if (leaves.length : Int) ≠ newer.size then
      .error (.sizeMismatch leaves.length newer.size)
    else if older.size = 0 ∨ older.size = newer.size then pure []
    else pure ((consistencyPath older.size.toNat leaves true).map Bytes.toHex)

structure SignedAuditCheckpoint where
  head : AuditTreeHead
  writerId : JsText
  signedAt : JsText
  signature : String
  publicKeyPem : String

/-- UTF-16 units of a text. -/
def utf16 (text : String) : JsText :=
  text.toList.flatMap fun character =>
    if character.toNat < 0x10000 then [UInt16.ofNat character.toNat]
    else
      [UInt16.ofNat (0xd800 + (character.toNat - 0x10000) / 1024),
        UInt16.ofNat (0xdc00 + (character.toNat - 0x10000) % 1024)]

/-- The units of one character. -/
def charUnits (character : Char) : JsText :=
  if character.toNat < 0x10000 then [UInt16.ofNat character.toNat]
  else
    [UInt16.ofNat (0xd800 + (character.toNat - 0x10000) / 1024),
      UInt16.ofNat (0xdc00 + (character.toNat - 0x10000) % 1024)]

theorem utf16_eq (text : String) : utf16 text = text.toList.flatMap charUnits := rfl

theorem unit_inj (small : number < 0x10000) (small' : other < 0x10000)
    (same : UInt16.ofNat number = UInt16.ofNat other) : number = other := by
  have values := congrArg UInt16.toNat same
  rwa [UInt16.toNat_ofNat', UInt16.toNat_ofNat', Nat.mod_eq_of_lt small,
    Nat.mod_eq_of_lt small'] at values

theorem charUnits_ne_nil (character : Char) : charUnits character ≠ [] := by
  unfold charUnits
  split <;> simp

/-- No character is a surrogate, so the first unit tells how many there are. -/
theorem charUnits_cancel (same : charUnits character ++ rest = charUnits other ++ others) :
    character = other ∧ rest = others := by
  have valid : character.toNat < 0xd800 ∨
      0xdfff < character.toNat ∧ character.toNat < 0x110000 := character.valid
  have valid' : other.toNat < 0xd800 ∨
      0xdfff < other.toNat ∧ other.toNat < 0x110000 := other.valid
  unfold charUnits at same
  by_cases small : character.toNat < 0x10000
  · by_cases small' : other.toNat < 0x10000
    · simp only [small, small', if_true, List.cons_append, List.nil_append,
        List.cons.injEq] at same
      exact ⟨Char.toNat_inj.mp (unit_inj small small' same.1), same.2⟩
    · simp only [small, small', if_true, if_false, List.cons_append,
        List.nil_append, List.cons.injEq] at same
      have equal := unit_inj small (by omega) same.1
      omega
  · by_cases small' : other.toNat < 0x10000
    · simp only [small, small', if_true, if_false, List.cons_append,
        List.nil_append, List.cons.injEq] at same
      have equal := unit_inj (by omega) small' same.1
      omega
    · simp only [small, small', if_false, List.cons_append, List.nil_append,
        List.cons.injEq] at same
      have high := unit_inj (by omega) (by omega) same.1
      have low := unit_inj (by omega) (by omega) same.2.1
      exact ⟨Char.toNat_inj.mp (by omega), same.2.2⟩

theorem utf16_injective (same : utf16 first = utf16 second) : first = second := by
  rw [utf16_eq, utf16_eq] at same
  rw [← String.toList_inj]
  generalize first.toList = chars at same ⊢
  generalize second.toList = chars' at same ⊢
  induction chars generalizing chars' with
  | nil =>
    cases chars' with
    | nil => rfl
    | cons other =>
      exact absurd (List.append_eq_nil_iff.mp same.symm).1 (charUnits_ne_nil other)
  | cons character _ ih =>
    cases chars' with
    | nil =>
      exact absurd (List.append_eq_nil_iff.mp same).1 (charUnits_ne_nil character)
    | cons _ others =>
      obtain ⟨rfl, later⟩ := charUnits_cancel same
      rw [ih others later]

def AuditTreeHead.live (head : AuditTreeHead) : Live :=
  .obj [(ascii "size", .num head.size),
    (ascii "rootHash", .str (utf16 head.rootHash)),
    (ascii "lastSeq", .num head.lastSeq)]

def checkpointBytes (js : Runtime) (head : AuditTreeHead)
    (writerId signedAt : JsText) : Except NotSerialisable Bytes := do
  let canonical ← canonicalJson js (.obj [(ascii "head", head.live),
    (ascii "writerId", .str writerId), (ascii "signedAt", .str signedAt),
    (ascii "v", .str (ascii "graphorin-audit-checkpoint/1"))])
  pure (utf8 canonical)

/-- `cryptoVerify` of the body, the key and the base64url signature; `none` when
it throws. -/
abbrev CryptoVerify := Bytes → String → String → Option Bool

def verifyAuditCheckpointSignature (js : Runtime) (cryptoVerify : CryptoVerify)
    (checkpoint : SignedAuditCheckpoint) (publicKeyPem : String) : Bool :=
  match checkpointBytes js checkpoint.head checkpoint.writerId
      checkpoint.signedAt with
  | .error _ => false
  | .ok body => (cryptoVerify body publicKeyPem checkpoint.signature).getD false

inductive CheckpointResult
  | ok (current : AuditTreeHead)
  | badSignature
  | inconsistentLog (current : AuditTreeHead)
deriving DecidableEq

/-- `none` when it does not return. -/
def verifyAuditAgainstCheckpoint (js : Runtime) (cryptoVerify : CryptoVerify)
    (table : AuditTable) (checkpoint : SignedAuditCheckpoint)
    (publicKeyPem : String) :
    Except AuditProofError (Option CheckpointResult) :=
  if verifyAuditCheckpointSignature js cryptoVerify checkpoint publicKeyPem then do
    let current ← computeAuditTreeHead js table none
    if current.size < checkpoint.head.size then
      pure (some (.inconsistentLog current))
    else
      let proof ← proveAuditConsistency js table checkpoint.head current
      pure ((verifyAuditConsistency checkpoint.head current proof).map
        fun consistent =>
          if consistent then .ok current else .inconsistentLog current)
  else .ok (some .badSignature)

section Reading

variable (js : Runtime)

theorem leafHash_row (row : AuditRow) :
    ∃ leaf, leafHash js (rowToEntry row) = .ok leaf ∧ IsDigest leaf := by
  obtain ⟨text, served⟩ : ∃ text,
      canonicalJson js (rowToEntry row).live = .ok text :=
    row_canonical js row
  refine ⟨sha256 (0x00 :: utf8 text), ?_, sha256_length _⟩
  rw [leafHash, served]
  rfl

theorem leaves_of_rows : ∀ rows : List AuditRow,
    ∃ leaves, (rows.map rowToEntry).mapM (leafHash js) = .ok leaves ∧
      ∀ leaf ∈ leaves, IsDigest leaf
  | [] => ⟨[], rfl, by simp⟩
  | row :: rest => by
      obtain ⟨leaf, hashed, digest⟩ := leafHash_row js row
      obtain ⟨leaves, others, digests⟩ := leaves_of_rows rest
      refine ⟨leaf :: leaves, ?_, ?_⟩
      · rw [List.map_cons, List.mapM_cons, hashed, others]
        rfl
      · intro other member
        rcases List.mem_cons.mp member with rfl | later
        · exact digest
        · exact digests other later

theorem loadLeaves_ok (table : AuditTable) :
    ∃ leaves lastSeq, loadLeaves js table none = .ok (leaves, lastSeq) ∧
      loadLeaves js table (some lastSeq) = .ok (leaves, lastSeq) ∧
      ∀ leaf ∈ leaves, IsDigest leaf := by
  obtain ⟨leaves, hashed, digests⟩ : ∃ leaves,
      (table.iterate none none).mapM (leafHash js) = .ok leaves ∧
        ∀ leaf ∈ leaves, IsDigest leaf := leaves_of_rows js _
  refine ⟨leaves, ((table.iterate none none).getLast?.map
    fun entry => (entry.seq : Int)).getD 0, ?_, ?_, digests⟩
  · rw [loadLeaves, hashed]
    rfl
  · rw [loadLeaves, AuditTable.iterate_latest, hashed]
    rfl

theorem verifyAuditAgainstCheckpoint_eq {cryptoVerify : CryptoVerify}
    {table : AuditTable} {checkpoint : SignedAuditCheckpoint}
    {publicKeyPem : String} {leaves : List Bytes} {lastSeq : Int} {m : Nat}
    (signed : verifyAuditCheckpointSignature js cryptoVerify checkpoint
      publicKeyPem = true)
    (loaded : loadLeaves js table none = .ok (leaves, lastSeq))
    (loaded' : loadLeaves js table (some lastSeq) = .ok (leaves, lastSeq))
    (size : checkpoint.head.size = m) (some' : 0 < m) :
    verifyAuditAgainstCheckpoint js cryptoVerify table checkpoint publicKeyPem =
      .ok (if m ≤ leaves.length then
        (verifyAuditConsistency checkpoint.head (treeHead leaves lastSeq)
          ((consistencyPath m leaves true).map Bytes.toHex)).map fun consistent =>
            if consistent then .ok (treeHead leaves lastSeq)
            else .inconsistentLog (treeHead leaves lastSeq)
      else some (.inconsistentLog (treeHead leaves lastSeq))) := by
  rw [verifyAuditAgainstCheckpoint, if_pos signed, computeAuditTreeHead, loaded]
  simp only [bind, Except.bind, pure, Except.pure]
  by_cases inside : m ≤ leaves.length
  · rw [if_neg (by simp only [treeHead, size]; omega), if_pos inside,
      proveAuditConsistency, if_neg (by simp only [treeHead, size]; omega)]
    simp only [treeHead] at loaded' ⊢
    rw [loaded']
    simp only [bind, Except.bind, ne_eq, not_true_eq_false, if_false, size]
    by_cases whole : m = leaves.length
    · rw [if_pos (by omega), consistencyPath_whole whole]
      rfl
    · rw [if_neg (by omega), Int.toNat_natCast]
      rfl
  · rw [if_pos (by simp only [treeHead, size]; omega), if_neg inside]

end Reading

variable {leaves : List Bytes} {m : Nat}

theorem seed_sound {inputs : List Bytes} {seed : Bytes} {tops : Bytes × Bytes}
    (cancels : Pairing.Cancels nodeHash IsDigest (fun pair => nodeInput pair.1 pair.2 ∈ inputs))
    (known : Pairing.Known nodeHash IsDigest (fun pair => nodeInput pair.1 pair.2 ∈ inputs) leaves)
    (some' : 0 < m) (power : m.isPowerOfTwo) (inside : m < leaves.length)
    (walked : ∀ pair ∈
      Pairing.climbedBoth nodeHash (Pairing.leftBranch (m - 1)
        (leaves.length - 1)).1 (Pairing.leftBranch (m - 1)
          (leaves.length - 1)).2 (consistencyPath m leaves true) seed seed,
            nodeInput pair.1 pair.2 ∈ inputs)
    (climbs : Pairing.climbBoth nodeHash (Pairing.leftBranch (m - 1)
      (leaves.length - 1)).1 (Pairing.leftBranch (m - 1)
        (leaves.length - 1)).2 (consistencyPath m leaves true) seed seed = some tops)
    (top : tops.2 = merkleTreeHash leaves) :
    tops.1 = seed ∧ seed = merkleTreeHash (leaves.take m) := by
  have nonempty : leaves ≠ [] := List.length_pos_iff.mp (by omega)
  induction m using Nat.strongRecOn generalizing leaves with
  | ind m ih =>
    rcases Nat.mod_two_eq_zero_or_one m with even | odd
    · have size := Pairing.pairUp_length nodeHash leaves
      rw [consistencyPath_even even some' (by omega),
        leftBranch_half even some', ← size] at walked climbs
      rw [← merkleTreeHash_pairUp nonempty] at top
      rw [← merkleTreeHash_take even some' (by omega)]
      exact ih (m / 2) (by omega) (known.above cancels (by omega)) (by omega)
        ((isPowerOfTwo_half even some').mp power) (by omega) walked climbs top
        (List.length_pos_iff.mp (by omega))
    · obtain rfl := (isPowerOfTwo_odd odd).mp power
      obtain ⟨first, second, rest, rfl⟩ : ∃ first second rest,
          leaves = first :: second :: rest := by
        match leaves, inside with
        | first :: second :: rest, _ => exact ⟨first, second, rest, rfl⟩
      have path : consistencyPath 1 (first :: second :: rest) true =
          second :: Pairing.siblings nodeHash 0
            (Pairing.pairUp nodeHash (first :: second :: rest)) := by
        rw [@consistencyPath_odd (first :: second :: rest) 1 true first odd
          (.inl inside) rfl, if_pos ⟨rfl, rfl⟩, Pairing.siblings_more (by simp)]
        rfl
      rw [path, Pairing.leftBranch_even rfl] at walked climbs
      have second' := @Pairing.climbBoth_second _ nodeHash 0
        ((first :: second :: rest).length - 1)
        (second :: Pairing.siblings nodeHash 0
          (Pairing.pairUp nodeHash (first :: second :: rest))) seed seed
      have found := Pairing.climb_sound_right cancels known rfl inside
        (known.proper second (by simp))
        (fun pair member => walked pair (Pairing.climbed_subset_both member))
        (by
          rw [← second', root_merkleTreeHash nonempty, ← top]
          exact congrArg (Option.map Prod.snd) climbs)
      refine ⟨Pairing.climbBoth_zero climbs, ?_⟩
      rw [← Option.some.inj found]
      exact (merkleTreeHash_one first).symm

theorem checkpoint_sound {head : AuditTreeHead} {lastSeq : Int}
    (digests : ∀ leaf ∈ leaves, IsDigest leaf)
    (free : CollisionFree (treeInputs leaves ++ consistencyInputs head (treeHead leaves lastSeq)
      ((consistencyPath m leaves true).map Bytes.toHex)))
    (small : leaves.length < 2 ^ 31) (size : head.size = m) (some' : 0 < m)
    (inside : m ≤ leaves.length) :
    verifyAuditConsistency head (treeHead leaves lastSeq)
        ((consistencyPath m leaves true).map Bytes.toHex) = some true ↔
      (merkleTreeHash (leaves.take m)).toHex = head.rootHash := by
  have decoded : ((consistencyPath m leaves true).map Bytes.toHex).map
      Bytes.fromHex = consistencyPath m leaves true := by
    rw [List.map_map]
    exact List.map_id'' Bytes.fromHex_toHex _
  constructor
  · intro accepted
    rcases Nat.lt_or_eq_of_le inside with shorter | rfl
    · obtain ⟨seed, rest, tops, full, climbs, first, second⟩ :=
        (verifyAuditConsistency_iff size rfl some' shorter small).mp accepted
      have second' := Bytes.toHex_injective second
      have walked := @consistencyInputs_climbedBoth head
        (treeHead leaves lastSeq) _ _ _ _ _ size rfl some' shorter small full
      rw [fullPath, decoded, size] at full
      by_cases power : m.isPowerOfTwo
      · rw [if_pos ((isPowerOfTwo_nat (by omega)).mpr power)] at full
        obtain ⟨rfl, rfl⟩ := List.cons.inj full
        obtain ⟨kept, seeded⟩ := seed_sound (nodeHash_cancels free)
          (known_leaves digests (List.subset_append_left _ _)) some' power shorter
          (fun pair member => List.mem_append_right _ (by
            rw [walked]
            exact List.mem_map_of_mem member)) climbs second'
        rw [← first, kept, ← seeded]
      · rw [if_neg (by rwa [isPowerOfTwo_nat (by omega)])] at full
        obtain ⟨seed', rest', -, honest, reached⟩ := honest_climbs some' shorter
        obtain ⟨rfl, rfl⟩ := List.cons.inj ((honest power).symm.trans full)
        rw [reached] at climbs
        cases climbs
        exact first
    · rw [verifyAuditConsistency_same some' size rfl] at accepted
      simp only [Option.some.injEq, Bool.and_eq_true, beq_iff_eq] at accepted
      rw [List.take_length, accepted.1]
      rfl
  · intro root
    have accepted := @consistency_complete leaves m head.lastSeq lastSeq small some'
      inside
    have same : treeHead (leaves.take m) head.lastSeq = head := by
      obtain ⟨size', rootHash, last⟩ := head
      simp only at size root
      rw [treeHead, root, List.length_take, Nat.min_eq_left inside, ← size]
    rwa [same] at accepted

/-- The honest path is accepted between any two heads of a log; whatever is
accepted between two heads makes the older log the beginning of the newer; and a
checkpoint holds exactly when the stored log begins with what was signed. -/
theorem consistency_complete_sound :
    (∀ (leaves : List Bytes) (m : Nat) (lastSeq lastSeq' : Int),
      leaves.length < 2 ^ 31 → 1 ≤ m → m ≤ leaves.length →
      verifyAuditConsistency (treeHead (leaves.take m) lastSeq)
        (treeHead leaves lastSeq')
        ((consistencyPath m leaves true).map Bytes.toHex) = some true) ∧
    (∀ (older newer : List Bytes) (lastSeq lastSeq' : Int) (proof : List String),
      (∀ leaf ∈ older, IsDigest leaf) → (∀ leaf ∈ newer, IsDigest leaf) →
      CollisionFree (treeInputs older ++ treeInputs newer ++
        consistencyInputs (treeHead older lastSeq) (treeHead newer lastSeq') proof) →
      1 ≤ older.length → older.length ≤ newer.length → newer.length < 2 ^ 31 →
      verifyAuditConsistency (treeHead older lastSeq) (treeHead newer lastSeq')
        proof = some true → older <+: newer) ∧
    (∀ (js : Runtime) (cryptoVerify : CryptoVerify) (table : AuditTable)
      (checkpoint : SignedAuditCheckpoint) (publicKeyPem : String) (m : Nat),
      verifyAuditCheckpointSignature js cryptoVerify checkpoint publicKeyPem =
        true → checkpoint.head.size = m → 1 ≤ m →
      ∃ leaves lastSeq, loadLeaves js table none = .ok (leaves, lastSeq) ∧
        (leaves.length < 2 ^ 31 → CollisionFree (treeInputs leaves ++
          consistencyInputs checkpoint.head (treeHead leaves lastSeq)
            ((consistencyPath m leaves true).map Bytes.toHex)) →
        ((∃ current, verifyAuditAgainstCheckpoint js cryptoVerify table checkpoint
            publicKeyPem = .ok (some (.ok current))) ↔ m ≤ leaves.length ∧
            (merkleTreeHash (leaves.take m)).toHex = checkpoint.head.rootHash))) := by
  refine ⟨?_, ?_, ?_⟩
  · intro leaves m lastSeq lastSeq' small some' inside
    exact consistency_complete small some' inside
  · intro older newer lastSeq lastSeq' proof digests digests' free some' inside
      small accepted
    exact consistency_sound digests digests' free some' inside small accepted
  · intro js cryptoVerify table checkpoint publicKeyPem m signed size some'
    obtain ⟨leaves, lastSeq, loaded, loaded', digests⟩ := loadLeaves_ok js table
    refine ⟨leaves, lastSeq, loaded, fun small free => ?_⟩
    rw [verifyAuditAgainstCheckpoint_eq js signed loaded loaded' size some']
    by_cases inside : m ≤ leaves.length
    · rw [if_pos inside, ← checkpoint_sound digests free small size some' inside]
      cases verifyAuditConsistency checkpoint.head (treeHead leaves lastSeq)
          ((consistencyPath m leaves true).map Bytes.toHex) with
      | none => simp
      | some consistent => cases consistent <;> simp [inside]
    · simp [inside]

def openedTable : AuditTable where
  rows := [⟨1, 1700000000000, ⟨.system, ascii "boot", none⟩,
      ascii "audit:db-opened", ascii "audit.db", .success, none, none,
      GENESIS_PREV_HASH, ascii "c0ffee"⟩,
    ⟨2, 1700000000001, ⟨.cli, ascii "op", none⟩, ascii "audit:exported",
      ascii "audit.db", .success, none, none, ascii "c0ffee", ascii "decade"⟩]
  ordered := by simp
  distinct := by
    refine .cons (fun row member => ?_) (.cons (by simp) .nil)
    obtain rfl := List.mem_singleton.mp member
    decide

def openedRoots : List Bytes :=
  ((loadLeaves plainRuntime openedTable none).toOption.map Prod.fst).getD []

def openedCheckpoint : SignedAuditCheckpoint where
  head := treeHead (openedRoots.take 1) 1
  writerId := ascii "ci"
  signedAt := ascii "2023-11-14T22:13:20.000Z"
  signature := "c2ln"
  publicKeyPem := "pem"

theorem openedRoots_pair : ∃ first second, IsDigest first ∧ IsDigest second ∧
    loadLeaves plainRuntime openedTable none = .ok ([first, second], 2) ∧
    openedRoots = [first, second] := by
  obtain ⟨older, newer, rows⟩ : ∃ older newer, openedTable.rows = [older, newer] :=
    ⟨_, _, rfl⟩
  obtain ⟨first, hashed, digest⟩ := leafHash_row plainRuntime older
  obtain ⟨second, hashed', digest'⟩ := leafHash_row plainRuntime newer
  obtain ⟨start, last⟩ : older.seq = 1 ∧ newer.seq = 2 := by
    simp only [openedTable, List.cons.injEq, and_true] at rows
    obtain ⟨rfl, rfl⟩ := rows
    exact ⟨rfl, rfl⟩
  have loaded : loadLeaves plainRuntime openedTable none = .ok ([first, second], 2) := by
    have walked : openedTable.iterate none none =
        [rowToEntry older, rowToEntry newer] := by
      rw [AuditTable.iterate, rows]
      simp [start, last, AuditTable.maxSafeInteger]
    rw [loadLeaves, walked, List.mapM_cons, List.mapM_cons, hashed, hashed']
    simp [bind, Except.bind, pure, Except.pure, Except.mapError, rowToEntry, last]
  refine ⟨first, second, digest, digest', loaded, ?_⟩
  rw [openedRoots, loaded]
  rfl

theorem pair_inputs (first second : Bytes) (lastSeq lastSeq' : Int) :
    ∀ input ∈ treeInputs [first] ++ treeInputs [first, second] ++
      consistencyInputs (treeHead [first] lastSeq) (treeHead [first, second] lastSeq')
        ((consistencyPath 1 [first, second] true).map Bytes.toHex),
      input = nodeInput first second := by
  have path : consistencyPath 1 [first, second] true = [second] := by
    simp [consistencyPath, merkleTreeHash, lower, upper, largestPowerOfTwoBelow,
      doubleBelow]
  have whole : fullPath (treeHead [first] lastSeq) [Bytes.toHex second] =
      [first, second] := by
    have power : isPowerOfTwo (1 : Int) = true := by decide
    simp [fullPath, treeHead, merkleTreeHash, power]
  have start : skipOdd 32 ((treeHead [first] lastSeq).size - 1)
      ((treeHead [first, second] lastSeq').size - 1) = some (0, 1) := by
    change skipOdd 32 0 1 = some (0, 1)
    decide
  have tree : treeInputs [first, second] = [nodeInput first second] := by
    simp [treeInputs, merkleTreeHash, lower, upper, largestPowerOfTwoBelow, doubleBelow]
  have leaf : treeInputs [first] = [] := by simp [treeInputs]
  rw [path, consistencyInputs, List.map_cons, List.map_nil, whole, start, tree, leaf]
  have low : lowBit 0 = 0 := by decide
  simp [foldBothInputs, low]

theorem opened_log_extends :
    verifyAuditConsistency (treeHead (openedRoots.take 1) 1)
        (treeHead openedRoots 2)
        ((consistencyPath 1 openedRoots true).map Bytes.toHex) = some true ∧
      openedRoots.take 1 <+: openedRoots ∧
      ∃ current, verifyAuditAgainstCheckpoint plainRuntime
        (fun _ _ _ => some true) openedTable openedCheckpoint "pem" =
          .ok (some (.ok current)) := by
  obtain ⟨complete, sound, anchored⟩ := consistency_complete_sound
  obtain ⟨first, second, digest, digest', loaded, roots⟩ := openedRoots_pair
  have accepted := complete openedRoots 1 1 2 (by simp [roots]) (by decide) (by simp [roots])
  have one := pair_inputs first second 1 2
  have digests : ∀ leaf ∈ openedRoots, IsDigest leaf := by
    rw [roots]
    simpa using ⟨digest, digest'⟩
  refine ⟨accepted, ?_, ?_⟩
  · refine sound (openedRoots.take 1) openedRoots 1 2 _
      (fun leaf member => digests leaf (List.mem_of_mem_take member)) digests ?_
      (by simp [roots]) (by simp [roots]) (by simp [roots]) accepted
    rw [roots]
    exact .of_all_same one
  · have head : openedCheckpoint.head = treeHead [first] 1 := by
      rw [openedCheckpoint, roots]
      rfl
    obtain ⟨leaves, lastSeq, loaded', holds⟩ := anchored plainRuntime
      (fun _ _ _ => some true) openedTable openedCheckpoint "pem" 1
      (by decide) (by rw [head]; rfl) (by decide)
    obtain ⟨rfl, rfl⟩ := Prod.mk.inj (Except.ok.inj (loaded.symm.trans loaded'))
    refine (holds (by simp) ?_).mpr ⟨by simp, by rw [head]; rfl⟩
    rw [head]
    refine .of_all_same fun input member => one input ?_
    rw [List.append_assoc]
    exact List.mem_append_right _ member

/-- Logs whose heads were shown to extend each other one after the other; `inputs` is all that
was hashed for it. -/
inductive Extends (inputs : List Bytes) (older : List Bytes) : List Bytes → Prop
  | refl : Extends inputs older older
  | step {between newer : List Bytes} {lastSeq lastSeq' : Int} {proof : List String} :
      Extends inputs older between → between.length ≤ newer.length →
      newer.length < 2 ^ 31 → (∀ leaf ∈ newer, IsDigest leaf) →
      treeInputs between ++ treeInputs newer ++ consistencyInputs (treeHead between lastSeq)
        (treeHead newer lastSeq') proof ⊆ inputs →
      verifyAuditConsistency (treeHead between lastSeq) (treeHead newer lastSeq') proof =
        some true → Extends inputs older newer

variable {inputs older newer : List Bytes}

theorem CollisionFree.of_subset (free : CollisionFree inputs) (fewer : others ⊆ inputs) :
    CollisionFree others :=
  fun _ member _ member' same => free _ (fewer member) _ (fewer member') same

theorem Extends.begins (chain : Extends inputs older newer) (free : CollisionFree inputs)
    (nonempty : 1 ≤ older.length) (small : older.length < 2 ^ 31)
    (digests : ∀ leaf ∈ older, IsDigest leaf) :
    older <+: newer ∧ newer.length < 2 ^ 31 ∧ ∀ leaf ∈ newer, IsDigest leaf := by
  induction chain with
  | refl => exact ⟨List.prefix_refl _, small, digests⟩
  | step _ inside small' digests' hashed accepted ih =>
    have extends' := consistency_sound ih.2.2 digests' (free.of_subset hashed)
      (nonempty.trans ih.1.length_le) inside small' accepted
    exact ⟨ih.1.trans extends', small', digests'⟩

/-- However many heads lie between, an older head is consistent with the newest one, an entry
of the older log can still be shown to be in the newest, at its place, and whoever else came
to the newest head saw no other log. -/
theorem audited_heads_are_one_log (free : CollisionFree inputs)
    (chain : Extends inputs older newer) (nonempty : 1 ≤ older.length)
    (small : older.length < 2 ^ 31) (digests : ∀ leaf ∈ older, IsDigest leaf)
    (lastSeq lastSeq' : Int) :
    older <+: newer ∧
      verifyAuditConsistency (treeHead older lastSeq) (treeHead newer lastSeq')
        ((consistencyPath older.length newer true).map Bytes.toHex) = some true ∧
      (∀ (js : Runtime) (entry : StoredAuditEntry) (proof : AuditInclusionProof) (m : Nat)
        (leaf : Bytes), leafHash js entry = .ok leaf → older[m]? = some leaf →
        proof.leafIndex = m → proof.treeSize = newer.length →
        proof.path = (inclusionPath m newer).map Bytes.toHex →
          verifyAuditInclusion js entry proof (treeHead newer lastSeq') = .ok true) ∧
      ∀ other, Extends inputs other newer → 1 ≤ other.length → other.length < 2 ^ 31 →
        (∀ leaf ∈ other, IsDigest leaf) → older <+: other ∨ other <+: older := by
  obtain ⟨begins, small', -⟩ := chain.begins free nonempty small digests
  refine ⟨begins, ?_, ?_, ?_⟩
  · have honest := @consistency_complete newer older.length lastSeq lastSeq' small' nonempty
      begins.length_le
    rwa [← List.prefix_iff_eq_take.mp begins] at honest
  · intro js entry proof m leaf hashed here index size path
    have there : newer[m]? = some leaf := by
      obtain ⟨tail, rfl⟩ := begins
      rwa [List.getElem?_append_left (List.getElem?_eq_some_iff.mp here).1]
    have inside := (List.getElem?_eq_some_iff.mp there).1
    rw [verifyAuditInclusion_iff small' inside index size]
    refine ⟨leaf, hashed, ?_⟩
    have decoded : proof.path.map Bytes.fromHex = inclusionPath m newer := by
      rw [path, List.map_map]
      exact List.map_id'' Bytes.fromHex_toHex _
    rw [decoded, inclusionPath_siblings inside]
    exact Pairing.climb_siblings nodeHash there
  · intro other chain' nonempty' small'' digests'
    exact List.prefix_or_prefix_of_prefix begins
      (chain'.begins free nonempty' small'' digests').1

theorem opened_heads_are_one_log : openedRoots.take 1 <+: openedRoots := by
  obtain ⟨first, second, digest, digest', -, roots⟩ := openedRoots_pair
  have one := pair_inputs first second 1 2
  rw [roots]
  have accepted := @consistency_complete [first, second] 1 1 2 (by simp) (by simp) (by simp)
  have chain := Extends.step .refl (by simp) (by simp) (by simpa using ⟨digest, digest'⟩)
    (List.Subset.refl _) accepted
  exact (audited_heads_are_one_log (.of_all_same one) chain (by simp) (by simp)
    (by simpa using digest) 1 2).1

end Graphorin.Audit
