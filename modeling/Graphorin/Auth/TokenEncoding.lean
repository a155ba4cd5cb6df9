import Mathlib.Data.List.GetD
import Mathlib.Data.Nat.Digits.Lemmas
import Graphorin.Auth.Checksum

/-!
# Tokens, written and read

The long division writes the digits of the number the bytes make. A minted token is read
back, and one character changed in its entropy or its checksum is noticed.
-/

namespace Graphorin.Auth

open Graphorin.Js

def bytesValue (bytes : Bytes) : Nat := bigEndianValue 0 (bytes.map UInt8.toNat)

/-- The base-62 numeral of a number, zeros before it. -/
def numeral (value width : Nat) : List Char :=
  (Nat.digits 62 value ++ List.replicate (width - (Nat.digits 62 value).length) 0).reverse.map
    base62Char

theorem dividePass_remainder {bytes : List Nat} {leadingZero : Bool} {remainder : Nat}
    (small : remainder < 62) : (dividePass bytes leadingZero remainder).2 < 62 := by
  induction bytes generalizing leadingZero remainder with
  | nil => exact small
  | cons byte rest ih =>
    rw [dividePass]
    simp only
    split
    · exact ih (Nat.mod_lt _ (by omega))
    · exact ih (Nat.mod_lt _ (by omega))

/-- Written without a leading zero. -/
def Trimmed (bytes : List Nat) : Prop := ∀ first ∈ bytes.head?, 0 < first

theorem dividePass_trimmed (bytes : List Nat) (remainder : Nat) :
    Trimmed (dividePass bytes true remainder).1 := by
  induction bytes generalizing remainder with
  | nil => exact nofun
  | cons byte rest ih =>
    rw [dividePass]
    simp only
    split
    · rename_i kept
      intro first leads
      obtain rfl := Option.some.inj leads
      simpa using kept
    · exact ih _

theorem pass_value (bytes : List Nat) :
    bigEndianValue 0 (dividePass bytes true 0).1 = bigEndianValue 0 bytes / 62 ∧
      (dividePass bytes true 0).2 = bigEndianValue 0 bytes % 62 := by
  have value := (dividePass_value bytes true 0).1
  have small := @dividePass_remainder bytes true 0 (by omega)
  omega

theorem trimmed_positive (trimmed : Trimmed (first :: rest)) :
    0 < bigEndianValue 0 (first :: rest) := by
  have positive := trimmed first rfl
  rw [bigEndianValue, bigEndianValue_eq]
  have power : 0 < 256 ^ rest.length := Nat.pow_pos (by omega)
  have product := Nat.mul_pos (show 0 < 0 * 256 + first by omega) power
  omega

theorem divisionDigits_trimmed (fuel : Nat) (trimmed : Trimmed bytes)
    (enough : bigEndianValue 0 bytes < 62 ^ fuel) :
    divisionDigits fuel bytes = Nat.digits 62 (bigEndianValue 0 bytes) := by
  induction fuel generalizing bytes with
  | zero =>
    have zero : bigEndianValue 0 bytes = 0 := by simpa using enough
    rw [zero, Nat.digits_zero, divisionDigits]
  | succ _ ih =>
    cases bytes with
    | nil => rw [bigEndianValue, Nat.digits_zero, divisionDigits]
    | cons first rest =>
      obtain ⟨quotient, remainder⟩ := pass_value (first :: rest)
      have positive := trimmed_positive trimmed
      rw [divisionDigits, ih (dividePass_trimmed _ _), quotient, remainder,
        Nat.digits_eq_cons_digits_div (by omega) positive.ne']
      rw [quotient]
      rw [pow_succ] at enough
      omega

theorem divisionDigits_nonempty (fuel : Nat)
    (enough : bigEndianValue 0 (first :: rest) < 62 ^ fuel) :
    divisionDigits (fuel + 1) (first :: rest) =
      bigEndianValue 0 (first :: rest) % 62 ::
        Nat.digits 62 (bigEndianValue 0 (first :: rest) / 62) := by
  obtain ⟨quotient, remainder⟩ := pass_value (first :: rest)
  rw [divisionDigits, divisionDigits_trimmed fuel (dividePass_trimmed _ _), quotient,
    remainder]
  rw [quotient]
  exact (Nat.div_le_self _ _).trans_lt enough

theorem value_within (bytes : Bytes) : bytesValue bytes < 62 ^ (8 * bytes.length) := by
  refine (bigEndianValue_lt bytes).trans_le ?_
  rw [pow_mul]
  exact Nat.pow_le_pow_left (by norm_num) _

/-- The digits of the passes, padded, are the digits of the number. -/
theorem divisionDigits_padded (bytes : Bytes) {width : Nat} (positive : 0 < width) :
    let out := divisionDigits (8 * bytes.length + 1) (bytes.map UInt8.toNat)
    (width < out.length ↔ 62 ^ width ≤ bytesValue bytes) ∧
      (bytesValue bytes < 62 ^ width → out ++ List.replicate (width - out.length) 0 =
        Nat.digits 62 (bytesValue bytes) ++
          List.replicate (width - (Nat.digits 62 (bytesValue bytes)).length) 0) := by
  intro out
  have fits := Nat.digits_length_le_iff (b := 62) (k := width) (by omega) (bytesValue bytes)
  rcases Nat.eq_zero_or_pos (bytesValue bytes) with zero | some
  · have shown : out = [] ∨ out = [0] := by
      cases given : bytes with
      | nil =>
        left
        show divisionDigits _ (bytes.map UInt8.toNat) = []
        rw [given]
        rfl
      | cons =>
        right
        have enough := value_within bytes
        show divisionDigits _ (bytes.map UInt8.toNat) = [0]
        unfold bytesValue at zero enough
        rw [given] at zero enough ⊢
        rw [List.map_cons] at zero enough ⊢
        rw [divisionDigits_nonempty _ enough, zero, Nat.zero_mod, Nat.zero_div,
          Nat.digits_zero]
    have power : 0 < 62 ^ width := Nat.pow_pos (by omega)
    rw [zero, Nat.digits_zero]
    rcases shown with nothing | one
    · rw [nothing]
      exact ⟨by simp, fun _ => rfl⟩
    · rw [one]
      refine ⟨by simp; omega, fun _ => ?_⟩
      obtain ⟨width, rfl⟩ := Nat.exists_eq_succ_of_ne_zero positive.ne'
      simp [List.replicate_succ]
  · have shown : out = Nat.digits 62 (bytesValue bytes) := by
      cases given : bytes with
      | nil =>
        rw [given] at some
        exact absurd some (Nat.lt_irrefl 0)
      | cons =>
        have enough := value_within bytes
        show divisionDigits _ (bytes.map UInt8.toNat) = _
        unfold bytesValue at some enough ⊢
        rw [given] at some enough ⊢
        rw [List.map_cons] at some enough ⊢
        rw [divisionDigits_nonempty _ enough,
          ← Nat.digits_eq_cons_digits_div (by omega) some.ne']
    rw [shown]
    exact ⟨by omega, fun _ => rfl⟩

theorem encodeBase62Bytes_eq_ok (bytes : Bytes) (width : Int) (text : List Char) :
    encodeBase62Bytes bytes width = .ok text ↔
      0 < width ∧ bytesValue bytes < 62 ^ width.toNat ∧
        text = numeral (bytesValue bytes) width.toNat := by
  unfold encodeBase62Bytes
  split
  · exact iff_of_false nofun (fun fits => absurd fits.1 (by omega))
  · rename_i some
    obtain ⟨longer, padded⟩ := @divisionDigits_padded bytes width.toNat (by omega)
    simp only
    split
    · rename_i long
      refine iff_of_false nofun (fun fits => ?_)
      have wide := longer.mp (by omega)
      omega
    · rename_i short
      have fits : bytesValue bytes < 62 ^ width.toNat :=
        not_le.mp (mt longer.mpr (by omega))
      rw [padded fits]
      constructor
      · intro same
        exact ⟨by omega, fits, (Except.ok.inj same).symm⟩
      · rintro ⟨-, -, rfl⟩
        rfl

theorem base62Char_mem (digit : Nat) : base62Char digit ∈ base62Alphabet := by
  rw [base62Char]
  by_cases inside : digit < base62Alphabet.length
  · rw [List.getD_eq_getElem _ _ inside]
    exact List.getElem_mem inside
  · rw [List.getD_eq_default _ _ (by omega)]
    decide

theorem base62Char_inj {digit digit' : Nat} (small : digit < 62) (small' : digit' < 62)
    (same : base62Char digit = base62Char digit') : digit = digit' := by
  have distinct : base62Alphabet.Nodup := by decide
  rw [base62Char, base62Char, List.getD_eq_getElem _ _ (show digit < base62Alphabet.length from
    small), List.getD_eq_getElem _ _ (show digit' < base62Alphabet.length from small')] at same
  exact (List.Nodup.getElem_inj_iff distinct).mp same

theorem map_base62_inj {digits digits' : List Nat} (small : ∀ digit ∈ digits, digit < 62)
    (small' : ∀ digit ∈ digits', digit < 62)
    (same : digits.map base62Char = digits'.map base62Char) : digits = digits' := by
  induction digits generalizing digits' with
  | nil =>
    cases digits' with
    | nil => rfl
    | cons => cases same
  | cons digit rest ih =>
    cases digits' with
    | nil => cases same
    | cons =>
      obtain ⟨here, later⟩ := List.forall_mem_cons.mp small
      obtain ⟨here', later'⟩ := List.forall_mem_cons.mp small'
      obtain ⟨head, tail⟩ := List.cons.inj same
      rw [base62Char_inj here here' head, ih later later' tail]

theorem padded_small (value count : Nat) :
    ∀ digit ∈ (Nat.digits 62 value ++ List.replicate count 0).reverse, digit < 62 := by
  intro digit among
  rw [List.mem_reverse, List.mem_append] at among
  rcases among with digit' | zero
  · exact Nat.digits_lt_base (by omega) digit'
  · rw [List.eq_of_mem_replicate zero]
    omega

theorem numeral_inj {value value' width : Nat} (same : numeral value width = numeral value' width) :
    value = value' := by
  have digits := map_base62_inj (padded_small _ _) (padded_small _ _) same
  have values := congrArg (fun digits => Nat.ofDigits 62 digits.reverse) digits
  simp only [List.reverse_reverse, Nat.ofDigits_append_replicate_zero,
    Nat.ofDigits_digits] at values
  exact values

theorem numeral_length (fits : value < 62 ^ width) :
    (numeral value width).length = width := by
  have short := (Nat.digits_length_le_iff (b := 62) (by omega) value).mpr fits
  rw [numeral, List.length_map, List.length_reverse, List.length_append,
    List.length_replicate]
  omega

theorem numeral_base62 (value width : Nat) : isBase62 (numeral value width) = true := by
  rw [isBase62, List.all_eq_true]
  intro char among
  obtain ⟨digit, -, rfl⟩ := List.mem_map.mp among
  exact List.contains_iff_mem.mpr (base62Char_mem digit)

variable {bytes : Bytes}

theorem bytesValue_inj (length : bytes.length = bytes'.length)
    (same : bytesValue bytes = bytesValue bytes') : bytes = bytes' := by
  induction bytes generalizing bytes' with
  | nil =>
    cases bytes' with
    | nil => rfl
    | cons => cases length
  | cons byte rest ih =>
    cases bytes' with
    | nil => cases length
    | cons byte' rest' =>
      have length : rest.length = rest'.length := Nat.succ.inj length
      have high := bigEndianValue_lt rest
      have high' := bigEndianValue_lt rest'
      unfold bytesValue at same ih
      rw [List.map_cons, List.map_cons, bigEndianValue, bigEndianValue, bigEndianValue_eq,
        bigEndianValue_eq (0 * 256 + byte'.toNat), List.length_map, List.length_map,
        ← length] at same
      rw [← length] at high'
      have heads : byte.toNat = byte'.toNat := by
        generalize 256 ^ rest.length = power at same high high'
        rcases Nat.lt_trichotomy byte.toNat byte'.toNat with less | equal | more
        · have step := Nat.mul_le_mul_right power (Nat.succ_le_of_lt less)
          rw [Nat.succ_mul] at step
          rw [Nat.zero_mul, Nat.zero_add, Nat.zero_add] at same
          omega
        · exact equal
        · have step := Nat.mul_le_mul_right power (Nat.succ_le_of_lt more)
          rw [Nat.succ_mul] at step
          rw [Nat.zero_mul, Nat.zero_add, Nat.zero_add] at same
          omega
      rw [heads] at same
      rw [UInt8.toNat_inj.mp heads, ih length (by omega)]

theorem integerDigits_eq (fuel value : Nat) (enough : value ≤ fuel) :
    integerDigits fuel value = Nat.digits 62 value := by
  induction fuel generalizing value with
  | zero =>
    obtain rfl := Nat.le_zero.mp enough
    rw [integerDigits, Nat.digits_zero]
  | succ fuel ih =>
    rw [integerDigits]
    split
    · rename_i zero
      rw [zero, Nat.digits_zero]
    · rename_i some
      rw [ih _ (by omega), ← Nat.digits_eq_cons_digits_div (by omega) some]

theorem encodeBase62Integer_eq_ok (value : Nat) (width : Int) (text : List Char) :
    encodeBase62Integer value width = .ok text ↔
      0 < width ∧ value < 62 ^ width.toNat ∧ text = numeral value width.toNat := by
  have fits := Nat.digits_length_le_iff (b := 62) (k := width.toNat) (by omega) value
  unfold encodeBase62Integer
  split
  · exact iff_of_false nofun (fun fits => absurd fits.1 (by omega))
  · rename_i some
    simp only [integerDigits_eq value value le_rfl, List.length_map, List.length_reverse]
    split
    · refine iff_of_false nofun (fun within => ?_)
      omega
    · have same : List.replicate (width.toNat - (Nat.digits 62 value).length) '0' ++
          (Nat.digits 62 value).reverse.map base62Char = numeral value width.toNat := by
        rw [numeral, List.reverse_append, List.map_append, List.reverse_replicate,
          List.map_replicate]
        rfl
      rw [same]
      constructor
      · intro encoded
        exact ⟨by omega, by omega, (Except.ok.inj encoded).symm⟩
      · rintro ⟨-, -, rfl⟩
        rfl

theorem splitChars_ne_nil (separator : Char) (text : List Char) :
    splitChars separator text ≠ [] := by
  cases text with
  | nil => exact List.cons_ne_nil _ _
  | cons =>
    rw [splitChars]
    split
    · exact List.cons_ne_nil _ _
    · split <;> exact List.cons_ne_nil _ _

variable {text : List Char}

theorem splitChars_last (none : separator ∉ text) :
    splitChars separator text = [text] := by
  induction text with
  | nil => rfl
  | cons char _ ih =>
    have other : char ≠ separator := fun same => none (same ▸ List.mem_cons_self)
    rw [splitChars, if_neg other, ih fun among => none (List.mem_cons_of_mem _ among)]

theorem splitChars_first (none : separator ∉ text) (rest : List Char) :
    splitChars separator (text ++ separator :: rest) = text :: splitChars separator rest := by
  induction text with
  | nil => exact if_pos rfl
  | cons char _ ih =>
    have other : char ≠ separator := fun same => none (same ▸ List.mem_cons_self)
    rw [List.cons_append, splitChars, if_neg other,
      ih fun among => none (List.mem_cons_of_mem _ among)]

theorem splitChars_length (separator : Char) (text : List Char) :
    (splitChars separator text).length = text.count separator + 1 := by
  induction text with
  | nil => rfl
  | cons char rest ih =>
    rw [splitChars]
    split
    · rename_i same
      rw [List.length_cons, ih, same, List.count_cons_self]
    · rename_i other
      rw [List.count_cons_of_ne other]
      cases segments : splitChars separator rest with
      | nil => exact absurd segments (splitChars_ne_nil _ _)
      | cons =>
        rw [segments] at ih
        exact ih

theorem splitChars_joins (separator : Char) (text : List Char) :
    [separator].intercalate (splitChars separator text) = text ∧
      ∀ segment ∈ splitChars separator text, separator ∉ segment := by
  induction text with
  | nil => simp [splitChars]
  | cons char rest ih =>
    obtain ⟨joined, none⟩ := ih
    rw [splitChars]
    cases segments : splitChars separator rest with
    | nil => exact absurd segments (splitChars_ne_nil _ _)
    | cons first others =>
      rw [segments] at joined none
      obtain ⟨here, later⟩ := List.forall_mem_cons.mp none
      split
      · rename_i same
        refine ⟨?_, List.forall_mem_cons.mpr ⟨List.not_mem_nil, none⟩⟩
        rw [List.intercalate_cons_cons, joined, same]
        rfl
      · rename_i other
        refine ⟨?_, List.forall_mem_cons.mpr ⟨?_, later⟩⟩
        · rw [← joined]
          cases others <;> rfl
        · simpa [Ne.symm other] using here

/-- The text of a token with these segments. -/
def assemble (tokenPrefix env entropy checksum : List Char) : List Char :=
  tokenPrefix ++ '_' :: (env ++ '_' :: (tokenVersion.toList ++ '_' ::
    (entropy ++ '_' :: checksum)))

variable {entropy checksum : List Char}

theorem splitChars_assemble (noPrefix : '_' ∉ tokenPrefix) (noEnv : '_' ∉ env)
    (noEntropy : '_' ∉ entropy) (noChecksum : '_' ∉ checksum) :
    splitChars '_' (assemble tokenPrefix env entropy checksum) =
      [tokenPrefix, env, tokenVersion.toList, entropy, checksum] := by
  have noVersion : '_' ∉ tokenVersion.toList := by decide
  rw [assemble, splitChars_first noPrefix, splitChars_first noEnv, splitChars_first noVersion,
    splitChars_first noEntropy, splitChars_last noChecksum]

structure Sound (opts : ParseTokenOptions) (tokenPrefix env entropy checksum : List Char) :
    Prop where
  accepted : tokenPrefix = (opts.acceptPrefix.getD defaultTokenPrefix).toList
  environment : isAcceptedEnvironment env opts.acceptEnvironments = true
  entropyLength : jsLength entropy = tokenEntropyLength
  entropyChars : isBase62 entropy = true
  checksumLength : jsLength checksum = tokenChecksumLength
  checksumChars : isBase62 checksum = true
  checked : encodeBase62Integer (crc32 (asciiBytes entropy)).toNat tokenChecksumLength =
    .ok checksum

theorem parseToken_ok_iff (input : String) (opts : ParseTokenOptions) (parsed : ParsedToken) :
    parseToken input opts = .ok parsed ↔ ∃ tokenPrefix env entropy checksum,
        splitChars '_' input.toList =
          [tokenPrefix, env, tokenVersion.toList, entropy, checksum] ∧
        Sound opts tokenPrefix env entropy checksum ∧
        parsed = ⟨String.ofList tokenPrefix, String.ofList env, String.ofList entropy,
          String.ofList checksum, input⟩ := by
  unfold parseToken
  constructor
  · intro accepted
    simp only at accepted
    split at accepted
    · cases accepted
    split at accepted
    · rename_i tokenPrefix env version entropy checksum segments
      split at accepted
      · cases accepted
      rename_i samePrefix
      split at accepted
      · cases accepted
      rename_i environment
      split at accepted
      · cases accepted
      rename_i sameVersion
      split at accepted
      · cases accepted
      rename_i entropyFits
      split at accepted
      · cases accepted
      rename_i checksumFits
      split at accepted
      · rename_i expected encoded
        split at accepted
        · rename_i same
          subst same
          obtain rfl := not_not.mp sameVersion
          simp only [Bool.or_eq_true, decide_eq_true_eq, Bool.not_eq_true', not_or, not_not,
            Bool.not_eq_false] at entropyFits checksumFits environment
          exact ⟨tokenPrefix, env, entropy, expected, segments,
            ⟨not_not.mp samePrefix, environment, entropyFits.1, entropyFits.2,
              checksumFits.1, checksumFits.2, encoded⟩, (Except.ok.inj accepted).symm⟩
        · cases accepted
      · cases accepted
    · cases accepted
  · rintro ⟨tokenPrefix, env, entropy, checksum, segments, sound, rfl⟩
    have some : input.toList ≠ [] := by
      intro nothing
      rw [nothing] at segments
      cases segments
    simp only [if_neg some, segments]
    rw [if_neg (not_not.mpr sound.accepted), if_neg (by rw [sound.environment]; decide),
      if_neg (not_not.mpr rfl), if_neg (by rw [sound.entropyLength, sound.entropyChars]; decide),
      if_neg (by rw [sound.checksumLength, sound.checksumChars]; decide), sound.checked]
    exact if_pos rfl

variable {char : Char}

theorem base62_small (known : char ∈ base62Alphabet) : char.toNat < 128 := by
  have all : ∀ char ∈ base62Alphabet, char.toNat < 128 := each_of_all (by decide)
  exact all char known

theorem isBase62_mem (chars : isBase62 text = true) :
    ∀ char ∈ text, char ∈ base62Alphabet := fun char among =>
  List.contains_iff_mem.mp (List.all_eq_true.mp chars char among)

theorem isBase62_undivided (chars : isBase62 text = true) : '_' ∉ text :=
  fun among => absurd (isBase62_mem chars _ among) (by decide)

theorem jsLength_small (small : ∀ char ∈ text, char.toNat < 128) :
    jsLength text = text.length := by
  induction text with
  | nil => rfl
  | cons char rest ih =>
    obtain ⟨here, later⟩ := List.forall_mem_cons.mp small
    have tail := ih later
    unfold jsLength at tail ⊢
    rw [List.map_cons, List.sum_cons, if_pos (by omega), tail, List.length_cons]
    omega

theorem slugChar_small (named : slugChar char = true) :
    char.toNat < 128 ∧ char ≠ '_' := by
  refine ⟨?_, fun same => by rw [same] at named; cases named⟩
  have above {limit : Char} (bounded : char ≤ limit) : char.toNat ≤ limit.toNat := bounded
  unfold slugChar lower digit at named
  simp only [Bool.or_eq_true, decide_eq_true_eq] at named
  rcases named with (letter | digit) | dash
  · have bound := above letter.2
    have top : 'z'.toNat = 122 := rfl
    omega
  · have bound := above digit.2
    have top : '9'.toNat = 57 := rfl
    omega
  · rw [dash]
    decide

theorem envLabelRe_chars (label : envLabelRe text = true) :
    (∀ char ∈ text, slugChar char = true) ∧ 0 < text.length ∧ text.length ≤ 16 := by
  unfold envLabelRe at label
  rw [Bool.and_eq_true, decide_eq_true_eq] at label
  cases text with
  | nil => cases label.1
  | cons =>
    obtain ⟨begins, others⟩ := Bool.and_eq_true_iff.mp label.1
    refine ⟨List.forall_mem_cons.mpr ⟨?_, List.all_eq_true.mp others⟩, Nat.succ_pos _,
      label.2⟩
    rw [slugChar, begins]
    rfl

/-- Options a minted token matches. -/
def Matching (opts : ParseTokenOptions) (tokenPrefix : Option String) (env : String) : Prop :=
  opts.acceptPrefix.getD defaultTokenPrefix = tokenPrefix.getD defaultTokenPrefix ∧
    match opts.acceptEnvironments with
    | none => env ∈ tokenEnvironments
    | some [] => True
    | some accept => env ∈ accept

variable {opts : ParseTokenOptions}

theorem accepted_environment (label : envLabelRe env.toList = true)
    (matching : Matching opts tokenPrefix env) :
    isAcceptedEnvironment env.toList opts.acceptEnvironments = true := by
  obtain ⟨chars, some, short⟩ := envLabelRe_chars label
  have length := jsLength_small fun char among => (slugChar_small (chars char among)).1
  obtain ⟨-, known⟩ := matching
  have sized : ¬ (decide (jsLength env.toList = 0) || decide (16 < jsLength env.toList)) =
      true := by
    rw [length, Bool.or_eq_true, decide_eq_true_eq, decide_eq_true_eq]
    omega
  unfold isAcceptedEnvironment
  rw [if_neg sized]
  cases given : opts.acceptEnvironments with
  | none =>
    rw [given] at known
    exact List.contains_iff_mem.mpr (List.mem_map_of_mem known)
  | some accept =>
    rw [given] at known
    cases accept with
    | nil => exact label
    | cons => exact List.contains_iff_mem.mpr (List.mem_map_of_mem known)

theorem generate_parse (minted : generateRawToken tokenPrefix env bytes = .ok raw)
    (matching : Matching opts tokenPrefix env) :
    ∃ parsed, parseToken raw opts = .ok parsed := by
  unfold generateRawToken at minted
  simp only at minted
  split at minted
  · cases minted
  rename_i prefixLabel
  split at minted
  · cases minted
  rename_i envLabel
  simp only [Bool.not_eq_true', Bool.not_eq_false] at prefixLabel envLabel
  cases encoded : encodeBase62Bytes bytes tokenEntropyLength with
  | error =>
    rw [encoded] at minted
    cases minted
  | ok entropy =>
    cases checked : encodeBase62Integer (crc32 (asciiBytes entropy)).toNat
        tokenChecksumLength with
    | error =>
      simp only [encoded, checked, bind, Except.bind] at minted
      cases minted
    | ok checksum =>
      simp only [encoded, checked, bind, Except.bind] at minted
      obtain ⟨-, entropyFits, rfl⟩ := (encodeBase62Bytes_eq_ok _ _ _).mp encoded
      obtain ⟨-, checksumFits, same⟩ := (encodeBase62Integer_eq_ok _ _ _).mp checked
      have chars := numeral_base62 (bytesValue bytes) (tokenEntropyLength : Int).toNat
      have chars' : isBase62 checksum = true := same ▸ numeral_base62 _ _
      have length (text : List Char) (chars : isBase62 text = true) :
          jsLength text = text.length :=
        jsLength_small fun char among => base62_small (isBase62_mem chars char among)
      have text : raw.toList = assemble (tokenPrefix.getD defaultTokenPrefix).toList
          env.toList (numeral (bytesValue bytes) (tokenEntropyLength : Int).toNat)
          checksum := by
        rw [← Except.ok.inj minted]
        simp [assemble, String.toList_append]
      have undivided {label : List Char} (label' : envLabelRe label = true) :
          '_' ∉ label := fun among =>
        (slugChar_small ((envLabelRe_chars label').1 _ among)).2 rfl
      have segments := splitChars_assemble (undivided prefixLabel) (undivided envLabel)
        (isBase62_undivided chars) (isBase62_undivided chars')
      rw [← text] at segments
      have sound : Sound opts (tokenPrefix.getD defaultTokenPrefix).toList env.toList
          (numeral (bytesValue bytes) (tokenEntropyLength : Int).toNat) checksum :=
        { accepted := by rw [matching.1]
          environment := accepted_environment envLabel matching
          entropyLength := (length _ chars).trans (numeral_length entropyFits)
          entropyChars := chars
          checksumLength := by
            rw [length _ chars', same]
            exact numeral_length checksumFits
          checksumChars := chars'
          checked := checked }
      exact ⟨_, (parseToken_ok_iff raw opts _).mpr ⟨_, _, _, _, segments, sound, rfl⟩⟩

theorem asciiBytes_inj (known : char ∈ base62Alphabet) (known' : char' ∈ base62Alphabet)
    (same : UInt8.ofNat char.toNat = UInt8.ofNat char'.toNat) : char = char' := by
  have small := base62_small known
  have small' := base62_small known'
  have values := congrArg UInt8.toNat same
  rw [UInt8.toNat_ofNat', UInt8.toNat_ofNat', Nat.mod_eq_of_lt (by omega),
    Nat.mod_eq_of_lt (by omega)] at values
  exact Char.toNat_inj.mp values

theorem checked_inj
    (checked : encodeBase62Integer (crc32 (asciiBytes entropy)).toNat tokenChecksumLength =
      .ok checksum)
    (checked' : encodeBase62Integer (crc32 (asciiBytes entropy')).toNat tokenChecksumLength =
      .ok checksum)
    : crc32 (asciiBytes entropy) = crc32 (asciiBytes entropy') := by
  obtain ⟨-, -, same⟩ := (encodeBase62Integer_eq_ok _ _ _).mp checked
  obtain ⟨-, -, same'⟩ := (encodeBase62Integer_eq_ok _ _ _).mp checked'
  exact UInt32.toNat_inj.mp (numeral_inj (same.symm.trans same'))

/-- A text that is accepted and assembled of undivided segments has these segments. -/
theorem assemble_sound (noPrefix : '_' ∉ tokenPrefix) (noEnv : '_' ∉ env)
    (accepted : parseToken (String.ofList (assemble tokenPrefix env entropy checksum)) opts =
      .ok parsed)
    : Sound opts tokenPrefix env entropy checksum := by
  obtain ⟨tokenPrefix', env', entropy', checksum', segments, sound, -⟩ :=
    (parseToken_ok_iff _ _ _).mp accepted
  rw [String.toList_ofList] at segments
  have length := splitChars_length '_' (assemble tokenPrefix env entropy checksum)
  rw [segments] at length
  have noVersion : tokenVersion.toList.count '_' = 0 := by decide
  simp only [assemble, List.count_append, List.count_cons_self, List.count_eq_zero.mpr noPrefix,
    List.count_eq_zero.mpr noEnv, noVersion, List.length_cons, List.length_nil] at length
  rw [splitChars_assemble noPrefix noEnv (List.count_eq_zero.mp (by omega))
    (List.count_eq_zero.mp (by omega))] at segments
  simp only [List.cons.injEq] at segments
  obtain ⟨rfl, rfl, -, rfl, rfl, -⟩ := segments
  exact sound

theorem changed_rejected (accepted : parseToken raw opts = .ok parsed) :
    raw.toList = assemble parsed.tokenPrefix.toList parsed.env.toList parsed.entropy.toList
        parsed.checksum.toList ∧ ∀ opts' left char char' right, char' ≠ char →
        (parsed.entropy.toList = left ++ char :: right →
          ∀ parsed', parseToken (String.ofList (assemble parsed.tokenPrefix.toList
            parsed.env.toList (left ++ char' :: right) parsed.checksum.toList)) opts' ≠
              .ok parsed') ∧ (parsed.checksum.toList = left ++ char :: right →
          ∀ parsed', parseToken (String.ofList (assemble parsed.tokenPrefix.toList
            parsed.env.toList parsed.entropy.toList (left ++ char' :: right))) opts' ≠
              .ok parsed') := by
  obtain ⟨tokenPrefix, env, entropy, checksum, segments, sound, rfl⟩ :=
    (parseToken_ok_iff _ _ _).mp accepted
  obtain ⟨joined, undivided⟩ := splitChars_joins '_' raw.toList
  rw [segments] at joined undivided
  simp only [List.forall_mem_cons] at undivided
  simp only [String.toList_ofList]
  have text : raw.toList = assemble tokenPrefix env entropy checksum := by
    rw [← joined]
    simp [assemble, List.intercalate]
  refine ⟨text, fun opts' left char char' right changed =>
    ⟨fun split parsed' accepted' => ?_, fun split parsed' accepted' => ?_⟩⟩
  · have sound' := assemble_sound undivided.1 undivided.2.1 accepted'
    have same := checked_inj sound.checked sound'.checked
    rw [split, asciiBytes, asciiBytes, List.map_append, List.map_append, List.map_cons,
      List.map_cons] at same
    have known : char ∈ base62Alphabet :=
      isBase62_mem sound.entropyChars char (split ▸ List.mem_append_right _ (.head _))
    have known' : char' ∈ base62Alphabet :=
      isBase62_mem sound'.entropyChars char' (List.mem_append_right _ (.head _))
    exact changed (asciiBytes_inj known known' (crc32_one_byte same)).symm
  · have sound' := assemble_sound undivided.1 undivided.2.1 accepted'
    have same := Except.ok.inj (sound.checked.symm.trans sound'.checked)
    rw [split] at same
    exact changed (List.cons.inj (List.append_cancel_left same)).1.symm

theorem encodeBase62Bytes_inj (length : bytes.length = bytes'.length)
    (encoded : encodeBase62Bytes bytes width = .ok text)
    (encoded' : encodeBase62Bytes bytes' width = .ok text) : bytes = bytes' := by
  obtain ⟨-, -, same⟩ := (encodeBase62Bytes_eq_ok _ _ _).mp encoded
  obtain ⟨-, -, same'⟩ := (encodeBase62Bytes_eq_ok _ _ _).mp encoded'
  exact bytesValue_inj length (numeral_inj (same.symm.trans same'))

/-- The encoder writes exactly the numerals that fit, no two arrays of one length alike; 32
bytes of entropy always fit, and what is minted from them is accepted; an accepted token
with one character of its entropy or checksum changed is not. -/
theorem token_encoding_exact :
    (∀ bytes width text, encodeBase62Bytes bytes width = .ok text ↔
      0 < width ∧ bytesValue bytes < 62 ^ width.toNat ∧
        text = numeral (bytesValue bytes) width.toNat) ∧
    (∀ bytes bytes' width text, bytes.length = bytes'.length →
      encodeBase62Bytes bytes width = .ok text → encodeBase62Bytes bytes' width = .ok text →
        bytes = bytes') ∧ (∀ bytes, bytes.length = tokenEntropyBytes →
      ∃ text, encodeBase62Bytes bytes tokenEntropyLength = .ok text) ∧
    (∀ tokenPrefix env bytes, bytes.length = tokenEntropyBytes →
      envLabelRe (tokenPrefix.getD defaultTokenPrefix).toList = true →
      envLabelRe env.toList = true →
        ∃ raw, generateRawToken tokenPrefix env bytes = .ok raw ∧
          ∀ opts, Matching opts tokenPrefix env → ∃ parsed, parseToken raw opts = .ok parsed) ∧
    ∀ raw opts parsed, parseToken raw opts = .ok parsed →
      raw.toList = assemble parsed.tokenPrefix.toList parsed.env.toList parsed.entropy.toList
          parsed.checksum.toList ∧ ∀ opts' left char char' right, char' ≠ char →
          (parsed.entropy.toList = left ++ char :: right →
            ∀ parsed', parseToken (String.ofList (assemble parsed.tokenPrefix.toList
              parsed.env.toList (left ++ char' :: right) parsed.checksum.toList)) opts' ≠
                .ok parsed') ∧ (parsed.checksum.toList = left ++ char :: right →
            ∀ parsed', parseToken (String.ofList (assemble parsed.tokenPrefix.toList
              parsed.env.toList parsed.entropy.toList (left ++ char' :: right))) opts' ≠
                .ok parsed') := by
  refine ⟨encodeBase62Bytes_eq_ok, fun bytes bytes' width text => encodeBase62Bytes_inj,
    fun bytes => encodeBase62Bytes_entropy, ?_, fun raw opts parsed => changed_rejected⟩
  intro tokenPrefix env bytes length prefixLabel envLabel
  obtain ⟨raw, minted⟩ := (generateRawToken_isOk length).mpr ⟨prefixLabel, envLabel⟩
  exact ⟨raw, minted, fun opts matching => generate_parse minted matching⟩

theorem token_encoding_exact_zeros : ∃ raw parsed,
    generateRawToken none "live" (List.replicate 32 0) = .ok raw ∧
      parseToken raw {} = .ok parsed ∧ ∃ char right, parsed.entropy.toList = char :: right ∧
        ∀ char', char' ≠ char → ∀ parsed', parseToken (String.ofList (assemble
          parsed.tokenPrefix.toList parsed.env.toList (char' :: right)
            parsed.checksum.toList)) {} ≠ .ok parsed' := by
  obtain ⟨-, -, -, minting, changing⟩ := token_encoding_exact
  obtain ⟨raw, minted, accepted⟩ := minting none "live" (List.replicate 32 0) (by decide)
    (by decide) (by decide)
  obtain ⟨parsed, accepted⟩ := accepted {} ⟨rfl, by decide⟩
  refine ⟨raw, parsed, minted, accepted, ?_⟩
  cases entropy : parsed.entropy.toList with
  | nil =>
    obtain ⟨_, _, _, _, -, sound, rfl⟩ := (parseToken_ok_iff _ _ _).mp accepted
    rw [String.toList_ofList] at entropy
    have length := sound.entropyLength
    rw [entropy] at length
    exact absurd length (by decide)
  | cons char right =>
    exact ⟨char, right, rfl, fun char' other =>
      ((changing raw {} parsed accepted).2 {} [] char char' right other).1 entropy⟩

/-- No numeral is written in no digits, although zero fits there. -/
theorem encodeBase62Bytes_no_width :
    bytesValue [0] < 62 ^ (0 : Int).toNat ∧ encodeBase62Bytes [0] 0 = .error (.nonPositive 0) := by
  decide

end Graphorin.Auth
