import Graphorin.Auth.TokenFormat

/-!
# The checksum

The table is linear and no entry but the first begins with a zero byte, so a step can be
undone and one changed byte is always noticed.
-/

namespace Graphorin.Auth

open Graphorin.Js

theorem crc_parity (word : UInt32) : word &&& 1 = 0 ∨ word &&& 1 = 1 := by
  have bit : (word &&& 1).toNat = word.toNat % 2 := by
    rw [UInt32.toNat_and]
    exact Nat.and_one_is_mod _
  rcases Nat.mod_two_eq_zero_or_one word.toNat with even | odd
  · exact .inl (UInt32.toNat_inj.mp (bit.trans even))
  · exact .inr (UInt32.toNat_inj.mp (bit.trans odd))

theorem and_xor (first second mask : UInt32) :
    (first ^^^ second) &&& mask = (first &&& mask) ^^^ (second &&& mask) := by
  rw [← UInt32.toBitVec_inj]
  ext index
  simp only [UInt32.toBitVec_and, UInt32.toBitVec_xor, BitVec.getElem_and,
    BitVec.getElem_xor]
  exact Bool.and_xor_distrib_right _ _ _

theorem crcBit_xor (first second : UInt32) :
    crcBit (first ^^^ second) = crcBit first ^^^ crcBit second := by
  unfold crcBit
  rw [and_xor, UInt32.shiftRight_xor]
  generalize first >>> 1 = high, second >>> 1 = high'
  rcases crc_parity first with even | odd <;> rcases crc_parity second with even' | odd'
  · rw [even, even', if_neg (by decide), if_neg (by decide), if_neg (by decide)]
  · rw [even, odd', if_pos (by decide), if_neg (by decide), if_pos rfl]
    ac_rfl
  · rw [odd, even', if_pos (by decide), if_pos rfl, if_neg (by decide)]
    ac_rfl
  · rw [odd, odd', if_neg (by decide), if_pos rfl, if_pos rfl]
    generalize (0xedb88320 : UInt32) = polynomial
    have cancel : polynomial ^^^ high ^^^ (polynomial ^^^ high') =
        polynomial ^^^ polynomial ^^^ (high ^^^ high') := by ac_rfl
    rw [cancel, UInt32.xor_self, UInt32.zero_xor]

theorem crcEntry_xor (first second : UInt32) :
    crcEntry (first ^^^ second) = crcEntry first ^^^ crcEntry second := by
  simp only [crcEntry, crcBit_xor]

set_option maxRecDepth 20000 in
theorem crcEntry_top : ∀ index : Fin 256,
    crcEntry (UInt32.ofNat index) >>> 24 = 0 → index = 0 := by
  decide

theorem masked_lt (word : UInt32) : (word &&& 0xff).toNat = word.toNat % 256 := by
  rw [UInt32.toNat_and]
  exact Nat.and_two_pow_sub_one_eq_mod _ 8

theorem shifted_out (word : UInt32) : (word >>> 8) >>> 24 = 0 := by
  rw [← UInt32.toNat_inj, UInt32.toNat_shiftRight, UInt32.toNat_shiftRight]
  have bound := word.toNat_lt
  show word.toNat >>> 8 >>> 24 = 0
  rw [Nat.shiftRight_eq_div_pow, Nat.shiftRight_eq_div_pow]
  omega

theorem crcEntry_low {word rest : UInt32} (shifted : crcEntry (word &&& 0xff) = rest >>> 8) :
    word &&& 0xff = 0 := by
  have small := masked_lt word
  have index := crcEntry_top ⟨(word &&& 0xff).toNat, by omega⟩
  rw [UInt32.ofNat_toNat, shifted] at index
  have zero := congrArg Fin.val (index (shifted_out rest))
  exact UInt32.toNat_inj.mp zero

/-- The index and the rest of the state can be told from the next state. -/
theorem crc_table_inj {high high' index index' : UInt32}
    (same : high >>> 8 ^^^ crcEntry (index &&& 0xff) =
      high' >>> 8 ^^^ crcEntry (index' &&& 0xff)) :
    index &&& 0xff = index' &&& 0xff ∧ high >>> 8 = high' >>> 8 := by
  have moved : crcEntry ((index ^^^ index') &&& 0xff) = (high ^^^ high') >>> 8 := by
    rw [and_xor, crcEntry_xor, UInt32.shiftRight_xor, ← UInt32.xor_eq_zero_iff]
    have regroup (entry entry' rest rest' : UInt32) :
        entry ^^^ entry' ^^^ (rest ^^^ rest') = rest ^^^ entry ^^^ (rest' ^^^ entry') := by
      ac_rfl
    rw [regroup, same, UInt32.xor_self]
  have zero := crcEntry_low moved
  rw [and_xor, UInt32.xor_eq_zero_iff] at zero
  rw [zero, UInt32.xor_left_inj] at same
  exact ⟨zero, same⟩

variable {crc : UInt32} {byte : UInt8}

variable {crc' : UInt32}

theorem crcStep_inj (same : crcStep crc byte = crcStep crc' byte) : crc = crc' := by
  obtain ⟨low, high⟩ := crc_table_inj same
  rw [and_xor, and_xor, UInt32.xor_left_inj] at low
  have low := congrArg UInt32.toNat low
  have high := congrArg UInt32.toNat high
  rw [masked_lt, masked_lt] at low
  rw [UInt32.toNat_shiftRight, UInt32.toNat_shiftRight] at high
  have high : crc.toNat / 2 ^ 8 = crc'.toNat / 2 ^ 8 := by
    rw [← Nat.shiftRight_eq_div_pow, ← Nat.shiftRight_eq_div_pow]
    exact high
  exact UInt32.toNat_inj.mp (by omega)

variable {byte' : UInt8}

theorem crcStep_byte (same : crcStep crc byte = crcStep crc byte') :
    byte = byte' := by
  obtain ⟨low, -⟩ := crc_table_inj same
  rw [and_xor, and_xor, UInt32.xor_right_inj] at low
  have low := congrArg UInt32.toNat low
  rw [masked_lt, masked_lt, UInt8.toNat_toUInt32, UInt8.toNat_toUInt32] at low
  have bound := byte.toNat_lt
  have bound' := byte'.toNat_lt
  exact UInt8.toNat_inj.mp (by omega)

theorem crc_run_inj {bytes : Bytes}
    (same : bytes.foldl crcStep crc = bytes.foldl crcStep crc') : crc = crc' := by
  induction bytes generalizing crc crc' with
  | nil => exact same
  | cons byte rest ih => exact crcStep_inj (ih same)

/-- One byte changed is always noticed. -/
theorem crc32_one_byte {before after : Bytes}
    (same : crc32 (before ++ byte :: after) = crc32 (before ++ byte' :: after)) :
    byte = byte' := by
  unfold crc32 at same
  rw [UInt32.xor_left_inj, List.foldl_append, List.foldl_append, List.foldl_cons,
    List.foldl_cons] at same
  exact crcStep_byte (crc_run_inj same)

end Graphorin.Auth
