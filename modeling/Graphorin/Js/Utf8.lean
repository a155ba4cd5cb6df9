import Mathlib.Data.List.Basic
import Graphorin.Js.Buffer

namespace Graphorin.Js

/-! UTF-8 as a buffer writes and reads it. A text is the list of its characters. -/

/-- `Buffer.from(text, 'utf8')`. -/
def encode (text : List Char) : Bytes := text.flatMap String.utf8EncodeChar

namespace Utf8

def replacement : Char := Char.ofNat 0xfffd

/-- A character whose last bytes are still to come. -/
structure Pending where
  codePoint : Nat
  needed : Nat
  lower : Nat
  upper : Nat

def start (byte : UInt8) : List Char × Option Pending :=
  let first := byte.toNat
  if first < 0x80 then ([Char.ofNat first], none)
  else if 0xc2 ≤ first ∧ first ≤ 0xdf then ([], some ⟨first % 0x20, 1, 0x80, 0xbf⟩)
  else if 0xe0 ≤ first ∧ first ≤ 0xef then
    ([], some ⟨first % 0x10, 2, if first = 0xe0 then 0xa0 else 0x80,
      if first = 0xed then 0x9f else 0xbf⟩)
  else if 0xf0 ≤ first ∧ first ≤ 0xf4 then
    ([], some ⟨first % 8, 3, if first = 0xf0 then 0x90 else 0x80,
      if first = 0xf4 then 0x8f else 0xbf⟩)
  else ([replacement], none)

def decode : Option Pending → Bytes → List Char
  | none, [] => []
  | some _, [] => [replacement]
  | none, byte :: rest => (start byte).1 ++ decode (start byte).2 rest
  | some pending, byte :: rest =>
    if pending.lower ≤ byte.toNat ∧ byte.toNat ≤ pending.upper then
      let codePoint := pending.codePoint * 64 + byte.toNat % 64
      if pending.needed = 1 then Char.ofNat codePoint :: decode none rest
      else decode (some ⟨codePoint, pending.needed - 1, 0x80, 0xbf⟩) rest
    else replacement :: ((start byte).1 ++ decode (start byte).2 rest)

def feed : Option Pending → Bytes → List Char × Option Pending
  | pending, [] => ([], pending)
  | none, byte :: rest =>
    let next := feed (start byte).2 rest
    ((start byte).1 ++ next.1, next.2)
  | some pending, byte :: rest =>
    if pending.lower ≤ byte.toNat ∧ byte.toNat ≤ pending.upper then
      let codePoint := pending.codePoint * 64 + byte.toNat % 64
      if pending.needed = 1 then
        let next := feed none rest
        (Char.ofNat codePoint :: next.1, next.2)
      else feed (some ⟨codePoint, pending.needed - 1, 0x80, 0xbf⟩) rest
    else
      let next := feed (start byte).2 rest
      (replacement :: ((start byte).1 ++ next.1), next.2)

end Utf8

/-- `buffer.toString('utf8')`. -/
def decode (bytes : Bytes) : List Char := Utf8.decode none bytes

namespace Utf8

def Continuation (byte : UInt8) : Prop := 0x80 ≤ byte.toNat ∧ byte.toNat ≤ 0xbf

instance (byte : UInt8) : Decidable (Continuation byte) :=
  inferInstanceAs (Decidable (_ ∧ _))

variable (char : Char)

theorem encode_cases :
    (char.toNat ≤ 0x7f ∧ String.utf8EncodeChar char = [UInt8.ofNat char.toNat]) ∨
    (0x7f < char.toNat ∧ char.toNat ≤ 0x7ff ∧ String.utf8EncodeChar char =
      [UInt8.ofNat (char.toNat / 64 % 0x20 + 0xc0),
        UInt8.ofNat (char.toNat % 0x40 + 0x80)]) ∨
    (0x7ff < char.toNat ∧ char.toNat ≤ 0xffff ∧ String.utf8EncodeChar char =
      [UInt8.ofNat (char.toNat / 4096 % 0x10 + 0xe0),
        UInt8.ofNat (char.toNat / 64 % 0x40 + 0x80),
        UInt8.ofNat (char.toNat % 0x40 + 0x80)]) ∨
    (0xffff < char.toNat ∧ String.utf8EncodeChar char =
      [UInt8.ofNat (char.toNat / 262144 % 0x08 + 0xf0),
        UInt8.ofNat (char.toNat / 4096 % 0x40 + 0x80),
        UInt8.ofNat (char.toNat / 64 % 0x40 + 0x80),
        UInt8.ofNat (char.toNat % 0x40 + 0x80)]) := by
  show (char.val.toNat ≤ 0x7f ∧ _) ∨ (0x7f < char.val.toNat ∧ char.val.toNat ≤ 0x7ff ∧ _) ∨
    (0x7ff < char.val.toNat ∧ char.val.toNat ≤ 0xffff ∧ _) ∨ (0xffff < char.val.toNat ∧ _)
  unfold String.utf8EncodeChar
  simp only
  split
  · exact .inl ⟨‹_›, rfl⟩
  · split
    · exact .inr (.inl ⟨by omega, ‹_›, rfl⟩)
    · split
      · exact .inr (.inr (.inl ⟨by omega, ‹_›, rfl⟩))
      · exact .inr (.inr (.inr ⟨by omega, rfl⟩))

theorem toNat_ofNat (small : value < 256) : (UInt8.ofNat value).toNat = value := by
  rw [UInt8.toNat_ofNat', Nat.mod_eq_of_lt small]

theorem feed_last (rest : Bytes) (high lower upper : Nat)
    (value : high * 64 + char.toNat % 64 = char.toNat)
    (inside : lower ≤ char.toNat % 64 + 0x80 ∧ char.toNat % 64 + 0x80 ≤ upper) :
    feed (some ⟨high, 1, lower, upper⟩) (UInt8.ofNat (char.toNat % 64 + 0x80) :: rest) =
      (char :: (feed none rest).1, (feed none rest).2) := by
  have byte := toNat_ofNat (show char.toNat % 64 + 0x80 < 256 by omega)
  have low : (char.toNat % 64 + 0x80) % 64 = char.toNat % 64 := by omega
  simp only [feed, byte, if_pos inside, if_pos, low, value, Char.ofNat_toNat]

theorem feed_middle (low : Nat) (small : low < 64) (rest : Bytes)
    (high needed lower upper : Nat) (more : needed ≠ 1)
    (inside : lower ≤ low + 0x80 ∧ low + 0x80 ≤ upper) :
    feed (some ⟨high, needed, lower, upper⟩) (UInt8.ofNat (low + 0x80) :: rest) =
      feed (some ⟨high * 64 + low, needed - 1, 0x80, 0xbf⟩) rest := by
  have byte := toNat_ofNat (show low + 0x80 < 256 by omega)
  have same : (low + 0x80) % 64 = low := by omega
  simp only [feed, byte, if_pos inside, if_neg more, same]

theorem feed_char (rest : Bytes) : feed none (String.utf8EncodeChar char ++ rest) =
      (char :: (feed none rest).1, (feed none rest).2) := by
  have valid : char.toNat < 0xd800 ∨ 0xdfff < char.toNat ∧ char.toNat < 0x110000 :=
    char.valid
  rcases encode_cases char with ⟨small, bytes⟩ | ⟨above, small, bytes⟩ |
    ⟨above, small, bytes⟩ | ⟨above, bytes⟩
  · rw [bytes]
    have byte := toNat_ofNat (show char.toNat < 256 by omega)
    simp only [List.cons_append, List.nil_append, feed, start, byte,
      if_pos (show char.toNat < 0x80 by omega), Char.ofNat_toNat]
  · rw [bytes]
    have byte := toNat_ofNat (show char.toNat / 64 % 0x20 + 0xc0 < 256 by omega)
    simp only [List.cons_append, List.nil_append]
    rw [feed, start, byte, if_neg (by omega), if_pos (by omega)]
    exact feed_last char rest _ _ _ (by omega) (by omega)
  · rw [bytes]
    have byte := toNat_ofNat (show char.toNat / 4096 % 0x10 + 0xe0 < 256 by omega)
    simp only [List.cons_append, List.nil_append]
    rw [feed, start, byte, if_neg (by omega), if_neg (by omega), if_pos (by omega)]
    refine (feed_middle _ (by omega) _ _ _ _ _ (by omega) ?_).trans
      (feed_last char rest _ _ _ (by omega) (by omega))
    constructor <;> split <;> omega
  · rw [bytes]
    have byte := toNat_ofNat (show char.toNat / 262144 % 0x08 + 0xf0 < 256 by omega)
    simp only [List.cons_append, List.nil_append]
    rw [feed, start, byte, if_neg (by omega), if_neg (by omega), if_neg (by omega),
      if_pos (by omega)]
    refine ((feed_middle _ (by omega) _ _ _ _ _ (by omega) ?_).trans
      (feed_middle _ (by omega) _ _ _ _ _ (by omega) (by omega))).trans
      (feed_last char rest _ _ _ (by omega) (by omega))
    constructor <;> split <;> omega

theorem decode_feed (pending : Option Pending) (bytes : Bytes) :
    decode pending bytes =
      (feed pending bytes).1 ++ decode (feed pending bytes).2 [] := by
  induction bytes generalizing pending with
  | nil => cases pending <;> rfl
  | cons byte rest ih =>
    cases pending with
    | none => rw [decode, feed, ih, List.append_assoc]
    | some =>
      rw [decode, feed]
      simp only [ih]
      split
      · split <;> rfl
      · rw [List.cons_append, List.append_assoc]

theorem feed_append (pending : Option Pending) (first second : Bytes) :
    feed pending (first ++ second) =
      ((feed pending first).1 ++ (feed (feed pending first).2 second).1,
        (feed (feed pending first).2 second).2) := by
  induction first generalizing pending with
  | nil => rfl
  | cons byte rest ih =>
    rw [List.cons_append]
    cases pending with
    | none => rw [feed, feed, ih, List.append_assoc]
    | some =>
      rw [feed, feed]
      simp only [ih]
      split
      · split <;> rfl
      · rw [List.cons_append, List.append_assoc]

theorem decode_char (rest : Bytes) :
    decode none (String.utf8EncodeChar char ++ rest) = char :: decode none rest := by
  rw [decode_feed, feed_char, decode_feed none rest]
  rfl

theorem lead_and_continuations :
    ∃ first others, String.utf8EncodeChar char = first :: others ∧ ¬ Continuation first ∧
      ∀ byte ∈ others, Continuation byte := by
  have valid : char.toNat < 0xd800 ∨ 0xdfff < char.toNat ∧ char.toNat < 0x110000 :=
    char.valid
  have tail (value : Nat) : Continuation (UInt8.ofNat (value % 64 + 0x80)) := by
    rw [Continuation, toNat_ofNat (by omega)]
    omega
  rcases encode_cases char with ⟨small, bytes⟩ | ⟨above, small, bytes⟩ |
    ⟨above, small, bytes⟩ | ⟨above, bytes⟩
  · refine ⟨_, _, bytes, ?_, nofun⟩
    rw [Continuation, toNat_ofNat (by omega)]
    omega
  · refine ⟨_, _, bytes, ?_, ?_⟩
    · rw [Continuation, toNat_ofNat (by omega)]
      omega
    · simp only [List.forall_mem_cons, tail, true_and]
      exact nofun
  · refine ⟨_, _, bytes, ?_, ?_⟩
    · rw [Continuation, toNat_ofNat (by omega)]
      omega
    · simp only [List.forall_mem_cons, tail, true_and]
      exact nofun
  · refine ⟨_, _, bytes, ?_, ?_⟩
    · rw [Continuation, toNat_ofNat (by omega)]
      omega
    · simp only [List.forall_mem_cons, tail, true_and]
      exact nofun

def leads (bytes : Bytes) : Nat := bytes.countP fun byte => ¬ Continuation byte

/-- Continuation bytes at the start, whose character is cut off. -/
def cut (bytes : Bytes) : Nat := (bytes.takeWhile fun byte => Continuation byte).length

theorem leads_cons (byte : UInt8) (rest : Bytes) :
    leads (byte :: rest) = leads rest + if Continuation byte then 0 else 1 := by
  rw [leads, List.countP_cons, leads]
  by_cases continues : Continuation byte <;> simp [continues]

theorem cut_cons (byte : UInt8) (rest : Bytes) :
    cut (byte :: rest) = if Continuation byte then cut rest + 1 else 0 := by
  rw [cut, List.takeWhile_cons]
  by_cases continues : Continuation byte <;> simp [continues, cut]

theorem start_cases (byte : UInt8) :
    ((start byte).1.length = 1 ∧ (start byte).2 = none) ∨
      (start byte).1 = [] ∧ ¬ Continuation byte ∧
        ∃ pending, (start byte).2 = some pending ∧ 0x80 ≤ pending.lower ∧
          pending.upper ≤ 0xbf := by
  unfold start Continuation
  simp only
  split
  · exact .inl ⟨rfl, rfl⟩
  · split
    · exact .inr ⟨rfl, by omega, _, rfl, Nat.le_refl _, Nat.le_refl _⟩
    · split
      · refine .inr ⟨rfl, by omega, _, rfl, ?_, ?_⟩
        · show 0x80 ≤ ite _ _ _
          split <;> omega
        · show ite _ _ _ ≤ 0xbf
          split <;> omega
      · split
        · refine .inr ⟨rfl, by omega, _, rfl, ?_, ?_⟩
          · show 0x80 ≤ ite _ _ _
            split <;> omega
          · show ite _ _ _ ≤ 0xbf
            split <;> omega
        · exact .inl ⟨rfl, rfl⟩

theorem leads_le_decode (bytes : Bytes) :
    leads bytes + cut bytes ≤ (decode none bytes).length ∧
      ∀ pending : Pending, 0x80 ≤ pending.lower → pending.upper ≤ 0xbf →
        leads bytes + 1 ≤ (decode (some pending) bytes).length := by
  induction bytes with
  | nil => exact ⟨Nat.le_refl _, fun _ _ _ => Nat.le_refl _⟩
  | cons byte rest ih =>
    obtain ⟨between, within⟩ := ih
    have fresh : leads (byte :: rest) + cut (byte :: rest) ≤
        ((start byte).1 ++ decode (start byte).2 rest).length := by
      rw [leads_cons, cut_cons, List.length_append]
      rcases start_cases byte with ⟨one, ready⟩ | ⟨nothing, lead, pending, ready, low, high⟩
      · rw [one, ready]
        split <;> omega
      · have later := within pending low high
        rw [nothing, ready, if_neg lead, if_neg lead, List.length_nil]
        omega
    refine ⟨fresh, fun pending low high => ?_⟩
    rw [decode]
    split
    · rename_i inside
      have continues : Continuation byte := ⟨by omega, by omega⟩
      rw [leads_cons, if_pos continues]
      simp only
      split
      · rw [List.length_cons]
        omega
      · exact within _ (Nat.le_refl _) (Nat.le_refl _)
    · rw [List.length_cons]
      omega

end Utf8

open Utf8

@[simp] theorem encode_nil : encode [] = [] := rfl

theorem encode_cons (char : Char) (rest : List Char) :
    encode (char :: rest) = String.utf8EncodeChar char ++ encode rest := rfl

theorem encode_append (first second : List Char) :
    encode (first ++ second) = encode first ++ encode second := List.flatMap_append

@[simp] theorem decode_encode (text : List Char) : decode (encode text) = text := by
  induction text with
  | nil => rfl
  | cons char rest ih => rw [encode_cons, decode, decode_char, ← decode, ih]

theorem feed_encode (text : List Char) : feed none (encode text) = (text, none) := by
  induction text with
  | nil => rfl
  | cons char rest ih => rw [encode_cons, feed_char, ih]

theorem leads_le_length (bytes : Bytes) : leads bytes + cut bytes ≤ (decode bytes).length :=
  (leads_le_decode bytes).1

@[simp] theorem leads_append (first second : Bytes) :
    leads (first ++ second) = leads first + leads second := List.countP_append

theorem leads_encode (text : List Char) : leads (encode text) = text.length := by
  induction text with
  | nil => rfl
  | cons char _ ih =>
    obtain ⟨first, others, bytes, lead, continues⟩ := lead_and_continuations char
    have none : leads others = 0 :=
      List.countP_eq_zero.mpr fun byte among => by simp [continues byte among]
    rw [encode_cons, bytes, List.cons_append, leads_cons, if_neg lead, leads_append, none,
      ih, List.length_cons, Nat.zero_add]

/-- Before a byte that continues nothing, whole characters end. -/
theorem whole_before_lead (split : encode text = before ++ byte :: after)
    (lead : ¬ Continuation byte) :
    ∃ front back, text = front ++ back ∧ encode front = before ∧
      encode back = byte :: after := by
  induction text generalizing before with
  | nil => simp at split
  | cons char rest ih =>
    obtain ⟨first, others, bytes, -, continues⟩ := lead_and_continuations char
    cases before with
    | nil => exact ⟨[], char :: rest, rfl, rfl, split⟩
    | cons =>
      rw [encode_cons, bytes, List.cons_append, List.cons_append] at split
      obtain ⟨rfl, same⟩ := List.cons.inj split
      rcases List.append_eq_append_iff.mp same with
        ⟨before', whole, tail⟩ | ⟨others', whole, tail⟩
      · obtain ⟨front, back, rfl, rfl, rest⟩ := ih tail
        exact ⟨char :: front, back, rfl, by rw [encode_cons, bytes, whole]; simp, rest⟩
      · cases others' with
        | nil =>
          have behind : encode rest = [] ++ byte :: after := tail.symm
          obtain ⟨front, back, rfl, nothing, rest⟩ := ih behind
          refine ⟨char :: front, back, rfl, ?_, rest⟩
          rw [encode_cons, bytes, nothing, whole, List.append_nil, List.append_nil]
        | cons =>
          obtain ⟨rfl, -⟩ := List.cons.inj tail
          exact absurd (continues byte (by rw [whole]; simp)) lead

end Graphorin.Js
