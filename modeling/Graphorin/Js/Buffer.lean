import Mathlib.Algebra.Group.Int.Defs
import Mathlib.Algebra.GroupWithZero.Nat

namespace Graphorin.Js

/-! Buffers, their hex texts, and the SHA-256 digest of `node:crypto`. -/

/-- Decided item by item, however many values the type has. -/
theorem each_of_all {α : Type} {P : α → Prop} [DecidablePred P] {items : List α}
    (all : (items.all fun item => P item) = true) : ∀ item ∈ items, P item := by
  simpa using all

instance lawfulUnits : LawfulBEq (List UInt16) := inferInstance

abbrev Bytes := List UInt8

namespace Bytes

/-- `buffer.toString('hex')`. -/
def toHex (bytes : Bytes) : String :=
  String.ofList (bytes.flatMap fun byte =>
    [Nat.digitChar (byte.toNat / 16), Nat.digitChar (byte.toNat % 16)])

def hexValue? (digit : Char) : Option Nat :=
  if '0' ≤ digit ∧ digit ≤ '9' then some (digit.toNat - 48)
  else if 'a' ≤ digit ∧ digit ≤ 'f' then some (digit.toNat - 87)
  else if 'A' ≤ digit ∧ digit ≤ 'F' then some (digit.toNat - 55)
  else none

/-- `Buffer.from(text, 'hex')`: decoding stops at the first pair that is not
two hex digits. -/
def fromHexDigits : List Char → Bytes
  | high :: low :: rest =>
    match hexValue? high, hexValue? low with
    | some high, some low => UInt8.ofNat (16 * high + low) :: fromHexDigits rest
    | _, _ => []
  | _ => []

def fromHex (text : String) : Bytes := fromHexDigits text.toList

theorem hexValue?_digitChar (small : digit < 16) :
    hexValue? (Nat.digitChar digit) = some digit := by
  have each : ∀ digit ∈ List.range 16,
      hexValue? (Nat.digitChar digit) = some digit := by decide
  exact each digit (List.mem_range.mpr small)

@[simp] theorem fromHex_toHex (bytes : Bytes) : fromHex (toHex bytes) = bytes := by
  unfold fromHex toHex
  rw [String.toList_ofList]
  induction bytes with
  | nil => rfl
  | cons byte _ ih =>
    have bound := byte.toNat_lt
    rw [List.flatMap_cons, List.cons_append, List.singleton_append,
      fromHexDigits, hexValue?_digitChar (by omega),
      hexValue?_digitChar (by omega), ih]
    simp only [Nat.div_add_mod, UInt8.ofNat_toNat]

theorem toHex_injective (same : toHex first = toHex second) : first = second := by
  rw [← fromHex_toHex first, same, fromHex_toHex]

end Bytes

namespace Sha256

def rotr (word count : Nat) : Nat :=
  word >>> count ||| (word <<< (32 - count)) % 2 ^ 32

def sum32 (words : List Nat) : Nat := words.foldl (· + ·) 0 % 2 ^ 32

def constants : List Nat :=
  [0x428a2f98, 0x71374491, 0xb5c0fbcf, 0xe9b5dba5, 0x3956c25b, 0x59f111f1,
    0x923f82a4, 0xab1c5ed5, 0xd807aa98, 0x12835b01, 0x243185be, 0x550c7dc3,
    0x72be5d74, 0x80deb1fe, 0x9bdc06a7, 0xc19bf174, 0xe49b69c1, 0xefbe4786,
    0x0fc19dc6, 0x240ca1cc, 0x2de92c6f, 0x4a7484aa, 0x5cb0a9dc, 0x76f988da,
    0x983e5152, 0xa831c66d, 0xb00327c8, 0xbf597fc7, 0xc6e00bf3, 0xd5a79147,
    0x06ca6351, 0x14292967, 0x27b70a85, 0x2e1b2138, 0x4d2c6dfc, 0x53380d13,
    0x650a7354, 0x766a0abb, 0x81c2c92e, 0x92722c85, 0xa2bfe8a1, 0xa81a664b,
    0xc24b8b70, 0xc76c51a3, 0xd192e819, 0xd6990624, 0xf40e3585, 0x106aa070,
    0x19a4c116, 0x1e376c08, 0x2748774c, 0x34b0bcb5, 0x391c0cb3, 0x4ed8aa4a,
    0x5b9cca4f, 0x682e6ff3, 0x748f82ee, 0x78a5636f, 0x84c87814, 0x8cc70208,
    0x90befffa, 0xa4506ceb, 0xbef9a3f7, 0xc67178f2]

structure Words where
  a : Nat
  b : Nat
  c : Nat
  d : Nat
  e : Nat
  f : Nat
  g : Nat
  h : Nat

def initial : Words :=
  ⟨0x6a09e667, 0xbb67ae85, 0x3c6ef372, 0xa54ff53a, 0x510e527f, 0x9b05688c,
    0x1f83d9ab, 0x5be0cd19⟩

def round (words : Words) (constant scheduled : Nat) : Words :=
  let big1 := rotr words.e 6 ^^^ rotr words.e 11 ^^^ rotr words.e 25
  let choice := (words.e &&& words.f) ^^^ ((words.e ^^^ (2 ^ 32 - 1)) &&& words.g)
  let first := sum32 [words.h, big1, choice, constant, scheduled]
  let big0 := rotr words.a 2 ^^^ rotr words.a 13 ^^^ rotr words.a 22
  let majority :=
    (words.a &&& words.b) ^^^ (words.a &&& words.c) ^^^ (words.b &&& words.c)
  let second := sum32 [big0, majority]
  ⟨sum32 [first, second], words.a, words.b, words.c, sum32 [words.d, first],
    words.e, words.f, words.g⟩

/-- The rounds of one block; `window` holds the next sixteen scheduled words. -/
def rounds (words : Words) (window : List Nat) : List Nat → Words
  | [] => words
  | constant :: rest =>
    let word := window.headD 0
    let small0 :=
      let word := window.getD 1 0
      rotr word 7 ^^^ rotr word 18 ^^^ word >>> 3
    let small1 :=
      let word := window.getD 14 0
      rotr word 17 ^^^ rotr word 19 ^^^ word >>> 10
    rounds (round words constant word)
      (window.tail ++ [sum32 [small1, window.getD 9 0, small0, word]]) rest

def compress (words : Words) (block : List Nat) : Words :=
  let mixed := rounds words block constants
  ⟨sum32 [words.a, mixed.a], sum32 [words.b, mixed.b],
    sum32 [words.c, mixed.c], sum32 [words.d, mixed.d],
    sum32 [words.e, mixed.e], sum32 [words.f, mixed.f],
    sum32 [words.g, mixed.g], sum32 [words.h, mixed.h]⟩

def bigEndian : Nat → Nat → Bytes
  | 0, _ => []
  | width + 1, value => bigEndian width (value / 256) ++ [UInt8.ofNat value]

def padded (input : Bytes) : Bytes :=
  input ++ 0x80 :: List.replicate ((119 - input.length % 64) % 64) 0 ++
    bigEndian 8 (8 * input.length)

def wordsOf : Bytes → List Nat
  | a :: b :: c :: d :: rest =>
    (((a.toNat * 256 + b.toNat) * 256 + c.toNat) * 256 + d.toNat) ::
      wordsOf rest
  | _ => []

def blocks : Nat → List Nat → Words → Words
  | 0, _, words => words
  | count + 1, message, words =>
    blocks count (message.drop 16) (compress words (message.take 16))

def bytesOf (words : Words) : Bytes :=
  [words.a, words.b, words.c, words.d, words.e, words.f, words.g,
    words.h].flatMap (bigEndian 4)

end Sha256

/-- `createHash('sha256').update(input).digest()`. -/
def sha256 (input : Bytes) : Bytes :=
  let message := Sha256.wordsOf (Sha256.padded input)
  Sha256.bytesOf (Sha256.blocks (message.length / 16) message Sha256.initial)

theorem bigEndian_length (width value : Nat) :
    (Sha256.bigEndian width value).length = width := by
  induction width generalizing value with
  | zero => rfl
  | succ _ ih => rw [Sha256.bigEndian, List.length_append, ih]; rfl

theorem sha256_length (input : Bytes) : (sha256 input).length = 32 := by
  simp [sha256, Sha256.bytesOf, bigEndian_length]

namespace Sha256

/-! The digest again, every word settled before the next round: what the kernel
computes with. -/

/-- `next value`, the value a numeral before `next` is entered. -/
def settled {α : Type} (value : Nat) (next : Nat → α) : α :=
  Nat.rec (next 0) (fun below _ => next (Nat.succ below)) value

@[simp] theorem settled_eq (value : Nat) (next : Nat → α) :
    settled value next = next value := by
  cases value <;> rfl

def rotated (word right left : Nat) : Nat :=
  Nat.lor (Nat.shiftRight word right) (Nat.mod (Nat.shiftLeft word left) 4294967296)

def mixed3 (first second third : Nat) : Nat := Nat.xor (Nat.xor first second) third

def settledRounds (a b c d e f g h
    w0 w1 w2 w3 w4 w5 w6 w7 w8 w9 w10 w11 w12 w13 w14 w15 : Nat) : List Nat → Words
  | [] => ⟨a, b, c, d, e, f, g, h⟩
  | constant :: rest =>
    settled (Nat.mod (Nat.add (Nat.add (Nat.add (Nat.add h
        (mixed3 (rotated e 6 26) (rotated e 11 21) (rotated e 25 7)))
        (Nat.xor (Nat.land e f) (Nat.land (Nat.xor e 4294967295) g)))
        constant) w0) 4294967296) fun first =>
    settled (Nat.mod (Nat.add
        (mixed3 (rotated a 2 30) (rotated a 13 19) (rotated a 22 10))
        (mixed3 (Nat.land a b) (Nat.land a c) (Nat.land b c))) 4294967296) fun second =>
    settled (Nat.mod (Nat.add first second) 4294967296) fun top =>
    settled (Nat.mod (Nat.add d first) 4294967296) fun middle =>
    settled (Nat.mod (Nat.add (Nat.add (Nat.add
        (mixed3 (rotated w14 17 15) (rotated w14 19 13) (Nat.shiftRight w14 10)) w9)
        (mixed3 (rotated w1 7 25) (rotated w1 18 14) (Nat.shiftRight w1 3))) w0)
        4294967296) fun w16 =>
    settledRounds top a b c middle e f g
      w1 w2 w3 w4 w5 w6 w7 w8 w9 w10 w11 w12 w13 w14 w15 w16 rest

theorem sum32_two (first second : Nat) :
    sum32 [first, second] = Nat.mod (Nat.add first second) 4294967296 := by
  simp only [sum32, List.foldl, Nat.zero_add]
  rfl

theorem sum32_four (first second third fourth : Nat) :
    sum32 [first, second, third, fourth] =
      Nat.mod (Nat.add (Nat.add (Nat.add first second) third) fourth) 4294967296 := by
  simp only [sum32, List.foldl, Nat.zero_add]
  rfl

theorem sum32_five (first second third fourth fifth : Nat) :
    sum32 [first, second, third, fourth, fifth] =
      Nat.mod (Nat.add (Nat.add (Nat.add (Nat.add first second) third) fourth) fifth)
        4294967296 := by
  simp only [sum32, List.foldl, Nat.zero_add]
  rfl

theorem settledRounds_eq (a b c d e f g h
    w0 w1 w2 w3 w4 w5 w6 w7 w8 w9 w10 w11 w12 w13 w14 w15 : Nat) (list : List Nat) :
    settledRounds a b c d e f g h
      w0 w1 w2 w3 w4 w5 w6 w7 w8 w9 w10 w11 w12 w13 w14 w15 list =
    rounds ⟨a, b, c, d, e, f, g, h⟩
      [w0, w1, w2, w3, w4, w5, w6, w7, w8, w9, w10, w11, w12, w13, w14, w15] list := by
  induction list generalizing a b c d e f g h
    w0 w1 w2 w3 w4 w5 w6 w7 w8 w9 w10 w11 w12 w13 w14 w15 with
  | nil => rfl
  | cons constant rest ih =>
    rw [settledRounds]
    simp only [settled_eq]
    rw [ih, rounds, round]
    simp only [sum32_five, sum32_two, sum32_four]
    rfl

def settledCompress (words : Words) : List Nat → Words
  | [w0, w1, w2, w3, w4, w5, w6, w7, w8, w9, w10, w11, w12, w13, w14, w15] =>
    settled words.a fun a => settled words.b fun b => settled words.c fun c =>
    settled words.d fun d => settled words.e fun e => settled words.f fun f =>
    settled words.g fun g => settled words.h fun h =>
    let mixed := settledRounds a b c d e f g h
      w0 w1 w2 w3 w4 w5 w6 w7 w8 w9 w10 w11 w12 w13 w14 w15 constants
    ⟨sum32 [a, mixed.a], sum32 [b, mixed.b], sum32 [c, mixed.c], sum32 [d, mixed.d],
      sum32 [e, mixed.e], sum32 [f, mixed.f], sum32 [g, mixed.g], sum32 [h, mixed.h]⟩
  | block => compress words block

theorem settledCompress_eq (words : Words) (block : List Nat) :
    settledCompress words block = compress words block := by
  unfold settledCompress
  split
  · simp only [settled_eq, settledRounds_eq]
    rfl
  · rfl

def blocksWith (step : Words → List Nat → Words) : Nat → List Nat → Words → Words
  | 0, _, words => words
  | count + 1, message, words =>
    blocksWith step count (message.drop 16) (step words (message.take 16))

theorem blocks_eq : blocks = blocksWith settledCompress := by
  have same : settledCompress = compress :=
    funext fun words => funext fun block => settledCompress_eq words block
  rw [same]
  delta blocks blocksWith
  rfl

end Sha256

def settledSha256 (input : Bytes) : Bytes :=
  let message := Sha256.wordsOf (Sha256.padded input)
  Sha256.bytesOf
    (Sha256.blocksWith Sha256.settledCompress (message.length / 16) message Sha256.initial)

theorem sha256_settled (input : Bytes) : sha256 input = settledSha256 input := by
  rw [sha256, settledSha256, Sha256.blocks_eq]

end Graphorin.Js
