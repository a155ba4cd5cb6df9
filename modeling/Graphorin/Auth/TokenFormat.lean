import Graphorin.Auth.Scope
import Graphorin.Js.Buffer
import Mathlib.Tactic.Ring

namespace Graphorin.Auth

open Graphorin.Js

/-! Raw tokens: `<prefix>_<env>_v1_<43 base62 chars>_<6 base62 chars>`. -/

def defaultTokenPrefix : String := "gph"

def tokenEntropyBytes : Nat := 32

def tokenEntropyLength : Nat := 43

def tokenChecksumLength : Nat := 6

def tokenVersion : String := "v1"

def tokenEnvironments : List String := ["live", "test", "local"]

/-- The length of a JavaScript string, which counts UTF-16 code units. -/
def jsLength (text : List Char) : Nat :=
  (text.map fun char => if char.toNat < 0x10000 then 1 else 2).sum

def base62Alphabet : List Char :=
  "0123456789ABCDEFGHIJKLMNOPQRSTUVWXYZabcdefghijklmnopqrstuvwxyz".toList

def base62Char (digit : Nat) : Char := base62Alphabet.getD digit '0'

/-- `/^[a-z][a-z0-9-]{0,15}$/` -/
def envLabelRe (text : List Char) : Bool := slug text && text.length ≤ 16

def crcBit (word : UInt32) : UInt32 :=
  if word &&& 1 = 1 then (0xedb88320 : UInt32) ^^^ (word >>> 1) else word >>> 1

/-- The entry of `CRC32_TABLE` for one byte. -/
def crcEntry (index : UInt32) : UInt32 :=
  crcBit (crcBit (crcBit (crcBit (crcBit (crcBit (crcBit (crcBit index)))))))

def crcStep (crc : UInt32) (byte : UInt8) : UInt32 :=
  (crc >>> 8) ^^^ crcEntry ((crc ^^^ byte.toUInt32) &&& 0xff)

def crc32 (bytes : Bytes) : UInt32 :=
  bytes.foldl crcStep 0xffffffff ^^^ 0xffffffff

inductive FormatRangeError
  | nonPositive (width : Int)
  | width (value needs : Nat) (width : Int)
  | bytes (count needs : Nat) (width : Int)
  | tokenPrefix (given : String)
  | environment (given : String)
  deriving DecidableEq

/-- Digits of `n`, the last one first. -/
def integerDigits : Nat → Nat → List Nat
  | 0, _ => []
  | fuel + 1, n => if n = 0 then [] else n % 62 :: integerDigits fuel (n / 62)

def encodeBase62Integer (value : Nat) (width : Int) :
    Except FormatRangeError (List Char) :=
  if width ≤ 0 then .error (.nonPositive width)
  else
    let out := (integerDigits value value).reverse.map base62Char
    if width < out.length then .error (.width value out.length width)
    else .ok (List.replicate (width.toNat - out.length) '0' ++ out)

def dividePass : List Nat → Bool → Nat → List Nat × Nat
  | [], _, remainder => ([], remainder)
  | byte :: rest, leadingZero, remainder =>
    let acc := remainder * 256 + byte
    let quotient := acc / 62
    if !leadingZero || 0 < quotient then
      let rest := dividePass rest false (acc % 62)
      (quotient :: rest.1, rest.2)
    else dividePass rest leadingZero (acc % 62)

def divisionDigits : Nat → List Nat → List Nat
  | 0, _ => []
  | _ + 1, [] => []
  | fuel + 1, byte :: rest =>
    let pass := dividePass (byte :: rest) true 0
    pass.2 :: divisionDigits fuel pass.1

/-- `encodeBase62Bytes`; a number of `n` bytes has at most `8 * n` digits. -/
def encodeBase62Bytes (bytes : Bytes) (width : Int) :
    Except FormatRangeError (List Char) :=
  if width ≤ 0 then .error (.nonPositive width)
  else
    let out := divisionDigits (8 * bytes.length + 1) (bytes.map UInt8.toNat)
    if width < out.length then .error (.bytes bytes.length out.length width)
    else
      .ok ((out ++ List.replicate (width.toNat - out.length) 0).reverse.map base62Char)

/-- ASCII bytes of a text, which is all that `crc32` is asked to digest. -/
def asciiBytes (text : List Char) : Bytes :=
  text.map fun char => UInt8.ofNat char.toNat

/-- The raw token minted from 32 random bytes. -/
def generateRawToken (tokenPrefix : Option String) (env : String)
    (entropyBytes : Bytes) : Except FormatRangeError String :=
  let tokenPrefix := tokenPrefix.getD defaultTokenPrefix
  if !envLabelRe tokenPrefix.toList then .error (.tokenPrefix tokenPrefix)
  else if !envLabelRe env.toList then .error (.environment env)
  else do
    let entropy ← encodeBase62Bytes entropyBytes tokenEntropyLength
    let checksum ← encodeBase62Integer (crc32 (asciiBytes entropy)).toNat
      tokenChecksumLength
    return tokenPrefix ++ "_" ++ env ++ "_" ++ tokenVersion ++ "_" ++
      String.ofList entropy ++ "_" ++ String.ofList checksum

inductive TokenFormatErrorKind
  | emptyInput
  | wrongPrefix
  | wrongVersion
  | wrongLength
  | invalidEnvironment
  | invalidEntropy
  | invalidChecksum
  deriving DecidableEq

structure TokenFormatError where
  kind : TokenFormatErrorKind
  message : String
  inputLength : Nat
  deriving DecidableEq

structure ParsedToken where
  tokenPrefix : String
  env : String
  entropy : String
  checksum : String
  raw : String
  deriving DecidableEq

structure ParseTokenOptions where
  acceptPrefix : Option String := none
  acceptEnvironments : Option (List String) := none
  deriving DecidableEq

def isBase62 (text : List Char) : Bool := text.all (base62Alphabet.contains ·)

def isAcceptedEnvironment (env : List Char) (accept : Option (List String)) : Bool :=
  if jsLength env = 0 || 16 < jsLength env then false
  else
    match accept with
    | some [] => envLabelRe env
    | some accept => (accept.map String.toList).contains env
    | none => (tokenEnvironments.map String.toList).contains env

def parseToken (input : String) (opts : ParseTokenOptions) :
    Except TokenFormatError ParsedToken :=
  let refuse {α : Type} (kind : TokenFormatErrorKind) (message : String) :
      Except TokenFormatError α :=
    .error ⟨kind, message, jsLength input.toList⟩
  if input.toList = [] then refuse .emptyInput "Token input is empty."
  else
    match splitChars '_' input.toList with
    | [tokenPrefix, env, version, entropy, checksum] =>
      let acceptPrefix := opts.acceptPrefix.getD defaultTokenPrefix
      if tokenPrefix ≠ acceptPrefix.toList then
        refuse .wrongPrefix ("Token prefix '" ++ String.ofList tokenPrefix ++
          "' does not match expected '" ++ acceptPrefix ++ "'.")
      else if !isAcceptedEnvironment env opts.acceptEnvironments then
        refuse .invalidEnvironment ("Token environment label '" ++
          String.ofList env ++ "' is not in the accepted set.")
      else if version ≠ tokenVersion.toList then
        refuse .wrongVersion ("Token version '" ++ String.ofList version ++
          "' does not match supported '" ++ tokenVersion ++ "'.")
      else if jsLength entropy ≠ tokenEntropyLength || !isBase62 entropy then
        refuse .invalidEntropy "Token entropy block must be 43 base62 characters."
      else if jsLength checksum ≠ tokenChecksumLength || !isBase62 checksum then
        refuse .invalidChecksum "Token checksum must be 6 base62 characters."
      else
        match encodeBase62Integer (crc32 (asciiBytes entropy)).toNat
            tokenChecksumLength with
        | .ok expected =>
          if expected = checksum then
            .ok ⟨String.ofList tokenPrefix, String.ofList env,
              String.ofList entropy, String.ofList checksum, input⟩
          else
            refuse .invalidChecksum
              "Token checksum does not match its entropy block."
        | .error _ =>
          refuse .invalidChecksum
            "Token checksum does not match its entropy block."
    | segments =>
      refuse .wrongLength ("Token expected 5 underscore-separated segments; got " ++
        toString segments.length ++ ".")

def bigEndianValue (start : Nat) : List Nat → Nat
  | [] => start
  | byte :: rest => bigEndianValue (start * 256 + byte) rest

theorem bigEndianValue_eq (start : Nat) (bytes : List Nat) :
    bigEndianValue start bytes =
      start * 256 ^ bytes.length + bigEndianValue 0 bytes := by
  induction bytes generalizing start with
  | nil => simp [bigEndianValue]
  | cons byte _ ih =>
    rw [bigEndianValue, bigEndianValue, ih, ih (0 * 256 + byte),
      List.length_cons, pow_succ]
    ring

/-- A pass divides: quotient and remainder make up the dividend. -/
theorem dividePass_value (bytes : List Nat) (leadingZero : Bool) (remainder : Nat) :
    let pass := dividePass bytes leadingZero remainder
    62 * bigEndianValue 0 pass.1 + pass.2 = bigEndianValue remainder bytes ∧
      (leadingZero = false → pass.1.length = bytes.length) := by
  induction bytes generalizing leadingZero remainder with
  | nil => simp [dividePass, bigEndianValue]
  | cons byte rest ih =>
    have split := Nat.div_add_mod (remainder * 256 + byte) 62
    simp only [dividePass, bigEndianValue]
    split
    · rename_i kept
      obtain ⟨value, length⟩ := ih false ((remainder * 256 + byte) % 62)
      have length := length rfl
      refine ⟨?_, fun _ => by simp [length]⟩
      rw [bigEndianValue, bigEndianValue_eq, length]
      rw [bigEndianValue_eq _ rest] at value
      rw [bigEndianValue_eq (remainder * 256 + byte)]
      calc _ = (62 * ((remainder * 256 + byte) / 62)) * 256 ^ rest.length +
            (62 * bigEndianValue 0
                (dividePass rest false ((remainder * 256 + byte) % 62)).1 +
              (dividePass rest false ((remainder * 256 + byte) % 62)).2) := by ring
        _ = (62 * ((remainder * 256 + byte) / 62) +
              (remainder * 256 + byte) % 62) * 256 ^ rest.length +
            bigEndianValue 0 rest := by rw [value]; ring
        _ = _ := by rw [split]
    · rename_i dropped
      simp only [Bool.or_eq_true, Bool.not_eq_true', decide_eq_true_eq, not_or,
        Nat.not_lt, Nat.le_zero, Bool.not_eq_false] at dropped
      obtain ⟨value, _⟩ := ih leadingZero ((remainder * 256 + byte) % 62)
      refine ⟨?_, fun kept => by simp [kept] at dropped⟩
      rw [value]
      congr 1
      omega

/-- Without leading zeros, only nothing writes zero. -/
theorem dividePass_nil (small : bigEndianValue remainder bytes < 62) (fits : remainder < 62) :
    (dividePass bytes true remainder).1 = [] := by
  induction bytes generalizing remainder with
  | nil => rfl
  | cons byte rest ih =>
    rw [bigEndianValue, bigEndianValue_eq] at small
    have positive : 1 ≤ 256 ^ rest.length := Nat.one_le_pow _ _ (by omega)
    have low : remainder * 256 + byte < 62 :=
      lt_of_le_of_lt (Nat.le_mul_of_pos_right _ positive) (by omega)
    have none : (remainder * 256 + byte) / 62 = 0 := Nat.div_eq_of_lt low
    simp only [dividePass, none, Nat.lt_irrefl, decide_false, Bool.not_true,
      Bool.or_self, Bool.false_eq_true, if_false]
    apply ih
    · rw [Nat.mod_eq_of_lt low, bigEndianValue_eq]
      exact small
    · exact Nat.mod_lt _ (by omega)

theorem divisionDigits_length (fuel digits : Nat) (bytes : List Nat)
    (fits : bigEndianValue 0 bytes < 62 ^ (digits + 1)) :
    (divisionDigits fuel bytes).length ≤ digits + 1 := by
  induction fuel generalizing digits bytes with
  | zero => simp [divisionDigits]
  | succ fuel ih =>
    cases bytes with
    | nil => simp [divisionDigits]
    | cons byte rest =>
      rw [divisionDigits, List.length_cons]
      cases digits with
      | zero =>
        rw [dividePass_nil (by simpa using fits) (by omega)]
        cases fuel <;> simp [divisionDigits]
      | succ digits =>
        have value := (dividePass_value (byte :: rest) true 0).1
        have less := ih digits (dividePass (byte :: rest) true 0).1 (by
          rw [pow_succ] at fits
          omega)
        omega

theorem bigEndianValue_lt (bytes : Bytes) :
    bigEndianValue 0 (bytes.map UInt8.toNat) < 256 ^ bytes.length := by
  suffices ∀ start, bigEndianValue start (bytes.map UInt8.toNat) <
      (start + 1) * 256 ^ bytes.length by simpa using this 0
  induction bytes with
  | nil => intro start; simp [bigEndianValue]
  | cons byte rest ih =>
    intro start
    rw [List.map_cons, bigEndianValue, List.length_cons, pow_succ]
    have bound := byte.toNat_lt
    calc _ < (start * 256 + byte.toNat + 1) * 256 ^ rest.length := ih _
      _ ≤ (start + 1) * 256 * 256 ^ rest.length :=
          Nat.mul_le_mul_right _ (by omega)
      _ = _ := by ring

theorem encodeBase62Bytes_entropy (length : bytes.length = tokenEntropyBytes) :
    ∃ text, encodeBase62Bytes bytes tokenEntropyLength = .ok text := by
  have bound := bigEndianValue_lt bytes
  rw [length] at bound
  have fits := divisionDigits_length (8 * bytes.length + 1) 42
    (bytes.map UInt8.toNat) (bound.trans (by decide))
  refine ⟨_, (if_neg (by decide)).trans (if_neg ?_)⟩
  rw [not_lt]
  exact_mod_cast fits

theorem integerDigits_length (fuel n digits : Nat) (fits : n < 62 ^ digits) :
    (integerDigits fuel n).length ≤ digits := by
  induction fuel generalizing n digits with
  | zero => simp [integerDigits]
  | succ _ ih =>
    rw [integerDigits]
    split
    · simp
    · cases digits with
      | zero => simp at fits; omega
      | succ digits =>
        have rest := ih (n / 62) digits (by rw [pow_succ] at fits; omega)
        simpa using rest

theorem encodeBase62Integer_checksum (word : UInt32) :
    ∃ text, encodeBase62Integer word.toNat tokenChecksumLength = .ok text := by
  have bound := word.toNat_lt
  have fits := integerDigits_length word.toNat word.toNat 6
    (bound.trans (by decide))
  refine ⟨_, (if_neg (by decide)).trans (if_neg ?_)⟩
  rw [not_lt, List.length_map, List.length_reverse]
  exact_mod_cast fits

theorem generateRawToken_isOk {tokenPrefix : Option String} {env : String}
    (length : bytes.length = tokenEntropyBytes) :
    (∃ raw, generateRawToken tokenPrefix env bytes = .ok raw) ↔
      envLabelRe (tokenPrefix.getD defaultTokenPrefix).toList = true ∧
        envLabelRe env.toList = true := by
  obtain ⟨entropy, entropyIs⟩ := encodeBase62Bytes_entropy length
  obtain ⟨checksum, checksumIs⟩ :=
    encodeBase62Integer_checksum (crc32 (asciiBytes entropy))
  unfold generateRawToken
  by_cases prefixOk : envLabelRe (tokenPrefix.getD defaultTokenPrefix).toList = true
  · by_cases envOk : envLabelRe env.toList = true
    · simp [prefixOk, envOk, entropyIs, checksumIs, bind, Except.bind, pure,
        Except.pure]
    · simp [prefixOk, envOk]
  · simp [prefixOk]

end Graphorin.Auth
