import Graphorin.Security.Accessors

/-!
# Percent-encoded paths

A path is written byte by byte; the reader turns every triplet into a character of its own.
-/

namespace Graphorin.Security.SecretRef

open Graphorin.Audit Graphorin.Lib Graphorin.Js Graphorin.Js.Utf8

def unitOf (byte : UInt8) : UInt16 := UInt16.ofNat byte.toNat

def hexUnit (digit : Nat) : UInt16 :=
  UInt16.ofNat (if digit < 10 then 0x30 + digit else 0x37 + digit)

def plainByte (keeps : UInt16 → Bool) (byte : UInt8) : Bool :=
  keeps (unitOf byte) && (unitOf byte = 0x2f || isPchar (unitOf byte))

def encodeByte (keeps : UInt16 → Bool) (byte : UInt8) : JsText :=
  if plainByte keeps byte then [unitOf byte]
  else [0x25, hexUnit (byte.toNat / 16), hexUnit (byte.toNat % 16)]

/-- The percent-encoding of the UTF-8 bytes of a path; `keeps` says which path characters
stay as they are. -/
def percentEncode (keeps : UInt16 → Bool) (path : List Char) : JsText :=
  (encode path).flatMap (encodeByte keeps)

theorem hexUnit_spec (small : digit < 16) :
    isHex (hexUnit digit) = true ∧ hexDigit (hexUnit digit) = digit := by
  have all : ∀ digit : Fin 16, isHex (hexUnit digit) = true ∧
      hexDigit (hexUnit digit) = digit := by decide
  exact all ⟨digit, small⟩

theorem triplet_hex (byte : UInt8) :
    (isHex (hexUnit (byte.toNat / 16)) && isHex (hexUnit (byte.toNat % 16))) = true := by
  have bound := byte.toNat_lt
  rw [(hexUnit_spec (by omega)).1, (hexUnit_spec (by omega)).1]
  rfl

theorem triplet_value (byte : UInt8) :
    UInt16.ofNat (16 * hexDigit (hexUnit (byte.toNat / 16)) +
      hexDigit (hexUnit (byte.toNat % 16))) = unitOf byte := by
  have bound := byte.toNat_lt
  rw [(hexUnit_spec (by omega)).2, (hexUnit_spec (by omega)).2, unitOf,
    Nat.div_add_mod]

variable {keeps : UInt16 → Bool}

theorem plain_inner (plain : plainByte keeps byte) :
    (unitOf byte = 0x2f ∨ isPchar (unitOf byte)) ∧ unitOf byte ≠ 0x25 ∧
      unitOf byte ≠ 0x3f ∧ unitOf byte ≠ 0x23 := by
  have kept := (Bool.and_eq_true_iff.mp plain).2
  rw [Bool.or_eq_true, decide_eq_true_eq] at kept
  refine ⟨kept, ?_⟩
  generalize unitOf byte = unit at kept
  refine ⟨?_, ?_, ?_⟩ <;>
  · rintro rfl
    rcases kept with slash | char
    · cases slash
    · cases char

theorem decode_percentEncode (keeps : UInt16 → Bool) (raw : JsText) (position : Nat)
    (bytes : Bytes) :
    percentDecode raw position (bytes.flatMap (encodeByte keeps)) =
      .ok (bytes.map unitOf) := by
  induction bytes generalizing position with
  | nil => rfl
  | cons byte rest ih =>
    rw [List.flatMap_cons, encodeByte]
    split
    · rename_i plain
      rw [List.singleton_append,
        percentDecode_plain raw position (plain_inner plain).2.1, ih]
      rfl
    · show percentDecode raw position (0x25 :: _ :: _ :: _) = _
      rw [percentDecode_triplet raw position (triplet_hex byte), triplet_value]
      show Except.map _ (percentDecode raw (position + 3)
        (rest.flatMap (encodeByte keeps))) = _
      rw [ih]
      rfl

theorem readComponent_path (keeps : UInt16 → Bool) (input : JsText) (position : Nat)
    (bytes : Bytes) : readComponent "path" (fun ch => ch = 0x3f || ch = 0x23)
      (fun ch => ch = 0x2f || isPchar ch || ch = 0x20) input position
      (bytes.flatMap (encodeByte keeps)) = .ok (bytes.flatMap (encodeByte keeps), []) := by
  induction bytes generalizing position with
  | nil => rfl
  | cons byte rest ih =>
    rw [List.flatMap_cons, encodeByte]
    split
    · rename_i plain
      obtain ⟨kept, notPercent, notMark, notHash⟩ := plain_inner plain
      rw [List.singleton_append, readComponent.eq_def]
      have allowed : (decide (unitOf byte = 0x2f) || isPchar (unitOf byte)) = true := by
        rw [Bool.or_eq_true, decide_eq_true_eq]
        exact kept
      simp only [notMark, notHash, notPercent, decide_false, Bool.or_self,
        Bool.false_eq_true, if_false, allowed, Bool.true_or, not_true_eq_false, ih]
      rfl
    · show readComponent _ _ _ _ _ (0x25 :: _ :: _ :: rest.flatMap _) = _
      rw [readComponent.eq_def]
      simp only [triplet_hex, if_true, ih]
      rfl

def fileUri (keeps : UInt16 → Bool) (path : List Char) : JsText :=
  ascii "file:" ++ percentEncode keeps path

theorem readScheme_file (rest : JsText) :
    readScheme (ascii "file:" ++ rest) = .ok (ascii "file", rest) := rfl

def beforePath (rest : JsText) : JsText :=
  if (ascii "//").isPrefixOf rest then (readAuthority (rest.drop 2)).2 else rest

theorem parse_file (accepted : parseSecretRef (ascii "file:" ++ rest) = .ok ref) :
    ∃ read position,
      readPath (ascii "file:" ++ rest) position ((ascii "//").isPrefixOf rest)
        (beforePath rest) = .ok read ∧
      percentDecode (ascii "file:" ++ rest) position read.1 = .ok ref.path := by
  have named := readScheme_file rest
  generalize ascii "file:" ++ rest = uri at accepted named ⊢
  obtain ⟨⟨name, afterColon⟩, scheme, accepted⟩ := ok_of_bind accepted
  cases named.symm.trans scheme
  simp only at accepted
  split at accepted
  · cases accepted
  obtain ⟨⟨rawPath, afterPath⟩, path, accepted⟩ := ok_of_bind accepted
  obtain ⟨decoded, decodes, accepted⟩ := ok_of_bind accepted
  obtain ⟨⟨rawQuery, afterQuery⟩, query, accepted⟩ := ok_of_bind accepted
  obtain ⟨out, parsed, accepted⟩ := ok_of_bind accepted
  obtain ⟨fragmentRaw, fragment, accepted⟩ := ok_of_bind accepted
  have field : ref.path = decoded := by
    split at accepted
    · obtain ⟨_, -, done⟩ := ok_of_bind accepted
      cases done
      rfl
    · cases accepted
      rfl
  rw [field]
  exact ⟨_, _, path, decodes⟩

theorem dropAuthority (keeps : UInt16 → Bool) (bytes : Bytes) :
    ∃ later, later <:+ bytes ∧
      (bytes.flatMap (encodeByte keeps)).dropWhile inAuthority =
        later.flatMap (encodeByte keeps) := by
  induction bytes with
  | nil => exact ⟨[], List.suffix_rfl, rfl⟩
  | cons byte rest ih =>
    obtain ⟨later, suffix, same⟩ := ih
    have onward := suffix.trans (List.suffix_cons byte rest)
    rw [List.flatMap_cons]
    by_cases slash : plainByte keeps byte = true ∧ unitOf byte = 0x2f
    · refine ⟨byte :: rest, List.suffix_rfl, ?_⟩
      rw [List.flatMap_cons, encodeByte, if_pos slash.1, slash.2]
      rfl
    · refine ⟨later, onward, ?_⟩
      rw [← same]
      unfold encodeByte
      split
      · rename_i plain
        obtain ⟨-, -, notMark, notHash⟩ := plain_inner plain
        have notSlash : unitOf byte ≠ 0x2f := fun same => slash ⟨plain, same⟩
        rw [List.singleton_append, List.dropWhile_cons_of_pos]
        simp [inAuthority, notSlash, notMark, notHash]
      · have inner {ch : UInt16} (hex : isHex ch) : inAuthority ch = true := by
          have apart := hex_inside ch hex
          rw [Bool.or_eq_false_iff, decide_eq_false_iff_not, decide_eq_false_iff_not]
            at apart
          have notSlash : ch ≠ 0x2f := by
            rintro rfl
            cases hex
          simp [inAuthority, notSlash, apart.1, apart.2]
        obtain ⟨high, low⟩ := Bool.and_eq_true_iff.mp (triplet_hex byte)
        rw [List.cons_append, List.dropWhile_cons_of_pos rfl, List.cons_append,
          List.dropWhile_cons_of_pos (inner high), List.cons_append,
          List.dropWhile_cons_of_pos (inner low), List.nil_append]

theorem unitOf_inj (same : unitOf byte = unitOf other) : byte = other := by
  have values := congrArg UInt16.toNat same
  have bound := byte.toNat_lt
  have bound' := other.toNat_lt
  rw [unitOf, unitOf, UInt16.toNat_ofNat', UInt16.toNat_ofNat', Nat.mod_eq_of_lt (by omega),
    Nat.mod_eq_of_lt (by omega)] at values
  exact UInt8.toNat_inj.mp values

theorem leading_slash (slash : bytes.flatMap (encodeByte keeps) = 0x2f :: tail) :
    ∃ rest, bytes = 0x2f :: rest ∧ tail = rest.flatMap (encodeByte keeps) := by
  cases bytes with
  | nil => cases slash
  | cons byte rest =>
    rw [List.flatMap_cons, encodeByte] at slash
    split at slash
    · obtain ⟨head, same⟩ := List.cons.inj slash
      have named : unitOf byte = unitOf 0x2f := head
      exact ⟨rest, by rw [unitOf_inj named], same.symm⟩
    · cases (List.cons.inj slash).1

variable {path : List Char}

theorem path_of_file (accepted : parseSecretRef (fileUri keeps path) = .ok ref) :
    ∃ bytes, ref.path = bytes.map unitOf ∧
      (path ≠ [] ∧ ¬ ascii "//" <+: percentEncode keeps path ∧ bytes = encode path ∨
        ascii "//" <+: percentEncode keeps path ∧
          ∃ rest, encode path = 0x2f :: 0x2f :: rest ∧ bytes <:+ rest) := by
  obtain ⟨read, position, whole, decodes⟩ := parse_file accepted
  obtain ⟨bytes, same, shape⟩ : ∃ bytes : Bytes,
      beforePath (percentEncode keeps path) = bytes.flatMap (encodeByte keeps) ∧
      (¬ ascii "//" <+: percentEncode keeps path ∧ bytes = encode path ∨
        ascii "//" <+: percentEncode keeps path ∧
          ∃ rest, encode path = 0x2f :: 0x2f :: rest ∧ bytes <:+ rest) := by
    unfold beforePath
    split
    · rename_i slashes
      obtain ⟨tail, joined⟩ := List.isPrefixOf_iff_prefix.mp slashes
      have joined : percentEncode keeps path = 0x2f :: 0x2f :: tail := joined.symm
      obtain ⟨rest, first, split⟩ := leading_slash joined
      obtain ⟨rest, rfl, others⟩ := leading_slash split.symm
      obtain ⟨later, suffix, dropped⟩ := dropAuthority keeps rest
      refine ⟨later, ?_, .inr ⟨List.isPrefixOf_iff_prefix.mp slashes, rest, first, suffix⟩⟩
      rw [← dropped, joined, ← others]
      rfl
    · rename_i single
      exact ⟨encode path, rfl, .inl ⟨fun slashes =>
        single (List.isPrefixOf_iff_prefix.mpr slashes), rfl⟩⟩
  rw [same] at whole
  obtain ⟨read', component, kept⟩ := ok_of_bind whole
  rw [readComponent_path] at component
  obtain rfl := Except.ok.inj component
  split at kept
  · cases kept
  · rename_i nonempty
    obtain rfl := Except.ok.inj kept
    rw [decode_percentEncode] at decodes
    refine ⟨bytes, (Except.ok.inj decodes).symm, shape.imp (fun plain => ⟨?_, plain⟩) id⟩
    rintro rfl
    exact nonempty ⟨Bool.eq_false_iff.mpr fun slashes =>
      plain.1 (List.isPrefixOf_iff_prefix.mp slashes), by rw [plain.2]; rfl⟩

def Ascii (char : Char) : Prop := char.toNat < 0x80

instance (char : Char) : Decidable (Ascii char) := inferInstanceAs (Decidable (_ < _))

theorem ascii_char (plain : Ascii char) :
    (String.utf8EncodeChar char).map unitOf = charUnits char := by
  unfold Ascii at plain
  rcases encode_cases char with ⟨small, bytes⟩ | ⟨above, -⟩ | ⟨above, -⟩ | ⟨above, -⟩
  · rw [bytes, charUnits, if_pos (by omega), List.map_singleton, unitOf,
      toNat_ofNat (by omega)]
  · omega
  · omega
  · omega

theorem char_length (char : Char) :
    (charUnits char).length ≤ (String.utf8EncodeChar char).length ∧
      ((String.utf8EncodeChar char).length ≤ (charUnits char).length → Ascii char) := by
  unfold Ascii
  rcases encode_cases char with ⟨small, bytes⟩ | ⟨above, small, bytes⟩ |
      ⟨above, small, bytes⟩ | ⟨above, bytes⟩ <;> rw [bytes, charUnits]
  · rw [if_pos (by omega)]
    exact ⟨Nat.le_refl _, fun _ => by omega⟩
  · rw [if_pos (by omega)]
    simp
  · rw [if_pos (by omega)]
    simp
  · rw [if_neg (by omega)]
    simp

theorem char_ascii (char : Char) : (charUnits char).countP (·.toNat < 0x80) =
      (String.utf8EncodeChar char).countP (·.toNat < 0x80) := by
  have valid : char.toNat < 0xd800 ∨ 0xdfff < char.toNat ∧ char.toNat < 0x110000 :=
    char.valid
  by_cases plain : Ascii char
  · rw [← ascii_char plain, List.countP_map]
    refine List.countP_congr fun byte _ => ?_
    have bound := byte.toNat_lt
    simp only [Function.comp_apply, unitOf, UInt16.toNat_ofNat', decide_eq_true_eq]
    omega
  · unfold Ascii at plain
    have none : (String.utf8EncodeChar char).countP (·.toNat < 0x80) = 0 := by
      rw [List.countP_eq_zero]
      rcases encode_cases char with ⟨small, bytes⟩ | ⟨above, small, bytes⟩ |
          ⟨above, small, bytes⟩ | ⟨above, bytes⟩
      · omega
      all_goals
        rw [bytes]
        simp only [List.forall_mem_cons, decide_eq_true_eq, UInt8.toNat_ofNat',
          List.not_mem_nil, false_imp_iff, implies_true, and_true]
        omega
    rw [none, List.countP_eq_zero]
    unfold charUnits
    split
    all_goals
      simp only [List.forall_mem_cons, decide_eq_true_eq, UInt16.toNat_ofNat',
        List.not_mem_nil, false_imp_iff, implies_true, and_true]
      omega

theorem path_length (path : List Char) :
    (path.flatMap charUnits).length ≤ (encode path).length ∧
      ((encode path).length ≤ (path.flatMap charUnits).length → ∀ char ∈ path, Ascii char) := by
  induction path with
  | nil => exact ⟨Nat.le_refl _, fun _ => nofun⟩
  | cons char _ ih =>
    have here := char_length char
    rw [List.flatMap_cons, encode_cons, List.length_append, List.length_append]
    exact ⟨by omega, fun short => List.forall_mem_cons.mpr
      ⟨here.2 (by omega), ih.2 (by omega)⟩⟩

theorem path_ascii (path : List Char) :
    (path.flatMap charUnits).countP (·.toNat < 0x80) =
      (encode path).countP (·.toNat < 0x80) := by
  induction path with
  | nil => rfl
  | cons char rest ih =>
    rw [List.flatMap_cons, encode_cons, List.countP_append, List.countP_append,
      char_ascii, ih]

theorem ascii_path (plain : ∀ char ∈ path, Ascii char) :
    (encode path).map unitOf = path.flatMap charUnits := by
  induction path with
  | nil => rfl
  | cons char rest ih =>
    obtain ⟨here, others⟩ := List.forall_mem_cons.mp plain
    rw [encode_cons, List.map_append, ascii_char here, ih others, List.flatMap_cons]

theorem units_ascii (bytes : Bytes) :
    (bytes.map unitOf).countP (·.toNat < 0x80) = bytes.countP (·.toNat < 0x80) := by
  rw [List.countP_map]
  refine List.countP_congr fun byte _ => ?_
  have bound := byte.toNat_lt
  simp only [Function.comp_apply, unitOf, UInt16.toNat_ofNat', decide_eq_true_eq]
  omega

theorem parse_plain (nonempty : path ≠ [])
    (single : ¬ ascii "//" <+: percentEncode keeps path) :
    ∃ ref, parseSecretRef (fileUri keeps path) = .ok ref := by
  have scheme := readScheme_file (percentEncode keeps path)
  have slashless : (ascii "//").isPrefixOf (percentEncode keeps path) = false :=
    Bool.eq_false_iff.mpr fun slashes => single (List.isPrefixOf_iff_prefix.mp slashes)
  have some : percentEncode keeps path ≠ [] := by
    cases path with
    | nil => exact absurd rfl nonempty
    | cons char =>
      obtain ⟨first, others, bytes, -⟩ := lead_and_continuations char
      rw [percentEncode, encode_cons, bytes, List.cons_append, List.flatMap_cons, encodeByte]
      split <;> simp
  have whole (input : JsText) (position : Nat) :
      readPath input position false (percentEncode keeps path) =
        .ok (percentEncode keeps path, []) := by
    rw [readPath, percentEncode, readComponent_path]
    exact if_neg fun empty => some empty.2
  have decodes (raw : JsText) (position : Nat) :
      percentDecode raw position (percentEncode keeps path) =
        .ok ((encode path).map unitOf) := decode_percentEncode keeps raw position _
  unfold fileUri
  generalize ascii "file:" ++ percentEncode keeps path = uri at scheme ⊢
  refine ⟨{ raw := uri, scheme := (ascii "file").map toLowerCase, authority := none
            path := (encode path).map unitOf, query := .empty, fragment := none }, ?_⟩
  simp only [parseSecretRef, scheme, slashless, bind, Except.bind, Bool.false_eq_true,
    false_and, if_false, whole, decodes, readQueryRaw, parseQueryString_nil,
    readFragmentRaw, List.length_nil, Nat.lt_irrefl]
  rfl

theorem roundtrip_iff (keeps : UInt16 → Bool) (path : List Char) :
    (∃ ref, parseSecretRef (fileUri keeps path) = .ok ref ∧
      ref.path = path.flatMap charUnits) ↔
    path ≠ [] ∧ (∀ char ∈ path, Ascii char) ∧ ¬ ascii "//" <+: percentEncode keeps path := by
  constructor
  · rintro ⟨ref, accepted, same⟩
    obtain ⟨bytes, decoded, ⟨nonempty, single, rfl⟩ |
      ⟨-, rest, split, suffix⟩⟩ := path_of_file accepted
    · refine ⟨nonempty, (path_length path).2 ?_, single⟩
      rw [← same, decoded, List.length_map]
    · have total := path_ascii path
      rw [← same, decoded, units_ascii, split] at total
      have few := suffix.sublist.countP_le (p := fun byte : UInt8 => byte.toNat < 0x80)
      rw [List.countP_cons_of_pos (by decide), List.countP_cons_of_pos (by decide)] at total
      omega
  · rintro ⟨nonempty, plain, single⟩
    obtain ⟨ref, accepted⟩ := parse_plain nonempty single
    refine ⟨ref, accepted, ?_⟩
    obtain ⟨bytes, decoded, ⟨-, -, rfl⟩ | ⟨slashes, -⟩⟩ := path_of_file accepted
    · rw [decoded, ascii_path plain]
    · exact absurd slashes single

/-- The accessors of an accepted reference agree unless its fragment holds something like a
query and no query comes before it; a path comes back exactly when it is not empty, is not
taken for an authority and has no character of several bytes. -/
theorem secretRef_laws_iff (accepted : parseSecretRef uri = .ok ref) :
    (Agree ref ↔ ∀ ch ∈ strayQuery uri, ch = 0x26) ∧ ∀ keeps path,
      (∃ ref, parseSecretRef (fileUri keeps path) = .ok ref ∧
        ref.path = path.flatMap charUnits) ↔
      path ≠ [] ∧ (∀ char ∈ path, Ascii char) ∧
        ¬ ascii "//" <+: percentEncode keeps path :=
  ⟨agree_iff accepted, roundtrip_iff⟩

/-- A reference whose fragment holds something like a query. -/
def stray : JsText := ascii "env:A#f?x"

theorem stray_units : stray = [0x65, 0x6e, 0x76, 0x3a, 0x41, 0x23, 0x66, 0x3f, 0x78] := by
  decide

theorem stray_accepted : ∃ ref, parseSecretRef stray = .ok ref := by
  have accepted : (parseSecretRef stray).toOption.isSome = true := by
    rw [stray_units]
    decide
  cases parsed : parseSecretRef stray with
  | error =>
    rw [parsed] at accepted
    cases accepted
  | ok ref => exact ⟨ref, rfl⟩

theorem secretRef_laws_iff_stray : ∃ ref, parseSecretRef stray = .ok ref ∧ ¬ Agree ref := by
  obtain ⟨ref, accepted⟩ := stray_accepted
  refine ⟨ref, accepted, fun agree => ?_⟩
  exact absurd ((secretRef_laws_iff accepted).1.mp agree 0x78 (by decide)) (by decide)

/-- A query read out of a fragment, and a character whose two bytes become two. -/
theorem fragment_and_accent :
    ¬ (∀ uri ref, parseSecretRef uri = .ok ref → Agree ref) ∧
      ¬ ∀ keeps path, path ≠ [] → '?' ∉ path → '#' ∉ path →
        ∃ ref, parseSecretRef (fileUri keeps path) = .ok ref ∧
          ref.path = path.flatMap charUnits := by
  constructor
  · intro agree
    obtain ⟨ref, accepted⟩ := stray_accepted
    exact absurd ((agree_iff accepted).mp (agree stray ref accepted) 0x78 (by decide))
      (by decide)
  · intro roundtrip
    have back := roundtrip (fun _ => false) ['é'] (by decide) (by decide) (by decide)
    exact absurd (((roundtrip_iff _ _).mp back).2.1 'é' (.head _)) (by decide)

end Graphorin.Security.SecretRef
