import Graphorin.Audit.Roundtrip

namespace Graphorin.Audit

open Graphorin.Js

/-! The chain: appending to it and walking it. -/

variable (js : Runtime)

inductive AppendError
  | payload (reason : NotSerialisable)
  | table (error : TableError)
deriving DecidableEq

/-- The entry that follows `last`. -/
def nextEntry (last : Option StoredAuditEntry) (now : Rat)
    (input : AuditEntryInput) : BaseAuditEntry where
  seq := (last.map fun last => last.seq).getD 0 + 1
  ts := input.ts.getD now
  actor := input.actor
  action := input.action
  target := input.target
  decision := input.decision
  context := input.context
  metadata := input.metadata
  prevHash := (last.map fun last => last.hash).getD GENESIS_PREV_HASH

/-- `appendOnce`, between its two statements. -/
def sealEntry (last : Option StoredAuditEntry) (now : Rat)
    (input : AuditEntryInput) : Except AppendError StoredAuditEntry := do
  let baseEntry := nextEntry last now input
  let hash ← (computeAuditHash js baseEntry).mapError .payload
  pure ⟨baseEntry, hash⟩

def appendOnce (now : Rat) (input : AuditEntryInput) (table : AuditTable) :
    Except AppendError (StoredAuditEntry × AuditTable) := do
  let stored ← sealEntry js table.latest now input
  let table ← (table.insert stored).mapError .table
  pure (stored, table)

/-- Appends one after the other, each at the time it is made. -/
def appendAll : List (AuditEntryInput × Rat) → AuditTable →
    Except AppendError AuditTable
  | [], table => .ok table
  | (input, now) :: rest, table => do
      let (_, table) ← appendOnce js now input table
      appendAll rest table

inductive AuditChainVerifyResult
  | ok (count : Nat)
  | broken (brokenAt : Nat) (expected actual : JsText)
deriving DecidableEq

/-- At the first entry, genesis, or the stored `prevHash` where the walk starts
later; then the hash of the entry before. -/
def expectedHash (fromSeq : Option Int) (count : Nat) (expectedPrevHash : JsText)
    (entry : StoredAuditEntry) : JsText :=
  if count = 0 then
    if fromSeq.all (· ≤ 1) then GENESIS_PREV_HASH else entry.prevHash
  else expectedPrevHash

/-- The loop of `verifyAuditChain`. -/
def verifyEntries (fromSeq : Option Int) : List StoredAuditEntry → Nat → JsText →
    Except NotSerialisable AuditChainVerifyResult
  | [], count, _ => .ok (.ok count)
  | entry :: rest, count, expectedPrevHash =>
    let expected := expectedHash fromSeq count expectedPrevHash entry
    if entry.prevHash ≠ expected then
      .ok (.broken entry.seq expected entry.prevHash)
    else do
      let recomputed ← computeAuditHash js entry.toBaseAuditEntry
      if recomputed ≠ entry.hash then
        pure (.broken entry.seq recomputed entry.hash)
      else verifyEntries fromSeq rest (count + 1) entry.hash

def verifyAuditChain (table : AuditTable) (fromSeq toSeq : Option Int) :
    Except NotSerialisable AuditChainVerifyResult :=
  verifyEntries js fromSeq (table.iterate fromSeq toSeq) 0 []

def hashedText (entry : BaseAuditEntry) : JsText :=
  (serialize js (.obj entry.fields)).toOption.getD []

def digest (text : JsText) : JsText := ascii (Bytes.toHex (sha256 (utf8 text)))

def rowHash (row : AuditRow) : JsText :=
  digest (hashedText js (rowToEntry row).toBaseAuditEntry)

theorem row_serializes (row : AuditRow) :
    ∃ text, serialize js (.obj (rowToEntry row).fields) = .ok text :=
  serialize_obj_ok js
    (entry_fields_serialize js (metadata_serializes js row.metadata))

theorem computeAuditHash_row (row : AuditRow) :
    computeAuditHash js (rowToEntry row).toBaseAuditEntry =
      .ok (rowHash js row) := by
  obtain ⟨text, served⟩ := row_serializes js row
  simp only [computeAuditHash, canonicalJson, rowHash, hashedText, served]
  rfl

def Linked : JsText → List AuditRow → Prop
  | _, [] => True
  | prevHash, row :: rest =>
    row.prevHash = prevHash ∧ row.hash = rowHash js row ∧ Linked row.hash rest

variable {row : AuditRow}

variable {fromSeq : Option Int}

theorem verifyEntries_row {rest : List StoredAuditEntry} {count total : Nat}
    {expectedPrevHash : JsText} :
    verifyEntries js fromSeq (rowToEntry row :: rest) count expectedPrevHash =
        .ok (.ok total) ↔
      row.prevHash = expectedHash fromSeq count expectedPrevHash (rowToEntry row) ∧
      row.hash = rowHash js row ∧
      verifyEntries js fromSeq rest (count + 1) row.hash = .ok (.ok total) := by
  rw [verifyEntries]
  simp only [computeAuditHash_row]
  have chain : (rowToEntry row).prevHash = row.prevHash := rfl
  have own : (rowToEntry row).hash = row.hash := rfl
  rw [own, chain]
  by_cases linked : row.prevHash =
      expectedHash fromSeq count expectedPrevHash (rowToEntry row)
  · by_cases hashed : row.hash = rowHash js row
    · simp [← linked, ← hashed, bind, Except.bind]
    · simp [← linked, hashed, Ne.symm hashed, bind, Except.bind, pure, Except.pure]
  · simp [linked]

variable {rows : List AuditRow}

variable {prevHash : JsText}

theorem verifyEntries_linked (later : 0 < count) :
    verifyEntries js fromSeq (rows.map rowToEntry) count prevHash =
        .ok (.ok (count + rows.length)) ↔ Linked js prevHash rows := by
  induction rows generalizing count prevHash with
  | nil => simp [verifyEntries, Linked]
  | cons row rest ih =>
    have size : count + (row :: rest).length = count + 1 + rest.length := by
      rw [List.length_cons]
      omega
    rw [List.map_cons, verifyEntries_row, size, ih (by omega), expectedHash,
      if_neg (by omega), Linked]

variable {table : AuditTable}

theorem iterate_all
    (inside : ∀ row ∈ table.rows, 1 ≤ row.seq ∧ (row.seq : Int) ≤ AuditTable.maxSafeInteger) :
    table.iterate none none = table.rows.map rowToEntry := by
  rw [AuditTable.iterate]
  congr 1
  apply List.filter_eq_self.mpr
  intro row member
  have bounds := inside row member
  simp only [Option.getD_none, decide_eq_true_eq]
  omega

theorem verifyAuditChain_linked
    (inside : ∀ row ∈ table.rows, 1 ≤ row.seq ∧ (row.seq : Int) ≤ AuditTable.maxSafeInteger) :
    verifyAuditChain js table none none = .ok (.ok table.rows.length) ↔
      Linked js GENESIS_PREV_HASH table.rows := by
  rw [verifyAuditChain, iterate_all inside]
  cases table.rows with
  | nil => simp [verifyEntries, Linked]
  | cons row rest =>
    have size : (row :: rest).length = 0 + 1 + rest.length := by
      rw [List.length_cons]
      omega
    rw [List.map_cons, verifyEntries_row, size,
      verifyEntries_linked js (by omega), expectedHash, if_pos rfl, Linked]
    rfl

theorem hex_small (member : character ∈ (Bytes.toHex bytes).toList) :
    character.toNat < 128 := by
  have each : ∀ digit ∈ List.range 16, (Nat.digitChar digit).toNat < 128 := by decide
  rw [Bytes.toHex, String.toList_ofList] at member
  obtain ⟨byte, -, inside⟩ := List.mem_flatMap.mp member
  have bound := byte.toNat_lt
  simp only [List.mem_cons, List.not_mem_nil, or_false] at inside
  rcases inside with rfl | rfl
  · exact each _ (List.mem_range.mpr (by omega))
  · exact each _ (List.mem_range.mpr (by omega))

theorem digest_cancel (same : digest first = digest second) :
    sha256 (utf8 first) = sha256 (utf8 second) := by
  have small : ∀ bytes : Bytes, ∀ character ∈ (Bytes.toHex bytes).toList,
      character.toNat < 65536 := by
    intro bytes character member
    have := hex_small member
    omega
  apply Bytes.toHex_injective
  apply String.toList_injective
  exact units_injective (small _) (small _) same

variable {text : JsText}

theorem toWellFormed_plain
    (plain : ∀ unit ∈ text, isHighSurrogate unit = false ∧ isLowSurrogate unit = false) :
    toWellFormed text = text := by
  fun_induction toWellFormed text with
  | case1 => rfl
  | case2 unit low others paired =>
    simp only [Bool.and_eq_true] at paired
    have := (plain unit List.mem_cons_self).1
    simp_all
  | case3 unit low others single ih =>
    have here := plain unit List.mem_cons_self
    rw [ih fun other member => plain other (List.mem_cons_of_mem _ member)]
    simp [here]
  | case4 unit =>
    have here := plain unit List.mem_cons_self
    simp [here]

theorem ascii_plain (small : unit.toNat < 128) :
    isHighSurrogate unit = false ∧ isLowSurrogate unit = false := by
  have high : UInt16.toNat 0xd800 = 0xd800 := rfl
  have low : UInt16.toNat 0xdc00 = 0xdc00 := rfl
  simp only [isHighSurrogate, isLowSurrogate, Bool.and_eq_false_iff,
    decide_eq_false_iff_not, UInt16.le_iff_toNat_le, high, low]
  constructor
  · exact .inl (by omega)
  · exact .inl (by omega)

@[simp] theorem toWellFormed_digest (text : JsText) :
    toWellFormed (digest text) = digest text := by
  refine toWellFormed_plain fun unit member => ascii_plain ?_
  obtain ⟨character, inside, rfl⟩ := List.mem_map.mp member
  have small := hex_small inside
  rw [UInt16.toNat_ofNat', Nat.mod_eq_of_lt (by omega)]
  exact small

@[simp] theorem toWellFormed_genesis :
    toWellFormed GENESIS_PREV_HASH = GENESIS_PREV_HASH := by
  refine toWellFormed_plain fun unit member => ascii_plain ?_
  rw [List.eq_of_mem_replicate member]
  decide

theorem computeAuditHash_text {entry : BaseAuditEntry} {hash : JsText}
    (hashed : computeAuditHash js entry = .ok hash) :
    hash = digest (hashedText js entry) ∧
      ∃ text, serialize js (.obj entry.fields) = .ok text := by
  simp only [computeAuditHash, canonicalJson, bind, Except.bind] at hashed
  cases served : serialize js (.obj entry.fields) with
  | error =>
    rw [served] at hashed
    cases hashed
  | ok text =>
    rw [served] at hashed
    refine ⟨?_, text, rfl⟩
    rw [← Except.ok.inj hashed, hashedText, served]
    rfl

variable {entry : StoredAuditEntry}

theorem entryToRow_some (column : entryToRow entry = some row) :
    ∃ metadata, metadataColumn entry.metadata = some metadata ∧
      row = ⟨entry.seq, entry.ts, entry.actor, toWellFormed entry.action,
        toWellFormed entry.target, entry.decision, entry.context, metadata,
        toWellFormed entry.prevHash, toWellFormed entry.hash⟩ := by
  rw [entryToRow] at column
  obtain ⟨metadata, found, rest⟩ := Option.bind_eq_some_iff.mp column
  exact ⟨metadata, found, (Option.some.inj rest).symm⟩

theorem entryToRow_seq (column : entryToRow entry = some row) : row.seq = entry.seq := by
  obtain ⟨metadata, -, rfl⟩ := entryToRow_some column
  rfl

theorem entryToRow_hashes (column : entryToRow entry = some row) :
    row.prevHash = toWellFormed entry.prevHash ∧
      row.hash = toWellFormed entry.hash := by
  obtain ⟨metadata, -, rfl⟩ := entryToRow_some column
  exact ⟨rfl, rfl⟩

variable {final : AuditTable}

theorem insert_ok (inserted : table.insert entry = .ok final)
    (newest : ∀ row ∈ table.rows, row.seq < entry.seq) :
    ∃ row, entryToRow entry = some row ∧ final.rows = table.rows ++ [row] := by
  rw [AuditTable.insert] at inserted
  cases column : entryToRow entry with
  | none =>
    rw [column] at inserted
    cases inserted
  | some row =>
    rw [column] at inserted
    simp only at inserted
    split at inserted
    · cases inserted
    · split at inserted
      · cases inserted
      · cases inserted
        refine ⟨row, rfl, ?_⟩
        have seq : row.seq = entry.seq := entryToRow_seq column
        have before : table.rows.filter (fun other => other.seq < row.seq) =
            table.rows := by
          apply List.filter_eq_self.mpr
          intro other member
          exact decide_eq_true (seq ▸ newest other member)
        have after : table.rows.filter (fun other => row.seq < other.seq) = [] := by
          apply List.filter_eq_nil_iff.mpr
          intro other member
          have := newest other member
          simp only [decide_eq_true_eq]
          omega
        show table.rows.filter _ ++ row :: table.rows.filter _ = _
        rw [before, after]

/-- Nothing of an input is lost in its columns: no unpaired surrogate in the raw
texts, no member of the metadata replaced by a value of another form. -/
def Faithful (input : AuditEntryInput) : Prop :=
  toWellFormed input.action = input.action ∧
    toWellFormed input.target = input.target ∧ input.metadata.Kept js

theorem fields_nodup (entry : BaseAuditEntry) :
    (entry.fields.map Prod.fst).Nodup := by
  show [ascii "seq", ascii "ts", ascii "actor", ascii "action", ascii "target",
    ascii "decision", ascii "context", ascii "metadata", ascii "prevHash"].Nodup
  decide

theorem hashedText_form {entry : BaseAuditEntry}
    (served : serialize js (.obj entry.fields) = .ok text) :
    ∃ form, (Live.obj entry.fields).canonical js = some form ∧
      hashedText js entry = form.text js := by
  have same := serialize_canonical js (.obj entry.fields)
  rw [served] at same
  cases found : (Live.obj entry.fields).canonical js with
  | none =>
    rw [found] at same
    cases same
  | some form =>
    rw [found] at same
    refine ⟨form, rfl, ?_⟩
    rw [hashedText, served]
    exact Option.some.inj same

theorem metadata_form (written : metadataColumn metadata = some column)
    (served : metadata ≠ .undefined → ∃ form, metadata.canonical js = some form)
    (distinct : metadata.Distinct) :
    (metadata = .undefined ↔ metadataLive column = .undefined) ∧
      (metadata.canonical js = (metadataLive column).canonical js ↔
        metadata.Kept js) := by
  by_cases omitted : metadata = .undefined
  · subst omitted
    cases written
    exact ⟨by simp [metadataLive], by simp [metadataLive, Live.Kept]⟩
  · obtain ⟨form, found⟩ := served omitted
    rw [metadataColumn] at written
    · obtain ⟨json, writes, rfl⟩ := Option.map_eq_some_iff.mp written
      refine ⟨⟨fun other => absurd other omitted,
        fun other => (json.live_defined other).elim⟩, ?_⟩
      rw [kept_iff metadata found distinct, found, metadataLive, writes]
      simp [eq_comm]
    · exact omitted

theorem row_text_iff (numbers : NumberTexts js) (column : entryToRow entry = some row)
    (wellFormed : toWellFormed entry.prevHash = entry.prevHash)
    (served : serialize js (.obj entry.fields) = .ok text)
    (distinct : entry.metadata.Distinct) :
    hashedText js (rowToEntry row).toBaseAuditEntry =
        hashedText js entry.toBaseAuditEntry ↔
      toWellFormed entry.action = entry.action ∧
        toWellFormed entry.target = entry.target ∧ entry.metadata.Kept js := by
  obtain ⟨form, found, shown⟩ := hashedText_form js served
  obtain ⟨text', served'⟩ := row_serializes js row
  obtain ⟨form', found', shown'⟩ := hashedText_form js served'
  obtain ⟨metadata, written, rfl⟩ := entryToRow_some column
  have defined : entry.metadata ≠ .undefined →
      ∃ form, entry.metadata.canonical js = some form := by
    rw [Live.canonical] at found
    obtain ⟨forms, each, -⟩ := Option.map_eq_some_iff.mp found
    exact @canonicalFields_member js _ _ (ascii "metadata", entry.metadata) each
      (by simp [BaseAuditEntry.fields])
  obtain ⟨omission, kept⟩ := metadata_form js written defined distinct
  have same := object_same (by
    simp only [BaseAuditEntry.fields, rowToEntry, List.forall₂_cons, SameShape,
      List.forall₂_nil_left_iff, reduceCtorEq, omission, and_self])
    (fields_nodup _) found found'
  have texts : form'.text js = form.text js ↔ form = form' :=
    ⟨fun equal => (text_injective numbers equal).symm, fun equal => by rw [equal]⟩
  rw [shown, shown', texts, same]
  simp only [BaseAuditEntry.fields, rowToEntry, List.forall₂_cons, SameForm,
    List.forall₂_nil_left_iff, and_true, true_and, kept, wellFormed, Live.canonical,
    Option.some.injEq, Json.str.injEq]
  constructor
  · rintro ⟨action, target, metadata⟩
    exact ⟨action.symm, target.symm, metadata⟩
  · rintro ⟨action, target, metadata⟩
    exact ⟨action.symm, target.symm, metadata⟩

structure Numbered (first : Nat) (rows : List AuditRow) : Prop where
  seqs : rows.map AuditRow.seq = List.range' first rows.length
  hashes : ∀ row ∈ rows, toWellFormed row.hash = row.hash

variable {first : Nat}

theorem Numbered.bounds (numbered : Numbered first rows) (member : row ∈ rows) :
    first ≤ row.seq ∧ row.seq < first + rows.length := by
  have listed : row.seq ∈ rows.map AuditRow.seq :=
    List.mem_map_of_mem (f := AuditRow.seq) member
  rw [numbered.seqs, List.mem_range'_1] at listed
  exact listed

theorem Numbered.latest (numbered : Numbered first rows) (ends : rows.getLast? = some last) :
    last.seq + 1 = first + rows.length := by
  obtain ⟨before, rfl⟩ := List.getLast?_eq_some_iff.mp ends
  have seqs := numbered.seqs
  rw [List.map_append, List.length_append, List.length_singleton,
    List.range'_concat] at seqs
  have tails := List.append_inj_right seqs (by simp)
  simp only [List.map_cons, List.map_nil, List.cons.injEq, and_true] at tails
  rw [List.length_append, List.length_singleton]
  omega

theorem Numbered.concat (numbered : Numbered first rows)
    (next : row.seq = first + rows.length) (hash : toWellFormed row.hash = row.hash) :
    Numbered first (rows ++ [row]) := by
  constructor
  · rw [List.map_append, numbered.seqs, List.length_append, List.length_singleton,
      List.range'_concat, List.map_cons, next]
    simp
  · intro other member
    rcases List.mem_append.mp member with before | here
    · exact numbered.hashes other before
    · rw [List.mem_singleton.mp here]
      exact hash

def tipHash (prevHash : JsText) (rows : List AuditRow) : JsText :=
  (rows.getLast?.map AuditRow.hash).getD prevHash

theorem linked_concat : Linked js prevHash (rows ++ [row]) ↔
      Linked js prevHash rows ∧ row.prevHash = tipHash prevHash rows ∧
        row.hash = rowHash js row := by
  induction rows generalizing prevHash with
  | nil => simp [Linked, tipHash]
  | cons first rest ih =>
    have tip : tipHash prevHash (first :: rest) = tipHash first.hash rest := by
      cases rest <;> simp [tipHash, List.getLast?_cons]
    rw [List.cons_append, Linked, ih, Linked, tip]
    simp only [and_assoc]

variable {now : Rat} {input : AuditEntryInput} {stored : StoredAuditEntry}

theorem appendOnce_ok (appended : appendOnce js now input table = .ok (stored, final))
    (numbered : Numbered first table.rows) :
    ∃ row, final.rows = table.rows ++ [row] ∧ entryToRow stored = some row ∧
      stored.toBaseAuditEntry = nextEntry table.latest now input ∧
      stored.hash = digest (hashedText js stored.toBaseAuditEntry) ∧
      ∃ text, serialize js (.obj stored.fields) = .ok text := by
  rw [appendOnce, sealEntry] at appended
  cases hashed : computeAuditHash js (nextEntry table.latest now input) with
  | error =>
    rw [hashed] at appended
    cases appended
  | ok hash =>
    rw [hashed] at appended
    obtain ⟨digested, serves⟩ := computeAuditHash_text js hashed
    cases inserted : table.insert ⟨nextEntry table.latest now input, hash⟩ with
    | error =>
      simp only [Except.mapError, bind, Except.bind, pure, Except.pure,
        inserted] at appended
      cases appended
    | ok =>
      simp only [Except.mapError, bind, Except.bind, pure, Except.pure, inserted,
        Except.ok.injEq, Prod.mk.injEq] at appended
      obtain ⟨rfl, rfl⟩ := appended
      have newest : ∀ row ∈ table.rows,
          row.seq < (nextEntry table.latest now input).seq := by
        intro row member
        cases ends : table.rows.getLast? with
        | none =>
          rw [List.getLast?_eq_none_iff.mp ends] at member
          cases member
        | some =>
          have latest := numbered.latest ends
          have bounds := numbered.bounds member
          simp only [nextEntry, AuditTable.latest, ends, Option.map_some,
            Option.getD_some, rowToEntry]
          omega
      obtain ⟨row, column, rows⟩ := insert_ok inserted newest
      exact ⟨row, rows, column, rfl, digested, serves⟩

/-- Texts of which no two different ones have the same digest. -/
def TextsDiffer (texts : List JsText) : Prop :=
  ∀ first ∈ texts, ∀ second ∈ texts,
    sha256 (utf8 first) = sha256 (utf8 second) → first = second

theorem TextsDiffer.of_settled
    (differ : ∀ first ∈ texts, ∀ second ∈ texts, settledSha256 (utf8 first) =
      settledSha256 (utf8 second) → first = second) :
    TextsDiffer texts := by
  intro first member second member' same
  rw [sha256_settled, sha256_settled] at same
  exact differ first member second member' same

theorem TextsDiffer.of_all_same (same : ∀ other ∈ texts, other = text) :
    TextsDiffer texts := by
  intro first member second member' _
  rw [same first member, same second member']

/-- The texts `appendAll` hashes. -/
def appendTexts : List (AuditEntryInput × Rat) → AuditTable → List JsText
  | [], _ => []
  | (input, now) :: rest, table =>
    hashedText js (nextEntry table.latest now input) ::
      match appendOnce js now input table with
      | .ok (_, table) => appendTexts rest table
      | .error _ => []

theorem appendTexts_ok {rest : List (AuditEntryInput × Rat)}
    (appended : appendOnce js now input table = .ok (stored, table')) :
    appendTexts js ((input, now) :: rest) table =
      hashedText js (nextEntry table.latest now input) :: appendTexts js rest table' := by
  change hashedText js (nextEntry table.latest now input) ::
    (match appendOnce js now input table with
      | .ok (_, table) => appendTexts js rest table
      | .error _ => []) = _
  rw [appended]

/-- The texts `verifyAuditChain` hashes again. -/
def tableTexts (table : AuditTable) : List JsText :=
  table.rows.map fun row => hashedText js (rowToEntry row).toBaseAuditEntry

theorem latest_hash (table : AuditTable) (now : Rat) (input : AuditEntryInput) :
    (nextEntry table.latest now input).prevHash =
      tipHash GENESIS_PREV_HASH table.rows := by
  rw [nextEntry, AuditTable.latest, tipHash]
  cases table.rows.getLast? <;> rfl

theorem tipHash_wellFormed (hashes : ∀ row ∈ rows, toWellFormed row.hash = row.hash) :
    toWellFormed (tipHash GENESIS_PREV_HASH rows) =
      tipHash GENESIS_PREV_HASH rows := by
  cases ends : rows.getLast? with
  | none =>
    rw [tipHash, ends]
    exact toWellFormed_genesis
  | some last =>
    rw [tipHash, ends]
    exact hashes last (List.mem_of_getLast? ends)

/-- What a row is hashed to again is what was hashed, exactly for a faithful
input. -/
theorem appended_text_iff (numbers : NumberTexts js)
    (base : stored.toBaseAuditEntry = nextEntry table.latest now input)
    (served : serialize js (.obj stored.fields) = .ok text)
    (column : entryToRow stored = some row) (numbered : Numbered first table.rows)
    (distinct : input.metadata.Distinct) :
    hashedText js (rowToEntry row).toBaseAuditEntry =
        hashedText js (nextEntry table.latest now input) ↔ Faithful js input := by
  have metadata : stored.metadata = input.metadata := by
    rw [base]
    rfl
  have prev : toWellFormed stored.prevHash = stored.prevHash := by
    rw [base, latest_hash]
    exact tipHash_wellFormed numbered.hashes
  have faithful := row_text_iff js numbers column prev served
    (by rw [metadata]; exact distinct)
  rw [metadata, show stored.action = input.action by rw [base]; rfl,
    show stored.target = input.target by rw [base]; rfl, base] at faithful
  exact faithful

/-- One append adds one row at the end, which the walk accepts if the input is
faithful. -/
theorem append_step (numbers : NumberTexts js)
    (appended : appendOnce js now input table = .ok (stored, final))
    (numbered : Numbered first table.rows) (start : table.rows = [] → first = 1)
    (distinct : input.metadata.Distinct) :
    ∃ row, final.rows = table.rows ++ [row] ∧ entryToRow stored = some row ∧
      Numbered first final.rows ∧ (hashedText js (rowToEntry row).toBaseAuditEntry =
        hashedText js (nextEntry table.latest now input) ↔ Faithful js input) ∧
      (Linked js GENESIS_PREV_HASH final.rows ↔
        Linked js GENESIS_PREV_HASH table.rows ∧
          digest (hashedText js (nextEntry table.latest now input)) =
            digest (hashedText js (rowToEntry row).toBaseAuditEntry)) := by
  obtain ⟨row, rows, column, base, digested, text, served⟩ :=
    appendOnce_ok js appended numbered
  have tip := latest_hash table now input
  obtain ⟨prevColumn, hashColumn⟩ := entryToRow_hashes column
  have hash : row.hash = digest (hashedText js (nextEntry table.latest now input)) := by
    rw [hashColumn, digested, toWellFormed_digest, base]
  have linked : row.prevHash = tipHash GENESIS_PREV_HASH table.rows := by
    rw [prevColumn, base, tip]
    exact tipHash_wellFormed numbered.hashes
  have seq : row.seq = first + table.rows.length := by
    rw [entryToRow_seq column, base, nextEntry, AuditTable.latest]
    cases ends : table.rows.getLast? with
    | none =>
      have bare := List.getLast?_eq_none_iff.mp ends
      rw [start bare, bare]
      rfl
    | some =>
      have latest := numbered.latest ends
      simp only [Option.map_some, Option.getD_some, rowToEntry]
      omega
  refine ⟨row, rows, column, ?_,
    appended_text_iff js numbers base served column numbered distinct, ?_⟩
  · rw [rows]
    refine numbered.concat seq ?_
    rw [hash]
    exact toWellFormed_digest _
  · rewrite [rows, linked_concat, hash]
    exact ⟨fun whole => ⟨whole.1, whole.2.2⟩, fun both => ⟨both.1, linked, both.2⟩⟩

theorem appendAll_linked (numbers : NumberTexts js)
    (accepted : appendAll js appends table = .ok final) (numbered : Numbered 1 table.rows)
    (distinct : ∀ append ∈ appends, append.1.metadata.Distinct)
    (free : TextsDiffer (appendTexts js appends table ++ tableTexts js final)) :
    (∃ added, final.rows = table.rows ++ added ∧ added.length = appends.length) ∧
      Numbered 1 final.rows ∧ (Linked js GENESIS_PREV_HASH final.rows ↔
        Linked js GENESIS_PREV_HASH table.rows ∧
          ∀ append ∈ appends, Faithful js append.1) := by
  induction appends generalizing table with
  | nil =>
    cases accepted
    exact ⟨⟨[], by simp⟩, numbered, by simp⟩
  | cons append _ ih =>
    obtain ⟨input, now⟩ := append
    rw [appendAll] at accepted
    cases appended : appendOnce js now input table with
    | error =>
      rw [appended] at accepted
      cases accepted
    | ok result =>
      obtain ⟨stored, table'⟩ := result
      rw [appended] at accepted
      obtain ⟨row, rows, -, numbered', faithful, step⟩ :=
        append_step js numbers appended numbered (fun _ => rfl)
          (distinct (input, now) List.mem_cons_self)
      rw [appendTexts_ok js appended] at free
      obtain ⟨⟨added, whole, size⟩, numbered'', linked⟩ := ih accepted numbered'
        (fun later member => distinct later (List.mem_cons_of_mem _ member))
        (fun first member second member' => free first
          (List.mem_cons_of_mem _ member) second
          (List.mem_cons_of_mem _ member'))
      refine ⟨⟨row :: added, by rw [whole, rows]; simp, by simp [size]⟩,
        numbered'', ?_⟩
      have stored' : hashedText js (rowToEntry row).toBaseAuditEntry ∈
          tableTexts js final := by
        refine List.mem_map_of_mem ?_
        rw [whole, rows]
        simp
      rewrite [linked, step]
      simp only [List.forall_mem_cons]
      constructor
      · rintro ⟨⟨before, digests⟩, others⟩
        refine ⟨before, faithful.mp ?_, others⟩
        exact (free _ List.mem_cons_self _
          (List.mem_cons_of_mem _ (List.mem_append_right _ stored'))
          (digest_cancel digests)).symm
      · rintro ⟨before, kept, others⟩
        exact ⟨⟨before, by rw [faithful.mpr kept]⟩, others⟩

/-- A log that accepted these appends verifies exactly when every input is
faithful. -/
theorem stored_chain_verifies_iff (numbers : NumberTexts js)
    (appends : List (AuditEntryInput × Rat)) (final : AuditTable)
    (accepted : appendAll js appends .empty = .ok final)
    (few : (appends.length : Int) ≤ AuditTable.maxSafeInteger)
    (distinct : ∀ append ∈ appends, append.1.metadata.Distinct)
    (free : TextsDiffer (appendTexts js appends .empty ++ tableTexts js final)) :
    verifyAuditChain js final none none = .ok (.ok appends.length) ↔
      ∀ append ∈ appends, Faithful js append.1 := by
  obtain ⟨⟨added, rows, size⟩, numbered, linked⟩ := appendAll_linked js numbers
    accepted ⟨rfl, by simp [AuditTable.empty]⟩ distinct free
  have count : final.rows.length = appends.length := by
    rw [rows, ← size]
    rfl
  rw [← count, verifyAuditChain_linked, linked]
  · simp [AuditTable.empty, Linked]
  · intro row member
    have bounds := numbered.bounds member
    rw [count] at bounds
    omega

def secretRead (metadata : Live) : AuditEntryInput where
  actor := ⟨.agent, ascii "planner", none⟩
  action := ascii "secret:get"
  target := ascii "api-key"
  decision := .success
  context := none
  metadata := metadata
  ts := some 1700000000000

/-- `{ attempts: 3 }`. -/
def countedRead : List (AuditEntryInput × Rat) :=
  [(secretRead (.obj [(ascii "attempts", .num 3)]), 0)]

/-- `{ at: new Date(1700000000000) }`: no members of its own, and a `toJSON`. -/
def datedRead : List (AuditEntryInput × Rat) :=
  [(secretRead (.obj [(ascii "at",
    .objAs [] (some (.str (ascii "2023-11-14T22:13:20.000Z"))))]), 0)]

def readLog (appends : List (AuditEntryInput × Rat)) : AuditTable :=
  (appendAll plainRuntime appends .empty).toOption.getD .empty

theorem readLog_accepted {appends : List (AuditEntryInput × Rat)}
    (accepted : (appendAll plainRuntime appends .empty).toOption.isSome = true) :
    appendAll plainRuntime appends .empty = .ok (readLog appends) := by
  unfold readLog
  cases appended : appendAll plainRuntime appends .empty with
  | error =>
    rw [appended] at accepted
    cases accepted
  | ok => rfl

theorem counted_read_verifies :
    verifyAuditChain plainRuntime (readLog countedRead) none none =
      .ok (.ok countedRead.length) := by
  have one : ∀ text ∈ appendTexts plainRuntime countedRead .empty ++
      tableTexts plainRuntime (readLog countedRead),
      text = (appendTexts plainRuntime countedRead .empty).headD [] := by
    set_option maxRecDepth 20000 in decide
  refine (stored_chain_verifies_iff plainRuntime plain_numbers countedRead
    (readLog countedRead) (readLog_accepted (by decide)) (by decide) ?_
    (.of_all_same one)).mpr ?_
  · intro append member
    obtain rfl := List.mem_singleton.mp member
    simp [secretRead, Live.Distinct, Live.DistinctFields]
  · intro append member
    obtain rfl := List.mem_singleton.mp member
    refine ⟨by decide, by decide, ?_⟩
    simp [secretRead, Live.Kept, Live.KeptFields]

theorem dated_read_breaks : ¬ ∀ (appends : List (AuditEntryInput × Rat))
    (final : AuditTable), appendAll plainRuntime appends .empty = .ok final →
      verifyAuditChain plainRuntime final none none = .ok (.ok appends.length) := by
  intro verifies
  have accepted := @readLog_accepted datedRead (by decide)
  have holds := verifies datedRead (readLog datedRead) accepted
  have total : datedRead.length = (readLog datedRead).rows.length := by decide
  have distinct : ∀ append ∈ datedRead, append.1.metadata.Distinct := by
    intro append member
    obtain rfl := List.mem_singleton.mp member
    simp [secretRead, Live.Distinct, Live.DistinctFields]
  rw [total, verifyAuditChain_linked plainRuntime (by decide)] at holds
  have faithful := (appendAll_linked plainRuntime plain_numbers accepted
    ⟨rfl, by simp [AuditTable.empty]⟩ distinct
    (.of_settled (by set_option maxRecDepth 20000 in decide))).2.2.mp holds
  obtain ⟨-, -, kept⟩ := faithful.2 _ (List.mem_singleton_self _)
  simp [secretRead, Live.Kept, Live.KeptFields] at kept
  simp [Json.live, Live.canonical, Live.canonicalFields] at kept

end Graphorin.Audit
