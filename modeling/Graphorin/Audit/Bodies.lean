import Graphorin.Audit.Interleaving

namespace Graphorin.Audit

open Graphorin.Js Graphorin.Lib

/-! The two transactions, each run alone on an intact chain. -/

variable {κ : Type} (js : Runtime)

/-- Different texts in use have different digests. -/
def Apart (used : JsText → Prop) : Prop :=
  ∀ first second, used first → used second →
    sha256 (utf8 first) = sha256 (utf8 second) → first = second

theorem hashedText_seq (numbers : NumberTexts js)
    (served : serialize js (.obj first.fields) = .ok text)
    (served' : serialize js (.obj second.fields) = .ok text')
    (same : hashedText js first = hashedText js second) :
    first.seq = second.seq := by
  have member : ∀ {entry : BaseAuditEntry} {form : Json},
      (Live.obj entry.fields).canonical js = some form →
      ∃ members, form = .obj members ∧ (members.map Prod.fst).Nodup ∧
        (ascii "seq", Json.num entry.seq) ∈ members := by
    intro entry form found
    rw [Live.canonical] at found
    obtain ⟨members, each, rfl⟩ := Option.map_eq_some_iff.mp found
    have sorted := List.perm_insertionSort (fun first second : JsText × Json =>
      keyBefore js first.1 second.1 = true) members
    refine ⟨_, rfl, (sorted.map Prod.fst).nodup_iff.mpr
      ((fields_nodup entry).sublist (canonicalFields_keys each)), ?_⟩
    rw [sortFields, sorted.mem_iff]
    obtain ⟨number, others, head, -, rfl⟩ :=
      (canonicalFields_cons (by simp)).mp each
    cases head
    exact List.mem_cons_self
  obtain ⟨form, found, shown⟩ := hashedText_form js served
  obtain ⟨form', found', shown'⟩ := hashedText_form js served'
  obtain rfl : form = form' := text_injective numbers (by rw [← shown, same, shown'])
  obtain ⟨members, rfl, nodup, here⟩ := member found
  obtain ⟨members', shape, -, here'⟩ := member found'
  cases shape
  have equal := List.inj_on_of_nodup_map nodup here here' rfl
  simpa using equal

/-- An input that can be hashed, and is stored as it is hashed. -/
structure Appendable (input : AuditEntryInput) : Prop where
  faithful : Faithful js input
  distinct : input.metadata.Distinct
  served : input.metadata = .undefined ∨
    ∃ text, serialize js input.metadata = .ok text

theorem metadata_column (distinct : metadata.Distinct) (kept : metadata.Kept js)
    (served : metadata = .undefined ∨ ∃ text, serialize js metadata = .ok text) :
    ∃ column, metadataColumn metadata = some column := by
  by_cases omitted : metadata = .undefined
  · subst omitted
    exact ⟨none, rfl⟩
  · obtain ⟨text, told⟩ := served.resolve_left omitted
    have same := serialize_canonical js metadata
    rw [told] at same
    obtain ⟨form, found, -⟩ := Option.map_eq_some_iff.mp same.symm
    obtain ⟨json, written, -⟩ := (kept_iff metadata found distinct).mp kept
    refine ⟨some json, ?_⟩
    rw [metadataColumn, written]
    · rfl
    · exact omitted

theorem sealEntry_ok (appendable : Appendable js input) (last : Option StoredAuditEntry)
    (now : Rat) : ∃ stored row, sealEntry js last now input = .ok stored ∧
      stored.toBaseAuditEntry = nextEntry last now input ∧
      entryToRow stored = some row ∧
      row.hash = digest (hashedText js (nextEntry last now input)) ∧
      ∃ text, serialize js (.obj (nextEntry last now input).fields) = .ok text := by
  obtain ⟨text, served⟩ := serialize_obj_ok js (entry_fields_serialize js
    (show (nextEntry last now input).metadata = .undefined ∨ _ from appendable.served))
  have hashed : computeAuditHash js (nextEntry last now input) =
      .ok (digest (hashedText js (nextEntry last now input))) := by
    simp only [computeAuditHash, canonicalJson, hashedText, served]
    rfl
  obtain ⟨column, written⟩ := metadata_column js appendable.distinct
    appendable.faithful.2.2 appendable.served
  obtain ⟨stored, made⟩ : ∃ stored : StoredAuditEntry, stored =
      ⟨nextEntry last now input, digest (hashedText js (nextEntry last now input))⟩ :=
    ⟨_, rfl⟩
  have base : stored.toBaseAuditEntry = nextEntry last now input := by rw [made]
  have sealed : stored.hash = digest (hashedText js (nextEntry last now input)) := by
    rw [made]
  have own : stored.metadata = input.metadata := by
    rw [base]
    rfl
  obtain ⟨row, stores⟩ : ∃ row, entryToRow stored = some row := by
    rw [entryToRow, own, written]
    exact ⟨_, rfl⟩
  have hash : row.hash = digest (hashedText js (nextEntry last now input)) := by
    rw [(entryToRow_hashes stores).2, sealed]
    exact toWellFormed_digest _
  refine ⟨stored, row, ?_, base, stores, hash, text, served⟩
  rw [sealEntry, hashed, made]
  rfl

theorem linked_hash (linked : Linked js prevHash rows) (member : row ∈ rows) :
    row.hash = rowHash js row := by
  induction rows generalizing prevHash with
  | nil => cases member
  | cons first rest ih =>
    rcases List.mem_cons.mp member with rfl | later
    · exact linked.2.1
    · exact ih linked.2.2 later

theorem seq_le_tip (member : row ∈ contents.table.rows) : row.seq ≤ tip contents := by
  cases ends : contents.table.rows.getLast? with
  | none =>
    rw [List.getLast?_eq_none_iff.mp ends] at member
    cases member
  | some =>
    rw [tip, ends]
    exact AuditTable.le_latest contents.table.ordered ends member

theorem Intact.bounds (intact : Intact js used contents) : ∀ row ∈ contents.table.rows,
      1 ≤ row.seq ∧ (row.seq : Int) ≤ AuditTable.maxSafeInteger := by
  intro row member
  obtain ⟨first, positive, numbered⟩ := intact.numbered
  have lower := numbered.bounds member
  have upper := seq_le_tip member
  have small := intact.small
  omega

theorem next_seq (contents : Contents κ) (now : Rat) (input : AuditEntryInput) :
    (nextEntry contents.table.latest now input).seq = tip contents + 1 := by
  rw [nextEntry, AuditTable.latest, tip]
  cases contents.table.rows.getLast? <;> rfl

section Body

variable {used : JsText → Prop} (numbers : NumberTexts js) (apart : Apart used)

include numbers apart

variable {now : Rat} {input : AuditEntryInput}

theorem insert_fits (intact : Intact js used contents)
    (base : stored.toBaseAuditEntry = nextEntry contents.table.latest now input)
    (column : entryToRow stored = some row)
    (hash : row.hash = digest (hashedText js (nextEntry contents.table.latest now input)))
    (served : serialize js (.obj (nextEntry contents.table.latest now input).fields) = .ok text)
    (fresh : used (hashedText js (nextEntry contents.table.latest now input))) :
    ∃ final, contents.table.insert stored = .ok final := by
  have seq : row.seq = tip contents + 1 := by
    rw [entryToRow_seq column, base, next_seq]
  have unused : ¬ ∃ other ∈ contents.table.rows, other.seq = row.seq := by
    rintro ⟨other, member, same⟩
    have below := seq_le_tip member
    omega
  have unique : ¬ ∃ other ∈ contents.table.rows, other.hash = row.hash := by
    rintro ⟨other, member, same⟩
    rw [linked_hash js intact.linked member, hash, rowHash] at same
    have texts := apart _ _ (intact.texts other member) fresh (digest_cancel same)
    obtain ⟨text', served'⟩ := row_serializes js other
    have seqs := hashedText_seq js numbers served' served texts
    rw [next_seq] at seqs
    have below := seq_le_tip member
    simp only [rowToEntry] at seqs
    omega
  rw [AuditTable.insert, column]
  simp only [if_neg unused, dif_neg unique]
  exact ⟨_, rfl⟩

structure Appended (input : AuditEntryInput) (now : Rat) (earlier : Nat)
    (stored : StoredAuditEntry) (contents : Contents κ) : Prop where
  records : ∃ last, stored.toBaseAuditEntry = nextEntry last now input
  accounted : Accounted stored contents
  tip : tip contents = earlier + 1

omit apart in
theorem append_ends {saved : Contents κ} {stored : StoredAuditEntry} {final : AuditTable}
    (appendable : Appendable js input) (intact : Intact js used saved)
    (small : (tip saved + 1 : Int) ≤ AuditTable.maxSafeInteger)
    (appended : appendOnce js now input saved.table = .ok (stored, final))
    (base : stored.toBaseAuditEntry = nextEntry saved.table.latest now input)
    (fresh : used (hashedText js (nextEntry saved.table.latest now input))) :
    Ends js used .appends saved (Appended input now (tip saved)) (.ok stored)
      ⟨final, saved.deletions⟩ := by
  obtain ⟨first, positive, numbered, start⟩ : ∃ first, 1 ≤ first ∧
      Numbered first saved.table.rows ∧ (saved.table.rows = [] → first = 1) := by
    obtain ⟨first, positive, numbered⟩ := intact.numbered
    by_cases bare : saved.table.rows = []
    · refine ⟨1, Nat.le_refl 1, ?_, fun _ => rfl⟩
      rw [bare]
      exact ⟨rfl, by simp⟩
    · exact ⟨first, positive, numbered, fun other => absurd other bare⟩
  obtain ⟨row, rows, column, numbered', faithful, linked⟩ :=
    append_step js numbers appended numbered start appendable.distinct
  have text := faithful.mpr appendable.faithful
  have newest : tip (⟨final, saved.deletions⟩ : Contents κ) = tip saved + 1 := by
    rw [tip, rows, List.getLast?_concat, Option.map_some, Option.getD_some,
      entryToRow_seq column, base, next_seq]
  refine ⟨⟨⟨first, positive, numbered'⟩, ?_, ?_, ?_⟩, ⟨?_, ?_⟩, ⟨_, base⟩, ?_, newest⟩
  · exact linked.mpr ⟨intact.linked, by rw [text]⟩
  · intro other member
    rw [rows] at member
    rcases List.mem_append.mp member with before | here
    · exact intact.texts other before
    · rw [List.mem_singleton.mp here, text]
      exact fresh
  · rw [newest]
    push_cast
    exact small
  · rintro entry (⟨other, member, same⟩ | deleted)
    · exact .inl ⟨other, by rw [rows]; exact List.mem_append_left _ member, same⟩
    · exact .inr deleted
  · exact fun other => absurd rfl other
  · exact .inl ⟨row, by rw [rows]; simp, by rw [column]; rfl⟩

theorem solo_append (appendable : Appendable js input) (intact : Intact js used saved)
    (small : (tip saved + 1 : Int) ≤ AuditTable.maxSafeInteger) :
    Solo js used .appends saved
      (Ends js used .appends saved (Appended input now (tip saved)))
      (appendStatements js now input) saved := by
  obtain ⟨stored, row, sealed, base, column, hash, text, served⟩ :=
    sealEntry_ok js appendable saved.table.latest now
  refine ⟨rfl, fun _ => ?_⟩
  dsimp only [Connection.execute, inside]
  rw [sealed]
  refine ⟨rfl, fun fresh => ?_⟩
  obtain ⟨final, inserted⟩ := insert_fits js numbers apart intact base column hash
    served (base ▸ fresh)
  have stores : Connection.execute (.insert stored) (inside .appends saved saved) =
      (.ok (), inside .appends saved ⟨final, saved.deletions⟩) := by
    simp only [Connection.execute, inside, inserted, Connection.change,
      Connection.withTable]
    rfl
  rw [stores]
  have once : appendOnce js now input saved.table = .ok (stored, final) := by
    rw [appendOnce, sealed]
    simp only [bind, Except.bind, inserted, Except.mapError, pure, Except.pure]
  exact append_ends js numbers appendable intact small once base (base ▸ fresh)

end Body

@[simp] theorem AuditRow.data_seq (row : AuditRow) : row.data.seq = row.seq := rfl

theorem seqs_of_data {rows others : List AuditRow}
    (same : rows.map AuditRow.data = others.map AuditRow.data) :
    rows.map AuditRow.seq = others.map AuditRow.seq := by
  have seqs := congrArg (List.map AuditRow.seq) same
  simpa [List.map_map, Function.comp_def] using seqs

/-- Dropping the oldest rows leaves no gap. -/
theorem Numbered.above (numbered : Numbered first rows) (threshold : Int) :
    ∃ later, first ≤ later ∧
      Numbered later (rows.filter fun row => ¬ row.seq ≤ threshold) := by
  induction rows generalizing first with
  | nil => exact ⟨first, Nat.le_refl first, numbered⟩
  | cons row rest ih =>
    have seqs := numbered.seqs
    rw [List.map_cons, List.length_cons, List.range'_succ] at seqs
    obtain ⟨head, tail⟩ := List.cons.inj seqs
    have rest' : Numbered (first + 1) rest :=
      ⟨tail, fun other member => numbered.hashes other (List.mem_cons_of_mem _ member)⟩
    by_cases low : (row.seq : Int) ≤ threshold
    · obtain ⟨later, above, holds⟩ := ih rest'
      refine ⟨later, by omega, ?_⟩
      rw [List.filter_cons_of_neg (by simpa using low)]
      exact holds
    · refine ⟨first, Nat.le_refl first, ?_⟩
      rw [List.filter_eq_self.mpr]
      · exact numbered
      · intro other member
        have bounds := numbered.bounds member
        simp only [decide_eq_true_eq]
        omega

theorem lastQualifying_found (positive : 1 ≤ retain)
    (counted : total = walked + entries.length)
    (result : lastQualifying beforeMs total retain entries walked found = some seq) :
    found = some seq ∨ ∃ before entry after, entries = before ++ entry :: after ∧
      entry.seq = seq ∧ after ≠ [] := by
  induction entries generalizing walked found with
  | nil => exact .inl result
  | cons entry rest ih =>
    rw [lastQualifying] at result
    split at result
    · exact .inl result
    · split at result
      · exact .inl result
      · rename_i enough
        rw [List.length_cons] at counted
        rcases ih (by omega) result with here | ⟨before, other, after, rfl, same, more⟩
        · refine .inr ⟨[], entry, rest, rfl, Option.some.inj here, ?_⟩
          rintro rfl
          apply enough
          rw [counted, List.length_nil, Nat.zero_add]
          grind
        · exact .inr ⟨entry :: before, other, after, rfl, same, more⟩

/-- How far the rewrite has come: `done` is chained anew, `todo` still as it
was. -/
structure Rewriting (used : JsText → Prop) (start : Contents κ)
    (done todo : List AuditRow) (contents : Contents κ) : Prop where
  rows : contents.table.rows = done ++ todo
  data : (done ++ todo).map AuditRow.data = start.table.rows.map AuditRow.data
  linked : Linked js GENESIS_PREV_HASH done
  texts : ∀ row ∈ done, used (hashedText js (rowToEntry row).toBaseAuditEntry)
  hashes : ∀ row ∈ done ++ todo, toWellFormed row.hash = row.hash
  deletions : contents.deletions = start.deletions

def rehashed (entry : StoredAuditEntry) (row : AuditRow) : AuditRow :=
  { row with
    prevHash := toWellFormed entry.prevHash
    hash := toWellFormed entry.hash }

theorem map_replaced (same : entry.seq = row.seq)
    (ordered : (before ++ row :: after).Pairwise fun first second => first.seq < second.seq) :
    (before ++ row :: after).map (AuditTable.replaced entry) =
      before ++ rehashed entry row :: after := by
  have elsewhere : ∀ other : AuditRow, other.seq ≠ entry.seq →
      AuditTable.replaced entry other = other := fun other apart => if_neg apart
  obtain ⟨-, rest, below⟩ := List.pairwise_append.mp ordered
  have unchanged : ∀ {others : List AuditRow},
      (∀ other ∈ others, other.seq ≠ entry.seq) →
        others.map (AuditTable.replaced entry) = others := by
    intro others apart
    conv_rhs => rw [← List.map_id others]
    exact List.map_congr_left fun other member => elsewhere other (apart other member)
  have here : AuditTable.replaced entry row = rehashed entry row := if_pos same.symm
  rw [List.map_append, List.map_cons, here, unchanged, unchanged]
  · intro other member
    have := List.rel_of_pairwise_cons rest member
    omega
  · intro other member
    have := below other member row List.mem_cons_self
    omega

theorem withRehashedChain_row (row : AuditRow) (prevHash : JsText) :
    ∃ rewritten, withRehashedChain js (rowToEntry row) prevHash = .ok rewritten ∧
      rewritten.toBaseAuditEntry =
        { (rowToEntry row).toBaseAuditEntry with prevHash := prevHash } ∧
      rewritten.hash = digest (hashedText js rewritten.toBaseAuditEntry) := by
  have hashed := computeAuditHash_row js { row with prevHash := prevHash }
  have base : (rowToEntry { row with prevHash := prevHash }).toBaseAuditEntry =
      { (rowToEntry row).toBaseAuditEntry with prevHash := prevHash } := rfl
  refine ⟨⟨{ (rowToEntry row).toBaseAuditEntry with prevHash := prevHash },
    rowHash js { row with prevHash := prevHash }⟩, ?_, rfl, by rw [rowHash, base]⟩
  show (computeAuditHash js (rowToEntry
    { row with prevHash := prevHash }).toBaseAuditEntry).bind _ = _
  rw [hashed]
  rfl

theorem Rewriting.step {used : JsText → Prop} {start contents : Contents κ}
    {done todo : List AuditRow} {row : AuditRow} {rewritten : StoredAuditEntry}
    {final : AuditTable}
    (state : Rewriting js used start done (row :: todo) contents)
    (base : rewritten.toBaseAuditEntry = { (rowToEntry row).toBaseAuditEntry with
      prevHash := tipHash GENESIS_PREV_HASH done })
    (hash : rewritten.hash = digest (hashedText js rewritten.toBaseAuditEntry))
    (fresh : used (hashedText js rewritten.toBaseAuditEntry))
    (replaced : contents.table.replaceEntry rewritten = .ok final) :
    Rewriting js used start (done ++ [rehashed rewritten row]) todo
        ⟨final, contents.deletions⟩ ∧
      rewritten.hash = tipHash GENESIS_PREV_HASH (done ++ [rehashed rewritten row]) := by
  have seq : rewritten.seq = row.seq := by
    rw [base]
    rfl
  have ordered := contents.table.ordered
  rw [state.rows] at ordered
  have prev : toWellFormed rewritten.prevHash = tipHash GENESIS_PREV_HASH done := by
    rw [base]
    exact tipHash_wellFormed fun other member =>
      state.hashes other (List.mem_append_left _ member)
  have own : toWellFormed rewritten.hash = rewritten.hash := by
    rw [hash]
    exact toWellFormed_digest _
  have same : (rowToEntry (rehashed rewritten row)).toBaseAuditEntry =
      rewritten.toBaseAuditEntry := by
    rw [base, rehashed, prev]
    rfl
  have final' : final.rows = done ++ rehashed rewritten row :: todo := by
    rw [AuditTable.replaceEntry] at replaced
    split at replaced
    · cases replaced
    · cases replaced
      show List.map _ contents.table.rows = _
      rw [state.rows]
      exact map_replaced seq ordered
  refine ⟨⟨?_, ?_, ?_, ?_, ?_, state.deletions⟩, ?_⟩
  · rw [final', List.append_assoc]
    rfl
  · rw [← state.data]
    simp only [List.map_append, List.map_cons, List.map_nil, List.append_assoc]
    rfl
  · rw [linked_concat]
    refine ⟨state.linked, prev, ?_⟩
    rw [rowHash, same, ← hash]
    exact own
  · intro other member
    rcases List.mem_append.mp member with before | here
    · exact state.texts other before
    · rw [List.mem_singleton.mp here, same]
      exact fresh
  · intro other member
    rw [List.append_assoc, List.mem_append, List.mem_append,
      List.mem_singleton] at member
    rcases member with before | rfl | after
    · exact state.hashes other (List.mem_append_left _ before)
    · exact (congrArg toWellFormed own).trans rfl
    · exact state.hashes other
        (List.mem_append_right _ (List.mem_cons_of_mem _ after))
  · rw [tipHash, List.getLast?_concat]
    exact own.symm

section Rewrite

def Rewritten (used : JsText → Prop) (start : Contents κ) {α : Type}
    (done todo : List AuditRow) (reaches : List AuditRow → α → Prop) :
    Except AuditFailure α → Contents κ → Prop
  | .ok value, contents => ∃ done', Rewriting js used start done' todo contents ∧
      done'.map AuditRow.data = done.map AuditRow.data ∧ reaches done' value
  | .error _, _ => True

variable {used : JsText → Prop} {call : κ} {saved start : Contents κ}

variable {done todo : List AuditRow}

theorem solo_rewriteBatch (first : Option StoredAuditEntry)
    (state : Rewriting js used start done (batch ++ todo) contents) :
    Solo js used (.prune call) saved (Rewritten js used start (done ++ batch) todo
        fun done' reached => reached.1 = tipHash GENESIS_PREV_HASH done')
      (rewriteBatch js (batch.map rowToEntry) (tipHash GENESIS_PREV_HASH done) first)
      contents := by
  induction batch generalizing done contents first with
  | nil => exact ⟨done, state, by rw [List.append_nil], rfl⟩
  | cons row _ ih =>
    obtain ⟨rewritten, rehashes, base, hash⟩ :=
      withRehashedChain_row js row (tipHash GENESIS_PREV_HASH done)
    rw [List.map_cons, rewriteBatch, rehashes]
    refine ⟨rfl, fun fresh => ?_⟩
    cases replaced : contents.table.replaceEntry rewritten with
    | error error =>
      have throws : Connection.execute (.replaceEntry rewritten)
          (inside (.prune call) saved contents) =
          (.error (.table error), inside (.prune call) saved contents) := by
        simp only [Connection.execute, inside, replaced, Connection.change]
        rfl
      rw [throws]
      trivial
    | ok final =>
      have stores : Connection.execute (.replaceEntry rewritten)
          (inside (.prune call) saved contents) =
          (.ok (), inside (.prune call) saved ⟨final, contents.deletions⟩) := by
        simp only [Connection.execute, inside, replaced, Connection.change,
          Connection.withTable]
        rfl
      rw [stores]
      obtain ⟨state', reached⟩ := state.step js base hash fresh replaced
      have onwards := ih (first.orElse fun _ => some rewritten) state'
      rw [← reached] at onwards
      refine solo_mono js used ?_ onwards
      rintro (failure | value) contents' ends
      · trivial
      · obtain ⟨done', later, data, ends⟩ := ends
        refine ⟨done', later, data.trans ?_, ends⟩
        simp only [List.map_append, List.map_cons, List.map_nil, List.append_assoc]
        rfl

/-- The rows still to rewrite are those from `fromSeq` on. -/
structure Split (fromSeq : Int) (done todo : List AuditRow) : Prop where
  before : ∀ row ∈ done, (row.seq : Int) < fromSeq
  after : ∀ row ∈ todo, fromSeq ≤ row.seq
  small : ∀ row ∈ todo, (row.seq : Int) ≤ AuditTable.maxSafeInteger

variable {fromSeq : Int}

theorem iterate_split {table : AuditTable} (rows : table.rows = done ++ todo)
    (split : Split fromSeq done todo) :
    table.iterate (some fromSeq) none = todo.map rowToEntry := by
  rw [AuditTable.iterate, rows, List.filter_append, List.filter_eq_nil_iff.mpr,
    List.nil_append, List.filter_eq_self.mpr]
  · intro row member
    have lower := split.after row member
    have upper := split.small row member
    simp only [Option.getD_some, Option.getD_none, decide_eq_true_eq]
    exact ⟨lower, upper⟩
  · intro row member
    have below := split.before row member
    simp only [Option.getD_some, Option.getD_none, decide_eq_true_eq]
    omega

theorem split_next {done' batch : List AuditRow} {last : AuditRow}
    (split : Split fromSeq done (batch ++ todo))
    (data : done'.map AuditRow.data = (done ++ batch).map AuditRow.data)
    (ordered : (done ++ (batch ++ todo)).Pairwise fun first second => first.seq < second.seq)
    (ends : batch.getLast? = some last) : Split (last.seq + 1) done' todo := by
  obtain ⟨-, rest, below⟩ := List.pairwise_append.mp ordered
  obtain ⟨own, -, apart⟩ := List.pairwise_append.mp rest
  have member := List.mem_of_getLast? ends
  refine ⟨?_, ?_, fun row later => split.small row (List.mem_append_right _ later)⟩
  · intro row earlier
    have listed : row.seq ∈ done'.map AuditRow.seq :=
      List.mem_map_of_mem (f := AuditRow.seq) earlier
    rw [seqs_of_data data] at listed
    obtain ⟨other, found, same⟩ := List.mem_map.mp listed
    rcases List.mem_append.mp found with before | here
    · have := below other before last (List.mem_append_left _ member)
      omega
    · have := AuditTable.le_latest own ends here
      omega
  · intro row later
    have := apart last member row later
    omega

theorem solo_rewriteChain {turns : Nat} {contents : Contents κ}
    (first : Option StoredAuditEntry) (state : Rewriting js used start done todo contents)
    (split : Split fromSeq done todo) (enough : todo.length < turns) :
    Solo js used (.prune call) saved
      (Rewritten js used start (done ++ todo) [] fun _ _ => True)
      (rewriteChain js turns fromSeq (tipHash GENESIS_PREV_HASH done) first)
      contents := by
  induction turns generalizing fromSeq done todo contents first with
  | zero => omega
  | succ turns ih =>
    refine ⟨rfl, fun _ => ?_⟩
    have read : Connection.execute (.iterate (some fromSeq))
        (inside (.prune call) saved contents) =
        (todo.map rowToEntry, inside (.prune call) saved contents) := by
      simp only [Connection.execute, inside]
      rw [iterate_split state.rows split]
      rfl
    rw [read]
    dsimp only
    obtain ⟨batch, rest, taken, rfl⟩ : ∃ batch rest,
        List.take REWRITE_BATCH_SIZE todo = batch ∧ todo = batch ++ rest :=
      ⟨_, _, rfl, (List.take_append_drop _ todo).symm⟩
    rw [← List.map_take, taken, List.getLast?_map]
    cases ends : batch.getLast? with
    | none =>
      obtain rfl := List.getLast?_eq_none_iff.mp ends
      obtain rfl : rest = [] :=
        (List.take_eq_nil_iff.mp taken).resolve_left (by decide)
      exact ⟨done, state, by simp, trivial⟩
    | some last =>
      have nonempty : 0 < batch.length :=
        List.length_pos_of_mem (List.mem_of_getLast? ends)
      refine solo_bind js used (solo_mono js used ?_
        (solo_rewriteBatch js first state))
      rintro (failure | reached) contents' ends'
      · trivial
      · obtain ⟨done', state', data, reaches⟩ := ends'
        have ordered := contents.table.ordered
        rw [state.rows] at ordered
        rw [List.length_append] at enough
        have onwards := ih reached.2 state' (split_next split data ordered ends)
          (by omega)
        rw [← reaches] at onwards
        refine solo_mono js used ?_ onwards
        rintro (failure | value) final ends''
        · trivial
        · obtain ⟨done'', state'', data', -⟩ := ends''
          refine ⟨done'', state'', ?_, trivial⟩
          rw [data', List.map_append, data]
          simp only [List.map_append, List.append_assoc]

end Rewrite

variable {threshold : Int}

theorem deleteUpTo_last {table : AuditTable}
    (last : ∀ row, table.rows.getLast? = some row → threshold < row.seq) :
    (table.deleteUpTo threshold).rows.getLast? = table.rows.getLast? := by
  show (table.rows.filter _).getLast? = _
  cases ends : table.rows.getLast? with
  | none =>
    rw [List.getLast?_eq_none_iff.mp ends]
    rfl
  | some row =>
    have above := last row ends
    obtain ⟨before, whole⟩ := List.getLast?_eq_some_iff.mp ends
    rw [whole, List.filter_append, List.filter_cons_of_pos, List.filter_nil,
      List.getLast?_concat]
    simp only [decide_eq_true_eq]
    omega

variable {used : JsText → Prop} {call : κ} {saved contents : Contents κ}

/-- What a prune keeps is stored still, what it deletes is noted. -/
theorem accounted_pruned
    (state : Rewriting js used ⟨saved.table.deleteUpTo threshold, saved.deletions ++
      [(some (.prune call), threshold)]⟩ done [] contents)
    (accounted : Accounted entry saved) : Accounted entry contents := by
  rcases accounted with ⟨row, member, same⟩ | ⟨other, bound, noted, below⟩
  · have seq : row.seq = entry.seq := by
      obtain ⟨stored, column, data⟩ := Option.map_eq_some_iff.mp same
      rw [← entryToRow_seq column, ← row.data_seq, ← data, AuditRow.data_seq]
    by_cases low : (row.seq : Int) ≤ threshold
    · refine .inr ⟨call, threshold, ?_, by omega⟩
      rw [state.deletions]
      simp
    · have kept : row ∈ (saved.table.deleteUpTo threshold).rows :=
        List.mem_filter.mpr ⟨member, by simpa using low⟩
      have listed : row.data ∈ (done ++ []).map AuditRow.data := by
        rw [state.data]
        exact List.mem_map_of_mem (f := AuditRow.data) kept
      obtain ⟨row', member', equal⟩ := List.mem_map.mp listed
      exact .inl ⟨row', by rw [state.rows]; exact member', by rw [same, equal]⟩
  · refine .inr ⟨other, bound, ?_, below⟩
    rw [state.deletions]
    exact List.mem_append_left _ noted

theorem rewritten_ends {done : List AuditRow} (intact : Intact js used saved)
    (last : ∀ row, saved.table.rows.getLast? = some row → threshold < row.seq)
    (state : Rewriting js used ⟨saved.table.deleteUpTo threshold, saved.deletions ++
      [(some (.prune call), threshold)]⟩ done [] contents) :
    Intact js used contents ∧ Follows (.prune call) saved contents := by
  have rows := state.rows
  have data := state.data
  have hashes := state.hashes
  rw [List.append_nil] at rows data hashes
  obtain ⟨first, positive, numbered⟩ := intact.numbered
  obtain ⟨later, above, numbered'⟩ := numbered.above threshold
  have size := congrArg List.length data
  rw [List.length_map, List.length_map] at size
  have same : tip contents = tip saved := by
    rw [tip, ← List.getLast?_map, rows, seqs_of_data data, List.getLast?_map,
      deleteUpTo_last last, tip]
  refine ⟨⟨⟨later, by omega, ?_⟩, ?_, ?_, ?_⟩, fun entry => accounted_pruned js state,
    fun _ => same⟩
  · rw [rows]
    exact ⟨by rw [seqs_of_data data, size]; exact numbered'.seqs, hashes⟩
  · rw [rows]
    exact state.linked
  · rw [rows]
    exact state.texts
  · rw [same]
    exact intact.small

theorem pruned_start (intact : Intact js used saved) (threshold : Int) :
    Rewriting js used ⟨saved.table.deleteUpTo threshold,
        saved.deletions ++ [(some (.prune call), threshold)]⟩ []
      (saved.table.deleteUpTo threshold).rows ⟨saved.table.deleteUpTo threshold,
        saved.deletions ++ [(some (.prune call), threshold)]⟩ where
  rows := rfl
  data := rfl
  linked := trivial
  texts := fun _ none => nomatch none
  hashes := by
    intro row member
    obtain ⟨first, positive, numbered⟩ := intact.numbered
    exact numbered.hashes row (List.mem_filter.mp member).1
  deletions := rfl

theorem pruned_split (intact : Intact js used saved) (threshold : Int) :
    Split 0 [] (saved.table.deleteUpTo threshold).rows where
  before := fun _ none => nomatch none
  after := fun row _ => Int.natCast_nonneg row.seq
  small := fun row member => (intact.bounds js row (List.mem_filter.mp member).1).2

variable {beforeMs retain : Rat}

theorem qualifying_below {threshold : Nat} (positive : 1 ≤ retain)
    (found : lastQualifying beforeMs contents.table.rows.length retain
      (contents.table.rows.map rowToEntry) 0 none = some threshold)
    :
    ∀ row, contents.table.rows.getLast? = some row → (threshold : Int) < row.seq := by
  intro row ends
  rcases lastQualifying_found positive (by simp) found with none | qualified
  · cases none
  · obtain ⟨before, entry, after, parts, same, more⟩ := qualified
    obtain ⟨earlier, rest, whole, -, shape⟩ := List.map_eq_append_iff.mp parts
    obtain ⟨own, later, rfl, rfl, rfl⟩ := List.map_eq_cons_iff.mp shape
    have member : row ∈ later := by
      have newest := ends
      rw [whole, List.getLast?_append_of_ne_nil _ (by simp),
        List.getLast?_cons_of_ne_nil (by simpa using more)] at newest
      exact List.mem_of_getLast? newest
    have ordered := contents.table.ordered
    rw [whole] at ordered
    have below := List.rel_of_pairwise_cons
      (List.pairwise_append.mp ordered).2.1 member
    simp only [rowToEntry] at same
    omega

theorem solo_prune (positive : 1 ≤ retain) (intact : Intact js used saved) :
    Solo js used (.prune call) saved
      (Ends js used (.prune call) saved fun _ _ => True)
      (pruneStatements js beforeMs retain) saved := by
  have unchanged : ∀ value : PruneAuditResult, Ends js used (.prune call) saved
      (fun _ _ => True) (.ok value) saved :=
    fun value => ⟨intact, Follows.refl _ saved, trivial⟩
  refine ⟨rfl, fun _ => ?_⟩
  show Solo js used _ saved _ (if saved.table.rows.length = 0 then _ else _) saved
  split
  · exact unchanged _
  · refine ⟨rfl, fun _ => ?_⟩
    dsimp only [Connection.execute, inside, AuditTable.count]
    rw [iterate_all (intact.bounds js)]
    cases found : lastQualifying beforeMs saved.table.rows.length retain
        (saved.table.rows.map rowToEntry) 0 none with
    | none => exact unchanged _
    | some threshold =>
      refine ⟨rfl, fun _ => ⟨rfl, fun _ => ?_⟩⟩
      refine solo_bind js used (solo_mono js used ?_
        (solo_rewriteChain js none (pruned_start js intact threshold)
          (pruned_split js intact threshold) ?_))
      · rintro (failure | first) contents ends
        · exact fun own => nomatch own
        · obtain ⟨done, state, -, -⟩ := ends
          obtain ⟨whole, follows⟩ :=
            rewritten_ends js intact (qualifying_below positive found) state
          exact ⟨whole, follows, trivial⟩
      · have fewer := List.length_filter_le
          (fun row : AuditRow => ¬ (row.seq : Int) ≤ threshold) saved.table.rows
        exact Nat.lt_succ_of_le fewer

end Graphorin.Audit
