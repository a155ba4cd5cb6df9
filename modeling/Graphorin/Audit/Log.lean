import Mathlib.Data.List.Pairwise
import Graphorin.Audit.Entry

namespace Graphorin.Audit

open Graphorin.Js

/-! The `audit_log` table, and the binding's methods on it. -/

/-- A row.  JSON columns are kept as what `JSON.parse` reads from them; actor and
context hold only strings, which JSON gives back as they were. -/
structure AuditRow where
  seq : Nat
  ts : Rat
  actor : AuditActor
  action : JsText
  target : JsText
  decision : AuditDecision
  context : Option AuditContext
  metadata : Option Json
  prevHash : JsText
  hash : JsText

def metadataLive : Option Json → Live
  | some metadata => metadata.live
  | none => .undefined

def rowToEntry (row : AuditRow) : StoredAuditEntry where
  seq := row.seq
  ts := row.ts
  actor := row.actor
  action := row.action
  target := row.target
  decision := row.decision
  context := row.context
  metadata := metadataLive row.metadata
  prevHash := row.prevHash
  hash := row.hash

/-- Rows in the order of their primary key; `hash` is `UNIQUE`. -/
structure AuditTable where
  rows : List AuditRow
  ordered : rows.Pairwise fun first second => first.seq < second.seq
  distinct : rows.Pairwise fun first second => first.hash ≠ second.hash

namespace AuditTable

def empty : AuditTable := ⟨[], .nil, .nil⟩

/-- `Number.MAX_SAFE_INTEGER`. -/
def maxSafeInteger : Int := 2 ^ 53 - 1

def iterate (table : AuditTable) (fromSeq toSeq : Option Int) :
    List StoredAuditEntry :=
  (table.rows.filter fun row =>
    fromSeq.getD 1 ≤ row.seq ∧ row.seq ≤ toSeq.getD maxSafeInteger).map rowToEntry

def latest (table : AuditTable) : Option StoredAuditEntry :=
  table.rows.getLast?.map rowToEntry

def count (table : AuditTable) : Nat := table.rows.length

theorem le_latest {rows : List AuditRow} {row last : AuditRow}
    (ordered : rows.Pairwise fun first second => first.seq < second.seq)
    (ends : rows.getLast? = some last) (member : row ∈ rows) :
    row.seq ≤ last.seq := by
  obtain ⟨before, rfl⟩ := List.getLast?_eq_some_iff.mp ends
  rcases List.mem_append.mp member with earlier | final
  · exact Nat.le_of_lt ((List.pairwise_append.mp ordered).2.2 row earlier last
      List.mem_cons_self)
  · rw [List.mem_singleton.mp final]

theorem iterate_latest (table : AuditTable) :
    table.iterate none (some (((table.iterate none none).getLast?.map
      fun entry => (entry.seq : Int)).getD 0)) = table.iterate none none := by
  unfold iterate
  congr 1
  apply List.filter_congr
  intro row member
  rw [decide_eq_decide]
  simp only [Option.getD_none, Option.getD_some]
  cases ends : (table.rows.filter fun row => (1 : Int) ≤ row.seq ∧
      (row.seq : Int) ≤ maxSafeInteger).getLast? with
  | none =>
    have none := List.getLast?_eq_none_iff.mp ends
    have outside : ¬ ((1 : Int) ≤ row.seq ∧ (row.seq : Int) ≤ maxSafeInteger) := by
      intro inside
      have kept := List.filter_eq_nil_iff.mp none row member
      exact kept (decide_eq_true inside)
    rw [List.getLast?_map, ends]
    simp only [Option.map_none, Option.getD_none]
    omega
  | some last =>
    have range := (List.mem_filter.mp (List.mem_of_getLast? ends)).2
    have range' := of_decide_eq_true range
    have ordered := table.ordered.filter fun row =>
      decide ((1 : Int) ≤ row.seq ∧ (row.seq : Int) ≤ maxSafeInteger)
    have bounded : (1 : Int) ≤ row.seq → (row.seq : Int) ≤ maxSafeInteger →
        row.seq ≤ last.seq := fun lower upper =>
      le_latest ordered ends
        (List.mem_filter.mpr ⟨member, decide_eq_true ⟨lower, upper⟩⟩)
    rw [List.getLast?_map, ends]
    simp only [Option.map_some, Option.getD_some, rowToEntry]
    omega

end AuditTable

inductive TableError
  /-- A parameter that cannot be bound: the text of the metadata is `undefined`. -/
  | unbindable
  | seqTaken
  | hashTaken
deriving DecidableEq

/-- The `metadata_json` parameter; `none` when `JSON.stringify` gives no text. -/
def metadataColumn : Live → Option (Option Json)
  | .undefined => some none
  | metadata => metadata.written.map some

/-- What `INSERT` is given of an entry.  Raw text columns are UTF-8. -/
def entryToRow (entry : StoredAuditEntry) : Option AuditRow := do
  let metadata ← metadataColumn entry.metadata
  pure {
    seq := entry.seq
    ts := entry.ts
    actor := entry.actor
    action := toWellFormed entry.action
    target := toWellFormed entry.target
    decision := entry.decision
    context := entry.context
    metadata := metadata
    prevHash := toWellFormed entry.prevHash
    hash := toWellFormed entry.hash }

namespace AuditTable

variable {rows : List AuditRow}

theorem ordered_around {row : AuditRow}
    (ordered : rows.Pairwise fun first second => first.seq < second.seq) :
    (rows.filter (fun other => other.seq < row.seq) ++
      row :: rows.filter (fun other => row.seq < other.seq)).Pairwise
        fun first second => first.seq < second.seq := by
  refine List.pairwise_append.mpr ⟨ordered.filter _, .cons ?_ (ordered.filter _), ?_⟩
  · intro other member
    exact of_decide_eq_true (List.mem_filter.mp member).2
  · intro first before second after
    have low : first.seq < row.seq := of_decide_eq_true (List.mem_filter.mp before).2
    rcases List.mem_cons.mp after with rfl | later
    · exact low
    · have high : row.seq < second.seq :=
        of_decide_eq_true (List.mem_filter.mp later).2
      omega

theorem hashes_apart (distinct : rows.Pairwise fun first second => first.hash ≠ second.hash)
    (member : first ∈ rows) (member' : second ∈ rows) (apart : first.seq ≠ second.seq) :
    first.hash ≠ second.hash := by
  have symmetric : Std.Symm fun first second : AuditRow =>
      first.seq ≠ second.seq → first.hash ≠ second.hash :=
    ⟨fun _ _ differ apart => (differ apart.symm).symm⟩
  have weak : rows.Pairwise fun first second =>
      first.seq ≠ second.seq → first.hash ≠ second.hash := by
    refine distinct.imp ?_
    intro first second differ _
    exact differ
  exact weak.forall_of_forall (fun _ _ apart => absurd rfl apart) member member'
    apart

theorem distinct_around
    (distinct : rows.Pairwise fun first second => first.hash ≠ second.hash)
    (unused : ¬ ∃ other ∈ rows, other.hash = row.hash) :
    (rows.filter (fun other => other.seq < row.seq) ++
      row :: rows.filter (fun other => row.seq < other.seq)).Pairwise
        fun first second => first.hash ≠ second.hash := by
  have other : ∀ other ∈ rows, other.hash ≠ row.hash := fun other member same =>
    unused ⟨other, member, same⟩
  refine List.pairwise_append.mpr
    ⟨distinct.filter _, .cons ?_ (distinct.filter _), ?_⟩
  · intro later member
    exact (other later (List.mem_filter.mp member).1).symm
  · intro first before second after
    rcases List.mem_cons.mp after with rfl | later
    · exact other first (List.mem_filter.mp before).1
    · have low : first.seq < row.seq :=
        of_decide_eq_true (List.mem_filter.mp before).2
      have high : row.seq < second.seq :=
        of_decide_eq_true (List.mem_filter.mp later).2
      exact hashes_apart distinct (List.mem_filter.mp before).1
        (List.mem_filter.mp later).1 (by omega)

def insert (table : AuditTable) (entry : StoredAuditEntry) :
    Except TableError AuditTable :=
  match entryToRow entry with
  | none => .error .unbindable
  | some row =>
    if ∃ other ∈ table.rows, other.seq = row.seq then .error .seqTaken
    else if unused : ∃ other ∈ table.rows, other.hash = row.hash then
      .error .hashTaken
    else .ok ⟨_, ordered_around table.ordered,
      distinct_around table.distinct unused⟩

def deleteUpTo (table : AuditTable) (threshold : Int) : AuditTable where
  rows := table.rows.filter fun row => ¬ row.seq ≤ threshold
  ordered := table.ordered.filter _
  distinct := table.distinct.filter _

/-- `UPDATE audit_log SET prev_hash = ?, hash = ? WHERE seq = ?`. -/
def replaced (entry : StoredAuditEntry) (row : AuditRow) : AuditRow :=
  if row.seq = entry.seq then
    { row with
      prevHash := toWellFormed entry.prevHash
      hash := toWellFormed entry.hash }
  else row

@[simp] theorem replaced_seq (entry : StoredAuditEntry) (row : AuditRow) :
    (replaced entry row).seq = row.seq := by
  unfold replaced
  split <;> rfl

theorem distinct_replaced
    (ordered : rows.Pairwise fun first second => first.seq < second.seq)
    (distinct : rows.Pairwise fun first second => first.hash ≠ second.hash)
    (unused : ¬ ∃ other ∈ rows, other.seq ≠ entry.seq ∧ other.hash = toWellFormed entry.hash) :
    (rows.map (replaced entry)).Pairwise
      fun first second => first.hash ≠ second.hash := by
  rw [List.pairwise_map]
  refine (ordered.and distinct).imp_of_mem ?_
  intro first second member member' ⟨rising, differ⟩
  unfold replaced
  split
  · rename_i here
    rw [if_neg (by omega)]
    exact fun same => unused ⟨second, member', by omega, same.symm⟩
  · rename_i elsewhere
    split
    · exact fun same => unused ⟨first, member, elsewhere, same⟩
    · exact differ

def replaceEntry (table : AuditTable) (entry : StoredAuditEntry) :
    Except TableError AuditTable :=
  if unused : ∃ other ∈ table.rows,
      other.seq ≠ entry.seq ∧ other.hash = toWellFormed entry.hash then
    .error .hashTaken
  else .ok ⟨table.rows.map (replaced entry),
    by simpa [List.pairwise_map] using table.ordered,
    distinct_replaced table.ordered table.distinct unused⟩

end AuditTable

section Json

variable (js : Runtime)

theorem Json.live_defined (value : Json) : value.live = .undefined → False := by
  cases value <;> simp [Json.live]

mutual
theorem serialize_live : ∀ value : Json, ∃ text, serialize js value.live = .ok text
  | .null => ⟨_, rfl⟩
  | .bool value => ⟨_, rfl⟩
  | .num value => ⟨_, rfl⟩
  | .str text => ⟨_, rfl⟩
  | .arr items => by
      obtain ⟨parts, served⟩ := serializeItems_live items
      refine ⟨arrayText parts, ?_⟩
      rw [Json.live, serialize, served]
      rfl
  | .obj fields => by
      obtain ⟨entries, served⟩ := serializeFields_live fields
      refine ⟨objectText js entries, ?_⟩
      rw [Json.live, serialize, served]
      rfl

theorem serializeItems_live : ∀ items : List Json,
    ∃ parts, serializeItems js (Json.liveItems items) = .ok parts
  | [] => ⟨[], rfl⟩
  | item :: rest => by
      obtain ⟨part, served⟩ := serialize_live item
      obtain ⟨parts, others⟩ := serializeItems_live rest
      refine ⟨part :: parts, ?_⟩
      rw [Json.liveItems, serializeItems, served, others]
      · rfl
      · exact item.live_defined

theorem serializeFields_live : ∀ fields : List (JsText × Json),
    ∃ entries, serializeFields js (Json.liveFields fields) = .ok entries
  | [] => ⟨[], rfl⟩
  | (key, value) :: rest => by
      obtain ⟨part, served⟩ := serialize_live value
      obtain ⟨parts, others⟩ := serializeFields_live rest
      refine ⟨(key, part) :: parts, ?_⟩
      rw [Json.liveFields, serializeFields, served, others]
      · rfl
      · exact value.live_defined
end

/-- An object is serialised if each of its members is, or is left out. -/
theorem serializeFields_ok : ∀ {fields : List (JsText × Live)}, (∀ field ∈ fields,
      field.2 = .undefined ∨ ∃ text, serialize js field.2 = .ok text) →
    ∃ entries, serializeFields js fields = .ok entries
  | [], _ => ⟨[], rfl⟩
  | (key, value) :: rest, each => by
      obtain ⟨parts, others⟩ := serializeFields_ok
        fun field later => each field (List.mem_cons_of_mem _ later)
      rcases each _ List.mem_cons_self with omitted | ⟨part, served⟩
      · cases omitted
        exact ⟨parts, by rw [serializeFields, others]⟩
      · refine ⟨(key, part) :: parts, ?_⟩
        rw [serializeFields, served, others]
        · rfl
        · intro omitted
          cases omitted
          cases served

theorem serialize_obj_ok
    (each : ∀ field ∈ fields, field.2 = .undefined ∨ ∃ text, serialize js field.2 = .ok text) :
    ∃ text, serialize js (.obj fields) = .ok text := by
  obtain ⟨entries, served⟩ := serializeFields_ok js each
  exact ⟨objectText js entries, by rw [serialize, served]; rfl⟩

theorem optionalField_text (member : field ∈ optionalField key text) :
    ∃ text, field.2 = .str text := by
  cases text with
  | none => cases member
  | some text =>
    obtain rfl := List.mem_singleton.mp member
    exact ⟨text, rfl⟩

theorem actor_serializes (actor : AuditActor) :
    ∃ text, serialize js actor.live = .ok text := by
  apply serialize_obj_ok
  intro field member
  simp only [List.mem_append, List.mem_cons, List.not_mem_nil, or_false] at member
  rcases member with (rfl | rfl) | optional
  · exact .inr ⟨_, rfl⟩
  · exact .inr ⟨_, rfl⟩
  · obtain ⟨text, shape⟩ := optionalField_text optional
    exact .inr ⟨_, by rw [shape]; rfl⟩

theorem context_serializes (context : Option AuditContext) :
    contextLive context = .undefined ∨
      ∃ text, serialize js (contextLive context) = .ok text := by
  cases context with
  | none => exact .inl rfl
  | some =>
    refine .inr (serialize_obj_ok js fun field member => ?_)
    simp only [List.mem_append] at member
    obtain ⟨text, shape⟩ : ∃ text, field.2 = .str text := by
      rcases member with (member | member) | member
      · exact optionalField_text member
      · exact optionalField_text member
      · exact optionalField_text member
    exact .inr ⟨_, by rw [shape]; rfl⟩

theorem entry_fields_serialize {entry : BaseAuditEntry}
    (metadata : entry.metadata = .undefined ∨
      ∃ text, serialize js entry.metadata = .ok text) : ∀ field ∈ entry.fields,
      field.2 = .undefined ∨ ∃ text, serialize js field.2 = .ok text := by
  intro field member
  simp only [BaseAuditEntry.fields, List.mem_cons, List.not_mem_nil,
    or_false] at member
  rcases member with rfl | rfl | rfl | rfl | rfl | rfl | rfl | rfl | rfl
  · exact .inr ⟨_, rfl⟩
  · exact .inr ⟨_, rfl⟩
  · exact .inr (actor_serializes js entry.actor)
  · exact .inr ⟨_, rfl⟩
  · exact .inr ⟨_, rfl⟩
  · exact .inr ⟨_, rfl⟩
  · exact context_serializes js entry.context
  · exact metadata
  · exact .inr ⟨_, rfl⟩

theorem metadata_serializes (metadata : Option Json) :
    metadataLive metadata = .undefined ∨
      ∃ text, serialize js (metadataLive metadata) = .ok text := by
  cases metadata with
  | none => exact .inl rfl
  | some metadata => exact .inr (serialize_live js metadata)

theorem row_canonical (row : AuditRow) :
    ∃ text, canonicalJson js (rowToEntry row).live = .ok text := by
  refine serialize_obj_ok js fun field member => ?_
  rcases List.mem_append.mp member with base | hash
  · exact entry_fields_serialize js (metadata_serializes js row.metadata) field base
  · obtain rfl := List.mem_singleton.mp hash
    exact .inr ⟨_, rfl⟩

end Json

end Graphorin.Audit
