import Mathlib.Data.List.Induction
import Mathlib.Data.List.Perm.Basic
import Graphorin.Audit.Chain

namespace Graphorin.Audit

open Graphorin.Js

/-! The hash of the newest entry fixes every entry before it. -/

mutual
def Json.Same : Json → Json → Prop
  | .null, .null => True
  | .bool value, .bool other => value = other
  | .num value, .num other => value = other
  | .str text, .str other => text = other
  | .arr items, .arr others => Json.SameItems items others
  | .obj fields, .obj others =>
    ∃ ordered, ordered.Perm others ∧ Json.SameFields fields ordered
  | _, _ => False

def Json.SameItems : List Json → List Json → Prop
  | [], [] => True
  | item :: rest, other :: others => item.Same other ∧ Json.SameItems rest others
  | _, _ => False

def Json.SameFields : List (JsText × Json) → List (JsText × Json) → Prop
  | [], [] => True
  | (key, value) :: rest, (key', value') :: others =>
    key = key' ∧ value.Same value' ∧ Json.SameFields rest others
  | _, _ => False
end

variable {js : Runtime}

def ServedAs (js : Runtime) (form field : JsText × Json) : Prop :=
  form.1 = field.1 ∧ field.2.live.canonical js = some form.2

theorem canonicalFields_live (fields : List (JsText × Json)) :
    ∃ forms, Live.canonicalFields js (Json.liveFields fields) = some forms ∧
      List.Forall₂ (ServedAs js) forms fields := by
  induction fields with
  | nil => exact ⟨[], rfl, .nil⟩
  | cons field _ ih =>
    obtain ⟨key, value⟩ := field
    obtain ⟨form, served⟩ := @live_canonical js value
    obtain ⟨forms, others, each⟩ := ih
    refine ⟨(key, form) :: forms, ?_, .cons ⟨rfl, served⟩ each⟩
    rw [Json.liveFields]
    exact (canonicalFields_cons fun undefined => value.live_defined undefined).mpr
      ⟨form, forms, served, others, rfl⟩

def Alike (js : Runtime) (field other : JsText × Json) : Prop :=
  field.1 = other.1 ∧ field.2.live.canonical js = other.2.live.canonical js

theorem served_alike (first : List.Forall₂ (ServedAs js) forms fields)
    (second : List.Forall₂ (ServedAs js) forms others) :
    List.Forall₂ (Alike js) fields others := by
  induction first generalizing others with
  | nil =>
    cases second
    exact .nil
  | cons here _ ih =>
    cases second with
    | cons here' rest' =>
      refine .cons ⟨?_, ?_⟩ (ih rest')
      · exact here.1.symm.trans here'.1
      · exact here.2.trans here'.2.symm

/-- Objects of one canonical form have the same members in some order. -/
theorem canonical_obj
    (same : (Json.obj fields).live.canonical js = (Json.obj others).live.canonical js) :
    ∃ ordered, ordered.Perm others ∧ List.Forall₂ (Alike js) fields ordered := by
  obtain ⟨forms, served, each⟩ := @canonicalFields_live js fields
  obtain ⟨forms', served', each'⟩ := @canonicalFields_live js others
  simp only [Json.live, Live.canonical, served, served', Option.map_some,
    Option.some.injEq, Json.obj.injEq] at same
  have perm : forms.Perm forms' := by
    have left := List.perm_insertionSort (fun first second : JsText × Json =>
      keyBefore js first.1 second.1 = true) forms
    have right := List.perm_insertionSort (fun first second : JsText × Json =>
      keyBefore js first.1 second.1 = true) forms'
    rw [sortFields, sortFields] at same
    exact left.symm.trans (same ▸ right)
  obtain ⟨ordered, matched, order⟩ := List.perm_comp_forall₂ perm each'
  exact ⟨ordered, order, served_alike each matched⟩

theorem canonicalItems_live (items : List Json) :
    ∃ forms, Live.canonicalItems js (Json.liveItems items) = some forms ∧
      List.Forall₂ (fun form item : Json => item.live.canonical js = some form)
        forms items := by
  induction items with
  | nil => exact ⟨[], rfl, .nil⟩
  | cons item _ ih =>
    obtain ⟨form, served⟩ := @live_canonical js item
    obtain ⟨forms, others, each⟩ := ih
    refine ⟨form :: forms, ?_, .cons served each⟩
    rw [Json.liveItems]
    exact (canonicalItems_cons fun undefined => item.live_defined undefined).mpr
      ⟨form, forms, served, others, rfl⟩

theorem canonical_arr
    (same : (Json.arr items).live.canonical js = (Json.arr others).live.canonical js) :
    List.Forall₂ (fun item other : Json =>
      item.live.canonical js = other.live.canonical js) items others := by
  obtain ⟨forms, served, each⟩ := @canonicalItems_live js items
  obtain ⟨forms', served', each'⟩ := @canonicalItems_live js others
  simp only [Json.live, Live.canonical, served, served', Option.map_some,
    Option.some.injEq, Json.arr.injEq] at same
  subst same
  clear served served'
  induction each generalizing others with
  | nil =>
    cases each'
    exact .nil
  | cons here _ ih =>
    cases each' with
    | cons here' rest' => exact .cons (here.trans here'.symm) (ih rest')

/-- The canonical form of a value that JSON gives back, by its constructor. -/
theorem live_form (value : Json) : ∃ form, value.live.canonical js = some form ∧
    form.kind = value.kind := by
  obtain ⟨form, served⟩ := @live_canonical js value
  refine ⟨form, served, ?_⟩
  cases value with
  | null => cases served; rfl
  | bool => cases served; rfl
  | num => cases served; rfl
  | str => cases served; rfl
  | arr =>
    obtain ⟨forms, -, rfl⟩ := Option.map_eq_some_iff.mp served
    rfl
  | obj =>
    obtain ⟨forms, -, rfl⟩ := Option.map_eq_some_iff.mp served
    rfl

theorem kind_alike {value other : Json}
    (same : value.live.canonical js = other.live.canonical js) :
    value.kind = other.kind := by
  obtain ⟨form, served, kind⟩ := @live_form js value
  obtain ⟨form', served', kind'⟩ := @live_form js other
  rw [served, served'] at same
  cases same
  rw [← kind, kind']

mutual
theorem same_of_canonical : ∀ (value : Json) {other : Json},
    value.live.canonical js = other.live.canonical js → value.Same other
  | .null, other, same => by
      cases other <;> simp_all [Json.live, Live.canonical, Json.Same]
  | .bool value, other, same => by
      cases other <;> simp_all [Json.live, Live.canonical, Json.Same]
  | .num value, other, same => by
      cases other <;> simp_all [Json.live, Live.canonical, Json.Same]
  | .str text, other, same => by
      cases other <;> simp_all [Json.live, Live.canonical, Json.Same]
  | .arr items, other, same => by
      have kind := kind_alike same
      cases other with
      | arr => exact sameItems_of_canonical items (canonical_arr same)
      | _ => simp [Json.kind] at kind
  | .obj fields, other, same => by
      have kind := kind_alike same
      cases other with
      | obj =>
        obtain ⟨ordered, order, alike⟩ := canonical_obj same
        exact ⟨ordered, order, sameFields_of_canonical fields alike⟩
      | _ => simp [Json.kind] at kind

theorem sameItems_of_canonical : ∀ (items : List Json) {others : List Json},
    List.Forall₂ (fun item other : Json =>
      item.live.canonical js = other.live.canonical js) items others →
    Json.SameItems items others
  | [], [], _ => trivial
  | item :: rest, other :: others, alike => by
      cases alike with
      | cons here later =>
        exact ⟨same_of_canonical item here, sameItems_of_canonical rest later⟩

theorem sameFields_of_canonical : ∀ (fields : List (JsText × Json))
    {others : List (JsText × Json)}, List.Forall₂ (Alike js) fields others →
    Json.SameFields fields others
  | [], [], _ => trivial
  | (key, value) :: rest, (key', value') :: others, alike => by
      cases alike with
      | cons here later =>
        exact ⟨here.1, same_of_canonical value here.2,
          sameFields_of_canonical rest later⟩
end

/-- Fields that are serialised alike, name by name. -/
theorem canonicalFields_cancel : ∀ {fields others : List (JsText × Live)}
    {forms : List (JsText × Json)},
    fields.map Prod.fst = others.map Prod.fst → (fields.map Prod.fst).Nodup →
    Live.canonicalFields js fields = some forms →
    Live.canonicalFields js others = some forms →
    List.Forall₂ (SameForm js) fields others
  | [], [], _, _, _, _, _ => .nil
  | (key, value) :: rest, (key', value') :: others, forms, names, nodup,
      served, served' => by
      simp only [List.map_cons, List.cons.injEq] at names
      obtain ⟨rfl, names⟩ := names
      simp only [List.map_cons, List.nodup_cons] at nodup
      have absent : ∀ {tail : List (JsText × Live)} {form : Json}
          {later : List (JsText × Json)}, tail.map Prod.fst = rest.map Prod.fst →
          Live.canonicalFields js tail ≠ some ((key, form) :: later) := by
        intro tail form later same found
        have listed := (canonicalFields_keys found).subset List.mem_cons_self
        rw [same] at listed
        exact nodup.1 listed
      by_cases omitted : value = .undefined
      · by_cases omitted' : value' = .undefined
        · subst omitted omitted'
          rw [Live.canonicalFields] at served served'
          exact .cons rfl (canonicalFields_cancel names nodup.2 served served')
        · obtain ⟨form, later, -, -, rfl⟩ := (canonicalFields_cons omitted').mp served'
          rw [omitted, Live.canonicalFields] at served
          exact absurd served (absent rfl)
      · obtain ⟨form, later, here, tail, rfl⟩ := (canonicalFields_cons omitted).mp served
        by_cases omitted' : value' = .undefined
        · rw [omitted', Live.canonicalFields] at served'
          exact absurd served' (absent names.symm)
        · obtain ⟨form', later', here', tail', same⟩ :=
            (canonicalFields_cons omitted').mp served'
          cases same
          exact .cons (here.trans here'.symm)
            (canonicalFields_cancel names nodup.2 tail tail')

/-- Two selections of one list without repetition are the same list when they
have the same members. -/
theorem sublist_cancel {α : Type} {whole first second : List α}
    (nodup : whole.Nodup) (left : first.Sublist whole)
    (right : second.Sublist whole) (perm : first.Perm second) : first = second := by
  induction whole generalizing first second with
  | nil =>
    rw [List.sublist_nil.mp left, List.sublist_nil.mp right]
  | cons item _ ih =>
    obtain ⟨fresh, nodup⟩ := List.nodup_cons.mp nodup
    rcases List.sublist_cons_iff.mp left with later | ⟨first, rfl, later⟩
    · rcases List.sublist_cons_iff.mp right with later' | ⟨second, rfl, later'⟩
      · exact ih nodup later later' perm
      · exact absurd (later.subset (perm.symm.subset List.mem_cons_self)) fresh
    · rcases List.sublist_cons_iff.mp right with later' | ⟨second, rfl, later'⟩
      · exact absurd (later'.subset (perm.subset List.mem_cons_self)) fresh
      · rw [ih nodup later later' ((List.perm_cons item).mp perm)]

theorem object_cancel (served : (Live.obj fields).canonical js = some form)
    (served' : (Live.obj others).canonical js = some form)
    (names : fields.map Prod.fst = others.map Prod.fst)
    (nodup : (fields.map Prod.fst).Nodup) :
    List.Forall₂ (SameForm js) fields others := by
  rw [Live.canonical] at served served'
  obtain ⟨forms, found, rfl⟩ := Option.map_eq_some_iff.mp served
  obtain ⟨forms', found', same⟩ := Option.map_eq_some_iff.mp served'
  have perm : forms'.Perm forms := by
    have left := List.perm_insertionSort (fun first second : JsText × Json =>
      keyBefore js first.1 second.1 = true) forms
    have right := List.perm_insertionSort (fun first second : JsText × Json =>
      keyBefore js first.1 second.1 = true) forms'
    rw [sortFields, sortFields, Json.obj.injEq] at same
    exact right.symm.trans (same ▸ left)
  have keys : forms'.map Prod.fst = forms.map Prod.fst := by
    refine sublist_cancel nodup ?_ (canonicalFields_keys found) (perm.map _)
    rw [names]
    exact canonicalFields_keys found'
  have nodup' : (forms'.map Prod.fst).Nodup := by
    rw [keys]
    exact nodup.sublist (canonicalFields_keys found)
  obtain rfl := pair_cancel keys nodup' perm
  exact canonicalFields_cancel names nodup found found'

def optionalLive : Option JsText → Live
  | some text => .str text
  | none => .undefined

theorem optionalLive_cancel
    (same : (optionalLive first).canonical js = (optionalLive second).canonical js) :
    first = second := by
  cases first <;> cases second <;> simp_all [optionalLive, Live.canonical]

theorem actor_canonical (actor : AuditActor) : actor.live.canonical js =
      (Live.obj [(ascii "kind", .str actor.kind.text), (ascii "id", .str actor.id),
        (ascii "label", optionalLive actor.label)]).canonical js := by
  obtain ⟨kind, id, label⟩ := actor
  cases label <;>
    simp [AuditActor.live, optionalField, optionalLive, Live.canonical,
      Live.canonicalFields]

theorem kind_cancel {first second : AuditActorKind}
    (same : first.text = second.text) : first = second := by
  revert same
  cases first <;> cases second <;> decide

theorem decision_cancel {first second : AuditDecision}
    (same : first.text = second.text) : first = second := by
  revert same
  cases first <;> cases second <;> decide

theorem actor_form (actor : AuditActor) :
    ∃ form, actor.live.canonical js = some form := by
  rw [← Option.isSome_iff_exists, actor_canonical]
  obtain ⟨kind, id, label⟩ := actor
  cases label <;> simp [optionalLive, Live.canonical, Live.canonicalFields]

theorem actor_cancel {actor other : AuditActor}
    (same : actor.live.canonical js = other.live.canonical js) : actor = other := by
  obtain ⟨form, served⟩ := @actor_form js actor
  rw [served] at same
  have served' := same.symm
  rw [actor_canonical] at served served'
  have each := object_cancel served served' rfl
    (show [ascii "kind", ascii "id", ascii "label"].Nodup by decide)
  simp only [List.forall₂_cons, SameForm, List.forall₂_nil_left_iff, and_true,
    Live.canonical, Option.some.injEq, Json.str.injEq] at each
  obtain ⟨kind, id, label⟩ := each
  obtain ⟨first, name, text⟩ := actor
  obtain ⟨second, name', text'⟩ := other
  obtain rfl := kind_cancel kind
  obtain rfl := optionalLive_cancel label
  obtain rfl := id
  rfl

theorem context_canonical (context : AuditContext) : context.live.canonical js =
      (Live.obj [(ascii "runId", optionalLive context.runId),
        (ascii "sessionId", optionalLive context.sessionId),
        (ascii "toolName", optionalLive context.toolName)]).canonical js := by
  obtain ⟨runId, sessionId, toolName⟩ := context
  cases runId <;> cases sessionId <;> cases toolName <;>
    simp [AuditContext.live, optionalField, optionalLive, Live.canonical,
      Live.canonicalFields]

theorem context_form (context : AuditContext) :
    ∃ form, context.live.canonical js = some form := by
  rw [← Option.isSome_iff_exists, context_canonical]
  obtain ⟨runId, sessionId, toolName⟩ := context
  cases runId <;> cases sessionId <;> cases toolName <;>
    simp [optionalLive, Live.canonical, Live.canonicalFields]

theorem context_cancel
    (same : (contextLive context).canonical js = (contextLive other).canonical js) :
    context = other := by
  cases context with
  | none =>
    cases other with
    | none => rfl
    | some other =>
      obtain ⟨form, served⟩ := @context_form js other
      rw [contextLive, contextLive, served] at same
      cases same
  | some context =>
    obtain ⟨form, served⟩ := @context_form js context
    cases other with
    | none =>
      rw [contextLive, contextLive, served] at same
      cases same
    | some other =>
      rw [contextLive, contextLive, served] at same
      have served' := same.symm
      rw [context_canonical] at served served'
      have each := object_cancel served served' rfl
        (show [ascii "runId", ascii "sessionId", ascii "toolName"].Nodup by decide)
      simp only [List.forall₂_cons, SameForm, List.forall₂_nil_left_iff,
        and_true] at each
      obtain ⟨runId, sessionId, toolName⟩ := each
      obtain ⟨run, session, tool⟩ := context
      obtain ⟨run', session', tool'⟩ := other
      obtain rfl := optionalLive_cancel runId
      obtain rfl := optionalLive_cancel sessionId
      obtain rfl := optionalLive_cancel toolName
      rfl

def SameMetadata (metadata other : Live) : Prop :=
  (metadata = .undefined ∧ other = .undefined) ∨
    ∃ json json' : Json, metadata = json.live ∧ other = json'.live ∧ json.Same json'

theorem metadata_cancel
    (same : (metadataLive metadata).canonical js = (metadataLive other).canonical js) :
    SameMetadata (metadataLive metadata) (metadataLive other) := by
  cases metadata with
  | none =>
    cases other with
    | none => exact .inl ⟨rfl, rfl⟩
    | some other =>
      obtain ⟨form, served⟩ := @live_canonical js other
      rw [metadataLive, metadataLive, served] at same
      cases same
  | some metadata =>
    cases other with
    | none =>
      obtain ⟨form, served⟩ := @live_canonical js metadata
      rw [metadataLive, metadataLive, served] at same
      cases same
    | some other =>
      exact .inr ⟨metadata, other, rfl, rfl, same_of_canonical metadata same⟩

/-- The same entry up to the order of the members of its objects. -/
structure SameEntry (entry other : StoredAuditEntry) : Prop where
  seq : entry.seq = other.seq
  ts : entry.ts = other.ts
  actor : entry.actor = other.actor
  action : entry.action = other.action
  target : entry.target = other.target
  decision : entry.decision = other.decision
  context : entry.context = other.context
  metadata : SameMetadata entry.metadata other.metadata
  prevHash : entry.prevHash = other.prevHash
  hash : entry.hash = other.hash

variable {row other : AuditRow}

theorem sameEntry_of_text (numbers : NumberTexts js)
    (text : hashedText js (rowToEntry row).toBaseAuditEntry =
      hashedText js (rowToEntry other).toBaseAuditEntry)
    (hash : row.hash = other.hash) :
    SameEntry (rowToEntry row) (rowToEntry other) := by
  obtain ⟨text', serves⟩ := row_serializes js row
  obtain ⟨text'', serves'⟩ := row_serializes js other
  obtain ⟨form, served, shown⟩ := hashedText_form js serves
  obtain ⟨form', served', shown'⟩ := hashedText_form js serves'
  rw [shown, shown'] at text
  obtain rfl := text_injective numbers text
  have each := object_cancel served served' rfl (fields_nodup _)
  simp only [BaseAuditEntry.fields, rowToEntry, List.forall₂_cons, SameForm,
    List.forall₂_nil_left_iff, and_true, Live.canonical, Option.some.injEq,
    Json.str.injEq, Json.num.injEq] at each
  obtain ⟨seq, ts, actor, action, target, decision, context, metadata, prevHash⟩ :=
    each
  exact ⟨by exact_mod_cast seq, ts, actor_cancel actor, action, target,
    decision_cancel decision, context_cancel context, metadata_cancel metadata,
    prevHash, hash⟩

/-- The texts `verifyAuditChain` hashes again. -/
def walkedTexts (js : Runtime) (table : AuditTable) : List JsText :=
  (table.iterate none none).map fun entry => hashedText js entry.toBaseAuditEntry

/-- Where the walk starts. -/
def startSeq (table : AuditTable) : Option Nat :=
  (table.iterate none none).head?.map fun entry => entry.seq

theorem verifyEntries_decides {fromSeq : Option Int} (rows : List AuditRow)
    (count : Nat) (prevHash : JsText) :
    verifyEntries js fromSeq (rows.map rowToEntry) count prevHash =
        .ok (.ok (count + rows.length)) ∨ ∃ brokenAt expected actual,
        verifyEntries js fromSeq (rows.map rowToEntry) count prevHash =
          .ok (.broken brokenAt expected actual) := by
  induction rows generalizing count prevHash with
  | nil => exact .inl rfl
  | cons row rest ih =>
    rw [List.map_cons, verifyEntries]
    split
    · exact .inr ⟨_, _, _, rfl⟩
    · rw [computeAuditHash_row]
      simp only [bind, Except.bind]
      split
      · exact .inr ⟨_, _, _, rfl⟩
      · have size : count + (row :: rest).length = count + 1 + rest.length := by
          rw [List.length_cons]
          omega
        rw [size]
        exact ih (count + 1) _

variable {rows : List AuditRow}

theorem linked_of_verified
    (passes : verifyEntries js none (rows.map rowToEntry) 0 [] = .ok (.ok total)) :
    Linked js GENESIS_PREV_HASH rows := by
  have size : total = 0 + rows.length := by
    rcases @verifyEntries_decides js none rows 0 [] with ends | ⟨_, _, _, breaks⟩
    · rw [ends] at passes
      cases passes
      rfl
    · rw [breaks] at passes
      cases passes
  subst size
  cases rows with
  | nil => trivial
  | cons row rest =>
    have size : 0 + (row :: rest).length = 1 + rest.length := by
      rw [List.length_cons]
      omega
    rw [List.map_cons, size, verifyEntries_row,
      verifyEntries_linked js (by omega)] at passes
    exact passes

def InOrder (rows : List AuditRow) : Prop :=
  rows.Pairwise fun first second => first.seq < second.seq

/-- What keeps a chain from going on before the first row of another one. -/
def Anchored (js : Runtime) (rows others : List AuditRow) : Prop :=
  (rows.head?.map AuditRow.seq = others.head?.map AuditRow.seq ∧
      InOrder rows ∧ InOrder others) ∨
    ∀ row ∈ rows ++ others, rowHash js row ≠ GENESIS_PREV_HASH

variable {others : List AuditRow}

theorem anchored_end (anchored : Anchored js [row] (others ++ [other] ++ [last]))
    (seq : row.seq = last.seq) (hashed : other.hash = rowHash js other)
    (genesis : other.hash = GENESIS_PREV_HASH) : False := by
  rcases anchored with ⟨start, -, ordered⟩ | apart
  · have first : ∃ head ∈ others ++ [other], head.seq = row.seq := by
      cases others with
      | nil => exact ⟨other, List.mem_cons_self, by simpa using start.symm⟩
      | cons head => exact ⟨head, List.mem_cons_self, by simpa using start.symm⟩
    obtain ⟨head, member, same⟩ := first
    have below := (List.pairwise_append.mp ordered).2.2 head member last
      List.mem_cons_self
    omega
  · exact apart other (by simp) (hashed.symm.trans genesis)

theorem Anchored.symm (anchored : Anchored js rows others) : Anchored js others rows := by
  rcases anchored with ⟨start, ordered, ordered'⟩ | apart
  · exact .inl ⟨start.symm, ordered', ordered⟩
  · refine .inr fun row member => apart row ?_
    rw [List.mem_append] at member ⊢
    exact member.symm

theorem Anchored.init (anchored : Anchored js (rows ++ [row]) (others ++ [other]))
    (some' : rows ≠ []) (some'' : others ≠ []) : Anchored js rows others := by
  rcases anchored with ⟨start, ordered, ordered'⟩ | apart
  · refine .inl ⟨?_, (List.pairwise_append.mp ordered).1,
      (List.pairwise_append.mp ordered').1⟩
    rwa [List.head?_append_of_ne_nil _ some', List.head?_append_of_ne_nil _ some'']
      at start
  · refine .inr fun row member => apart row ?_
    simp only [List.mem_append] at member ⊢
    tauto

/-- Chains that end in the same hash, compared from their last rows back. -/
theorem linked_cancel (numbers : NumberTexts js) (rows : List AuditRow)
    (free : ∀ one ∈ rows ++ [row], ∀ two ∈ others ++ [other], rowHash js one = rowHash js two →
      hashedText js (rowToEntry one).toBaseAuditEntry =
        hashedText js (rowToEntry two).toBaseAuditEntry)
    (anchored : Anchored js (rows ++ [row]) (others ++ [other]))
    (linked : Linked js GENESIS_PREV_HASH (rows ++ [row]))
    (linked' : Linked js GENESIS_PREV_HASH (others ++ [other]))
    (tip : row.hash = other.hash) :
    List.Forall₂ SameEntry ((rows ++ [row]).map rowToEntry)
      ((others ++ [other]).map rowToEntry) := by
  induction rows using List.reverseRecOn generalizing others row other with
  | nil =>
    obtain ⟨before, chain, hashed⟩ := (linked_concat js).mp linked
    obtain ⟨before', chain', hashed'⟩ := (linked_concat js).mp linked'
    have entry := sameEntry_of_text numbers (free row (by simp) other (by simp)
      (hashed.symm.trans (tip.trans hashed'))) tip
    cases others using List.reverseRecOn with
    | nil => exact .cons entry .nil
    | append_singleton =>
      obtain ⟨-, -, own⟩ := (linked_concat js).mp before'
      refine (anchored_end anchored entry.seq own ?_).elim
      have same : row.prevHash = other.prevHash := entry.prevHash
      rw [chain, chain'] at same
      simpa [tipHash] using same.symm
  | append_singleton rows last ih =>
    obtain ⟨before, chain, hashed⟩ := (linked_concat js).mp linked
    obtain ⟨before', chain', hashed'⟩ := (linked_concat js).mp linked'
    have entry := sameEntry_of_text numbers (free row (by simp) other (by simp)
      (hashed.symm.trans (tip.trans hashed'))) tip
    have same : row.prevHash = other.prevHash := entry.prevHash
    rw [chain, chain'] at same
    cases others using List.reverseRecOn with
    | nil =>
      obtain ⟨-, -, own⟩ := (linked_concat js).mp before
      refine (anchored_end anchored.symm entry.seq.symm own ?_).elim
      simpa [tipHash] using same
    | append_singleton =>
      have rest := ih
        (fun one member two member' => free one (List.mem_append_left _ member)
          two (List.mem_append_left _ member'))
        (anchored.init (by simp) (by simp)) before before'
        (by simpa [tipHash] using same)
      have whole := List.rel_append rest (.cons entry .nil)
      simpa only [List.map_append, List.map_cons, List.map_nil] using whole

theorem linked_same (numbers : NumberTexts js) {rows others : List AuditRow}
    (free : ∀ one ∈ rows, ∀ two ∈ others, rowHash js one = rowHash js two →
      hashedText js (rowToEntry one).toBaseAuditEntry =
        hashedText js (rowToEntry two).toBaseAuditEntry)
    (anchored : Anchored js rows others) (linked : Linked js GENESIS_PREV_HASH rows)
    (linked' : Linked js GENESIS_PREV_HASH others)
    (tip : rows.getLast?.map AuditRow.hash = others.getLast?.map AuditRow.hash) :
    List.Forall₂ SameEntry (rows.map rowToEntry) (others.map rowToEntry) := by
  cases rows using List.reverseRecOn with
  | nil =>
    cases others using List.reverseRecOn with
    | nil => exact .nil
    | append_singleton => simp at tip
  | append_singleton rows =>
    cases others using List.reverseRecOn with
    | nil => simp at tip
    | append_singleton =>
      exact linked_cancel numbers rows free anchored linked linked'
        (by simpa using tip)

def walkedRows (table : AuditTable) : List AuditRow :=
  table.rows.filter fun row =>
    (none : Option Int).getD 1 ≤ row.seq ∧
      row.seq ≤ (none : Option Int).getD AuditTable.maxSafeInteger

theorem iterate_walked (table : AuditTable) :
    table.iterate none none = (walkedRows table).map rowToEntry := rfl

theorem walked_inOrder (table : AuditTable) : InOrder (walkedRows table) :=
  table.ordered.sublist List.filter_sublist

variable {first second : AuditTable}

theorem walked_anchored
    (anchored : startSeq first = startSeq second ∨ ∀ text ∈ walkedTexts js first ++
      walkedTexts js second, digest text ≠ GENESIS_PREV_HASH) :
    Anchored js (walkedRows first) (walkedRows second) := by
  rcases anchored with start | apart
  · refine .inl ⟨?_, walked_inOrder first, walked_inOrder second⟩
    simpa [startSeq, iterate_walked, Function.comp_def, rowToEntry] using start
  · refine .inr fun row member => apart _ ?_
    rw [walkedTexts, walkedTexts, ← List.map_append, iterate_walked, iterate_walked,
      ← List.map_append, List.map_map]
    exact List.mem_map_of_mem member

theorem walked_free (free : TextsDiffer (walkedTexts js first ++ walkedTexts js second)) :
    ∀ one ∈ walkedRows first, ∀ two ∈ walkedRows second,
      rowHash js one = rowHash js two →
      hashedText js (rowToEntry one).toBaseAuditEntry =
        hashedText js (rowToEntry two).toBaseAuditEntry := by
  intro one member two member' same
  refine free _ (List.mem_append_left _ ?_) _ (List.mem_append_right _ ?_)
    (digest_cancel same)
  · exact List.mem_map_of_mem (List.mem_map_of_mem member)
  · exact List.mem_map_of_mem (List.mem_map_of_mem member')

theorem walked_same (numbers : NumberTexts js)
    (free : TextsDiffer (walkedTexts js first ++ walkedTexts js second))
    (anchored : startSeq first = startSeq second ∨ ∀ text ∈ walkedTexts js first ++
      walkedTexts js second, digest text ≠ GENESIS_PREV_HASH)
    (tip : (first.iterate none none).getLast?.map StoredAuditEntry.hash =
      (second.iterate none none).getLast?.map StoredAuditEntry.hash)
    (passes : verifyAuditChain js first none none = .ok (.ok total))
    (passes' : verifyAuditChain js second none none = .ok (.ok total')) :
    List.Forall₂ SameEntry (first.iterate none none) (second.iterate none none) := by
  refine @linked_same js numbers (walkedRows first) (walkedRows second)
    (walked_free free) (walked_anchored anchored) (linked_of_verified passes)
    (linked_of_verified passes') ?_
  simpa [iterate_walked, Function.comp_def, rowToEntry] using tip

/-- Two logs that verify and end in the same hash hold the same entries from seq 1 on, so a
log that was changed before its tip does not verify. -/
theorem tip_binds_log (numbers : NumberTexts js) (first second : AuditTable)
    (free : TextsDiffer (walkedTexts js first ++ walkedTexts js second))
    (anchored : startSeq first = startSeq second ∨
      ∀ text ∈ walkedTexts js first ++ walkedTexts js second,
        digest text ≠ GENESIS_PREV_HASH)
    (tip : (first.iterate none none).getLast?.map StoredAuditEntry.hash =
      (second.iterate none none).getLast?.map StoredAuditEntry.hash)
    (passes : ∃ total, verifyAuditChain js first none none = .ok (.ok total)) :
    ((∃ total, verifyAuditChain js second none none = .ok (.ok total)) →
      List.Forall₂ SameEntry (first.iterate none none) (second.iterate none none)) ∧
    (¬ List.Forall₂ SameEntry (first.iterate none none) (second.iterate none none) →
      ∃ brokenAt expected actual, verifyAuditChain js second none none =
        .ok (.broken brokenAt expected actual)) := by
  obtain ⟨total, passes⟩ := passes
  refine ⟨?_, ?_⟩
  · rintro ⟨total', passes'⟩
    exact walked_same numbers free anchored tip passes passes'
  · intro changed
    rcases @verifyEntries_decides js none (walkedRows second) 0 [] with ends | breaks
    · exact absurd (walked_same numbers free anchored tip passes ends) changed
    · exact breaks

/-- Two reads of a secret, the first of them under this action. -/
def twoReads (action : JsText) : AuditTable where
  rows :=
    [⟨1, 1700000000000, ⟨.agent, ascii "planner", none⟩, action, ascii "api-key",
        .success, none, some (.obj [(ascii "attempts", .num 3)]), GENESIS_PREV_HASH,
        ascii "2caa91c30b3eb309a6d8960fda4a713e1c6d74ba63ddcb21ed1674be91ab6a4a"⟩,
      ⟨2, 1700000000000, ⟨.agent, ascii "planner", none⟩, ascii "secret:get",
        ascii "api-key", .success, none, none,
        ascii "2caa91c30b3eb309a6d8960fda4a713e1c6d74ba63ddcb21ed1674be91ab6a4a",
        ascii "8f38503830ee55832fbe1037962764abbe8db1ee2133d5f1d0d22380599af8f7"⟩]
  ordered := by simp
  distinct := by
    simp only [List.pairwise_cons, List.mem_singleton, forall_eq, List.not_mem_nil,
      false_implies, implies_true, List.Pairwise.nil, and_true]
    decide

theorem twoReads_verifies :
    verifyAuditChain plainRuntime (twoReads (ascii "secret:get")) none none =
      .ok (.ok 2) := by
  refine (verifyAuditChain_linked plainRuntime (by decide)).mpr ?_
  simp only [twoReads, Linked, rowHash, digest, sha256_settled, and_true, true_and]
  set_option maxRecDepth 20000 in decide

/-- A renamed first read is reported, though the tip is untouched. -/
theorem renamed_read_reported : ∃ brokenAt expected actual,
    verifyAuditChain plainRuntime (twoReads (ascii "secret:list")) none none =
      .ok (.broken brokenAt expected actual) := by
  refine (tip_binds_log plain_numbers (twoReads (ascii "secret:get"))
    (twoReads (ascii "secret:list")) (.of_settled (by set_option maxRecDepth 20000 in decide))
    (.inl (by decide)) (by decide) ⟨2, twoReads_verifies⟩).2 ?_
  intro same
  have head := (List.forall₂_cons.mp same).1.action
  exact absurd head (by decide)

/-- A row before the first seq the walk starts at. -/
def unwalkedRow : AuditRow :=
  ⟨0, 1700000000000, ⟨.agent, ascii "planner", none⟩, ascii "secret:get", ascii "api-key",
    .success, none, none, GENESIS_PREV_HASH, GENESIS_PREV_HASH⟩

def precededReads : AuditTable where
  rows := unwalkedRow :: (twoReads (ascii "secret:get")).rows
  ordered := by simp [twoReads, unwalkedRow]
  distinct := List.pairwise_cons.mpr
    ⟨List.forall_mem_cons.mpr ⟨by decide, List.forall_mem_singleton.mpr (by decide)⟩,
      (twoReads (ascii "secret:get")).distinct⟩

/-- The walk starts at seq 1: a row before it changes neither tip nor verdict. -/
theorem unwalked_row_unseen : ∃ (first second : AuditTable) (total : Nat),
    verifyAuditChain plainRuntime first none none = .ok (.ok total) ∧
    verifyAuditChain plainRuntime second none none = .ok (.ok total) ∧
    first.latest.map StoredAuditEntry.hash = second.latest.map StoredAuditEntry.hash ∧
    ¬ List.Forall₂ SameEntry (first.rows.map rowToEntry) (second.rows.map rowToEntry) := by
  refine ⟨twoReads (ascii "secret:get"), precededReads, 2, twoReads_verifies, ?_, rfl,
    fun same => absurd same.length_eq (by decide)⟩
  have walked : precededReads.iterate none none =
      (twoReads (ascii "secret:get")).iterate none none := rfl
  have verifies := twoReads_verifies
  rw [verifyAuditChain] at verifies ⊢
  rw [walked]
  exact verifies

end Graphorin.Audit
