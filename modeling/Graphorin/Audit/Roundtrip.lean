import Graphorin.Audit.Text
import Graphorin.Audit.Log

namespace Graphorin.Audit

open Graphorin.Js

/-! What a JSON column gives back, compared by canonical form. -/

variable (js : Runtime)

def sortFields (fields : List (JsText × Json)) : List (JsText × Json) :=
  fields.insertionSort fun first second => keyBefore js first.1 second.1 = true

mutual
/-- The value whose text `serialize` returns. -/
def Live.canonical : Live → Option Json
  | .undefined => none
  | .null => some .null
  | .bool value => some (.bool value)
  | .num value => some (.num value)
  | .nonFinite _ => none
  | .str text => some (.str text)
  | .bigint => none
  | .function => none
  | .symbol => none
  | .arr items => (Live.canonicalItems items).map .arr
  | .arrAs items _ => (Live.canonicalItems items).map .arr
  | .obj fields =>
    (Live.canonicalFields fields).map fun fields => .obj (sortFields js fields)
  | .objAs fields _ =>
    (Live.canonicalFields fields).map fun fields => .obj (sortFields js fields)

def Live.canonicalItems : List Live → Option (List Json)
  | [] => some []
  | item :: rest => do
      let first ← match item with
        | .undefined => some .null
        | item => item.canonical
      let others ← Live.canonicalItems rest
      pure (first :: others)

def Live.canonicalFields : List (JsText × Live) → Option (List (JsText × Json))
  | [] => some []
  | (key, value) :: rest =>
    match value with
    | .undefined => Live.canonicalFields rest
    | value => do
        let first ← value.canonical
        let others ← Live.canonicalFields rest
        pure ((key, first) :: others)
end

theorem objectText_sort (fields : List (JsText × Json)) :
    objectText js (fields.map fun field => (field.1, field.2.text js)) =
      (Json.obj (sortFields js fields)).text js := by
  rw [objectText, Json.text, fieldTexts_eq_map, sortEntries, sortFields,
    ← List.map_insertionSort (fun first second : JsText × Json =>
        keyBefore js first.1 second.1 = true) (fun first second : JsText × JsText =>
        keyBefore js first.1 second.1 = true)
      (fun field : JsText × Json => (field.1, field.2.text js)) fields
      (fun _ _ _ _ => Iff.rfl), List.map_map]
  rfl

mutual
theorem serialize_canonical : ∀ value : Live,
    (serialize js value).toOption = (value.canonical js).map (Json.text js)
  | .undefined => rfl
  | .null => rfl
  | .bool value => rfl
  | .num value => rfl
  | .nonFinite text => rfl
  | .str text => rfl
  | .bigint => rfl
  | .function => rfl
  | .symbol => rfl
  | .arr items => by
      have parts := serializeItems_canonical items
      rw [serialize, Live.canonical]
      cases served : serializeItems js items <;>
        cases canonical : Live.canonicalItems js items <;>
          simp_all [Except.toOption, Except.map, Json.text, arrayText]
  | .arrAs items written => by
      have parts := serializeItems_canonical items
      rw [serialize, Live.canonical]
      cases served : serializeItems js items <;>
        cases canonical : Live.canonicalItems js items <;>
          simp_all [Except.toOption, Except.map, Json.text, arrayText]
  | .obj fields => by
      have entries := serializeFields_canonical fields
      rw [serialize, Live.canonical]
      cases served : serializeFields js fields <;>
        cases canonical : Live.canonicalFields js fields <;>
          simp_all [Except.toOption, Except.map, objectText_sort]
  | .objAs fields written => by
      have entries := serializeFields_canonical fields
      rw [serialize, Live.canonical]
      cases served : serializeFields js fields <;>
        cases canonical : Live.canonicalFields js fields <;>
          simp_all [Except.toOption, Except.map, objectText_sort]

theorem serializeItems_canonical : ∀ items : List Live,
    (serializeItems js items).toOption =
      (Live.canonicalItems js items).map (Json.texts js)
  | [] => rfl
  | item :: rest => by
      have parts := serializeItems_canonical rest
      by_cases omitted : item = .undefined
      · rw [omitted, serializeItems, Live.canonicalItems]
        cases served : serializeItems js rest <;>
          cases canonical : Live.canonicalItems js rest <;>
            simp_all [Except.toOption, bind, Except.bind, pure, Except.pure,
              Json.texts, Json.text]
      · have part := serialize_canonical item
        rw [serializeItems, Live.canonicalItems]
        · cases first : serialize js item <;>
            cases value : item.canonical js <;>
              cases served : serializeItems js rest <;>
                cases canonical : Live.canonicalItems js rest <;>
                  simp_all [Except.toOption, bind, Except.bind, pure, Except.pure,
                    Json.texts]
        · exact omitted
        · exact omitted

theorem serializeFields_canonical : ∀ fields : List (JsText × Live),
    (serializeFields js fields).toOption = (Live.canonicalFields js fields).map
        (List.map fun field => (field.1, field.2.text js))
  | [] => rfl
  | (key, value) :: rest => by
      have parts := serializeFields_canonical rest
      by_cases omitted : value = .undefined
      · rw [omitted, serializeFields, Live.canonicalFields, parts]
      · have part := serialize_canonical value
        rw [serializeFields, Live.canonicalFields]
        · cases first : serialize js value <;>
            cases value : value.canonical js <;>
              cases served : serializeFields js rest <;>
                cases canonical : Live.canonicalFields js rest <;>
                  simp_all [Except.toOption, bind, Except.bind, pure, Except.pure]
        · exact omitted
        · exact omitted
end

mutual
/-- Whatever `JSON.stringify` replaces, it replaces by a value of the same
canonical form. -/
def Live.Kept : Live → Prop
  | .arr items => Live.KeptItems items
  | .obj fields => Live.KeptFields fields
  | .arrAs items written =>
    ∃ json, written = some json ∧
      json.live.canonical js = (Live.arr items).canonical js
  | .objAs fields written =>
    ∃ json, written = some json ∧
      json.live.canonical js = (Live.obj fields).canonical js
  | _ => True

def Live.KeptItems : List Live → Prop
  | [] => True
  | item :: rest => item.Kept ∧ Live.KeptItems rest

def Live.KeptFields : List (JsText × Live) → Prop
  | [] => True
  | (_, value) :: rest => value.Kept ∧ Live.KeptFields rest
end

mutual
/-- No object has two members of one name. -/
def Live.Distinct : Live → Prop
  | .arr items => Live.DistinctItems items
  | .obj fields => (fields.map Prod.fst).Nodup ∧ Live.DistinctFields fields
  | _ => True

def Live.DistinctItems : List Live → Prop
  | [] => True
  | item :: rest => item.Distinct ∧ Live.DistinctItems rest

def Live.DistinctFields : List (JsText × Live) → Prop
  | [] => True
  | (_, value) :: rest => value.Distinct ∧ Live.DistinctFields rest
end

variable {js}

theorem pair_cancel : ∀ {first second : List (JsText × Json)},
    first.map Prod.fst = second.map Prod.fst → (first.map Prod.fst).Nodup →
    first.Perm second → first = second
  | [], [], _, _, _ => rfl
  | (key, value) :: first, (key', value') :: second, keys, nodup, perm => by
      simp only [List.map_cons, List.cons.injEq] at keys
      obtain ⟨rfl, keys⟩ := keys
      simp only [List.map_cons, List.nodup_cons] at nodup
      have member : (key, value) ∈ (key, value') :: second :=
        perm.subset List.mem_cons_self
      have same : value = value' := by
        rcases List.mem_cons.mp member with here | later
        · exact (Prod.mk.inj here).2
        · have listed : key ∈ second.map Prod.fst :=
            List.mem_map_of_mem (f := Prod.fst) later
          rw [← keys] at listed
          exact absurd listed nodup.1
      subst same
      rw [pair_cancel keys nodup.2 (List.perm_cons (key, value) |>.mp perm)]

/-- Sorting tells fields apart, also from fewer of the same names. -/
theorem sort_cancel (fewer : (second.map Prod.fst).Sublist (first.map Prod.fst))
    (nodup : (first.map Prod.fst).Nodup) (same : sortFields js first = sortFields js second)
    : first = second := by
  have perm : first.Perm second := by
    have left := List.perm_insertionSort (fun first second : JsText × Json =>
      keyBefore js first.1 second.1 = true) first
    have right := List.perm_insertionSort (fun first second : JsText × Json =>
      keyBefore js first.1 second.1 = true) second
    rw [sortFields, sortFields] at same
    exact left.symm.trans (same ▸ right)
  have keys : second.map Prod.fst = first.map Prod.fst :=
    fewer.eq_of_length (by simp [perm.length_eq])
  exact pair_cancel keys.symm nodup perm

theorem canonicalItems_cons {rest : List Live} {canonical : List Json}
    (defined : item ≠ .undefined) :
    Live.canonicalItems js (item :: rest) = some canonical ↔
      ∃ first others, item.canonical js = some first ∧
        Live.canonicalItems js rest = some others ∧
        canonical = first :: others := by
  rw [Live.canonicalItems]
  · cases item.canonical js with
    | none => simp
    | some =>
      cases Live.canonicalItems js rest with
      | none => simp
      | some => simp [eq_comm]
  · exact defined

theorem canonicalFields_cons {key : JsText} {rest : List (JsText × Live)}
    {canonical : List (JsText × Json)} (defined : value ≠ .undefined) :
    Live.canonicalFields js ((key, value) :: rest) = some canonical ↔
      ∃ first others, value.canonical js = some first ∧
        Live.canonicalFields js rest = some others ∧
        canonical = (key, first) :: others := by
  rw [Live.canonicalFields]
  · cases value.canonical js with
    | none => simp
    | some =>
      cases Live.canonicalFields js rest with
      | none => simp
      | some => simp [eq_comm]
  · exact defined

/-- Members that are serialised, in their order. -/
theorem canonicalFields_keys : ∀ {fields : List (JsText × Live)}
    {canonical : List (JsText × Json)},
    Live.canonicalFields js fields = some canonical →
    (canonical.map Prod.fst).Sublist (fields.map Prod.fst)
  | [], canonical, served => by
      cases served
      exact .slnil
  | (key, value) :: rest, canonical, served => by
      by_cases omitted : value = .undefined
      · rw [omitted, Live.canonicalFields] at served
        exact (canonicalFields_keys served).cons _
      · obtain ⟨first, others, -, tail, rfl⟩ :=
          (canonicalFields_cons omitted).mp served
        exact (canonicalFields_keys tail).cons_cons key

theorem canonicalFields_member : ∀ {fields : List (JsText × Live)}
    {canonical : List (JsText × Json)} {field : JsText × Live},
    Live.canonicalFields js fields = some canonical → field ∈ fields →
    field.2 ≠ .undefined → ∃ form, field.2.canonical js = some form
  | (key, value) :: rest, canonical, field, served, member, defined => by
      by_cases omitted : value = .undefined
      · rw [omitted, Live.canonicalFields] at served
        rcases List.mem_cons.mp member with rfl | later
        · exact absurd omitted defined
        · exact canonicalFields_member served later defined
      · obtain ⟨first, others, head, tail, rfl⟩ :=
          (canonicalFields_cons omitted).mp served
        rcases List.mem_cons.mp member with rfl | later
        · exact ⟨first, head⟩
        · exact canonicalFields_member tail later defined

theorem writtenFields_keys : ∀ {fields : List (JsText × Live)}
    {canonical : List (JsText × Json)},
    Live.canonicalFields js fields = some canonical →
    ((Live.writtenFields fields).map Prod.fst).Sublist (canonical.map Prod.fst)
  | [], canonical, served => by
      cases served
      exact .slnil
  | (key, value) :: rest, canonical, served => by
      by_cases omitted : value = .undefined
      · rw [omitted, Live.canonicalFields] at served
        rw [omitted, Live.writtenFields]
        exact writtenFields_keys served
      · obtain ⟨first, others, -, tail, rfl⟩ :=
          (canonicalFields_cons omitted).mp served
        rw [Live.writtenFields]
        cases value.written with
        | none => exact (writtenFields_keys tail).cons _
        | some => exact (writtenFields_keys tail).cons_cons key

theorem liveFields_keys (fields : List (JsText × Json)) :
    (Json.liveFields fields).map Prod.fst = fields.map Prod.fst := by
  induction fields with
  | nil => rfl
  | cons field _ ih =>
    obtain ⟨key, value⟩ := field
    rw [Json.liveFields, List.map_cons, ih, List.map_cons]

theorem live_canonical (value : Json) :
    ∃ canonical, value.live.canonical js = some canonical := by
  obtain ⟨text, served⟩ := serialize_live js value
  have same := serialize_canonical js value.live
  rw [served] at same
  cases found : value.live.canonical js with
  | none =>
    rw [found] at same
    cases same
  | some canonical => exact ⟨canonical, rfl⟩

theorem omitted_not_null {value : Live} {canonical : Json}
    (omitted : value.written = none)
    (served : value.canonical js = some canonical) : canonical ≠ .null := by
  rintro rfl
  cases value with
  | arrAs items =>
    rw [Live.canonical] at served
    cases items' : Live.canonicalItems js items <;> simp_all
  | objAs fields =>
    rw [Live.canonical] at served
    cases fields' : Live.canonicalFields js fields <;> simp_all
  | _ => simp [Live.canonical, Live.written] at served omitted

mutual
/-- A value that can be serialised comes back with the same canonical form
exactly when it is kept. -/
theorem kept_iff : ∀ (value : Live) {canonical : Json},
    value.canonical js = some canonical → value.Distinct →
    (value.Kept js ↔ ∃ json, value.written = some json ∧
      json.live.canonical js = some canonical)
  | .undefined, canonical, served, _ => by cases served
  | .null, canonical, served, _ => by
      simpa [Live.Kept, Live.written, Json.live] using served
  | .bool value, canonical, served, _ => by
      simpa [Live.Kept, Live.written, Json.live] using served
  | .num value, canonical, served, _ => by
      simpa [Live.Kept, Live.written, Json.live] using served
  | .nonFinite text, canonical, served, _ => by cases served
  | .str text, canonical, served, _ => by
      simpa [Live.Kept, Live.written, Json.live] using served
  | .bigint, canonical, served, _ => by cases served
  | .function, canonical, served, _ => by cases served
  | .symbol, canonical, served, _ => by cases served
  | .arrAs items written, canonical, served, _ => by
      rw [Live.Kept, Live.written, ← served]
      rfl
  | .objAs fields written, canonical, served, _ => by
      rw [Live.Kept, Live.written, ← served]
      rfl
  | .arr items, canonical, served, distinct => by
      rw [Live.canonical] at served
      obtain ⟨items', found, rfl⟩ := Option.map_eq_some_iff.mp served
      rw [Live.Kept, keptItems_iff items found distinct]
      simp [Live.written, Json.live, Live.canonical]
  | .obj fields, canonical, served, distinct => by
      rw [Live.canonical] at served
      obtain ⟨fields', found, rfl⟩ := Option.map_eq_some_iff.mp served
      rw [Live.Kept, keptFields_iff fields found distinct.2]
      simp only [Live.written, Option.some.injEq, exists_eq_left', Json.live,
        Live.canonical, Option.map_eq_some_iff, Json.obj.injEq]
      constructor
      · intro same
        exact ⟨fields', same, rfl⟩
      · rintro ⟨others, served', same⟩
        have keys := canonicalFields_keys served'
        rw [liveFields_keys] at keys
        have nodup := distinct.1.sublist (canonicalFields_keys found)
        rw [served', sort_cancel (keys.trans (writtenFields_keys found)) nodup
          same.symm]

theorem keptItems_iff : ∀ (items : List Live) {canonical : List Json},
    Live.canonicalItems js items = some canonical → Live.DistinctItems items →
    (Live.KeptItems js items ↔
      Live.canonicalItems js (Json.liveItems (Live.writtenItems items)) =
        some canonical)
  | [], canonical, served, _ => by
      simpa [Live.KeptItems, Live.writtenItems, Json.liveItems] using served
  | item :: rest, canonical, served, distinct => by
      rw [Live.KeptItems, Live.writtenItems, Json.liveItems,
        canonicalItems_cons (Json.live_defined _)]
      by_cases omitted : item = .undefined
      · subst omitted
        rw [Live.canonicalItems] at served
        cases others : Live.canonicalItems js rest with
        | none =>
          rw [others] at served
          cases served
        | some =>
          rw [others] at served
          cases served
          rw [keptItems_iff rest others distinct.2]
          simp [Live.Kept, Live.written, Json.live, Live.canonical]
      · obtain ⟨first, others, head, tail, rfl⟩ :=
          (canonicalItems_cons omitted).mp served
        rw [kept_iff item head distinct.1, keptItems_iff rest tail distinct.2]
        cases written : item.written with
        | none =>
          have apart := omitted_not_null written head
          simp [Json.live, Live.canonical, eq_comm, apart]
        | some =>
          simp only [Option.some.injEq, exists_eq_left', Option.getD_some,
            List.cons.injEq]
          constructor
          · rintro ⟨same, same'⟩
            exact ⟨first, others, same, same', rfl, rfl⟩
          · rintro ⟨_, _, same, same', rfl, rfl⟩
            exact ⟨same, same'⟩

theorem keptFields_iff : ∀ (fields : List (JsText × Live))
    {canonical : List (JsText × Json)},
    Live.canonicalFields js fields = some canonical → Live.DistinctFields fields →
    (Live.KeptFields js fields ↔
      Live.canonicalFields js (Json.liveFields (Live.writtenFields fields)) =
        some canonical)
  | [], canonical, served, _ => by
      simpa [Live.KeptFields, Live.writtenFields, Json.liveFields] using served
  | (key, value) :: rest, canonical, served, distinct => by
      by_cases omitted : value = .undefined
      · subst omitted
        rw [Live.canonicalFields] at served
        rw [Live.KeptFields, Live.writtenFields, keptFields_iff rest served distinct.2]
        simp [Live.Kept, Live.written]
      · obtain ⟨first, others, head, tail, rfl⟩ :=
          (canonicalFields_cons omitted).mp served
        rw [Live.KeptFields, Live.writtenFields, kept_iff value head distinct.1,
          keptFields_iff rest tail distinct.2]
        cases written : value.written with
        | none =>
          simp only [reduceCtorEq, false_and, exists_false, false_iff]
          intro same
          have keys := canonicalFields_keys same
          rw [liveFields_keys] at keys
          have shorter := (keys.trans (writtenFields_keys tail)).length_le
          simp only [List.length_map, List.length_cons] at shorter
          omega
        | some =>
          simp only [Option.some.injEq, exists_eq_left', Json.liveFields]
          rw [canonicalFields_cons (Json.live_defined _)]
          simp only [List.cons.injEq, Prod.mk.injEq, true_and]
          constructor
          · rintro ⟨same, same'⟩
            exact ⟨first, others, same, same', rfl, rfl⟩
          · rintro ⟨_, _, same, same', rfl, rfl⟩
            exact ⟨same, same'⟩
end

def SameShape (field other : JsText × Live) : Prop :=
  field.1 = other.1 ∧ (field.2 = .undefined ↔ other.2 = .undefined)

def SameForm (js : Runtime) (field other : JsText × Live) : Prop :=
  field.2.canonical js = other.2.canonical js

theorem fields_same (shape : List.Forall₂ SameShape fields others)
    (served : Live.canonicalFields js fields = some canonical)
    (served' : Live.canonicalFields js others = some canonical') :
    canonical.map Prod.fst = canonical'.map Prod.fst ∧
      (canonical = canonical' ↔ List.Forall₂ (SameForm js) fields others) := by
  induction shape generalizing canonical canonical' with
  | nil =>
    cases served
    cases served'
    simp
  | @cons field other rest rest' same shape ih =>
    obtain ⟨key, value⟩ := field
    obtain ⟨key', value'⟩ := other
    obtain ⟨keys, omission⟩ := same
    simp only at keys omission
    subst keys
    by_cases omitted : value = .undefined
    · obtain rfl := omission.mp omitted
      subst omitted
      rw [Live.canonicalFields] at served served'
      obtain ⟨names, equal⟩ := ih served served'
      refine ⟨names, ?_⟩
      rw [equal, List.forall₂_cons]
      exact ⟨fun all => ⟨rfl, all⟩, fun both => both.2⟩
    · obtain ⟨first, tail, head, rest, rfl⟩ :=
        (canonicalFields_cons omitted).mp served
      obtain ⟨first', tail', head', rest', rfl⟩ :=
        (canonicalFields_cons (fun other => omitted (omission.mpr other))).mp served'
      obtain ⟨names, equal⟩ := ih rest rest'
      refine ⟨by rw [List.map_cons, List.map_cons, names], ?_⟩
      rw [List.forall₂_cons, ← equal]
      simp [SameForm, head, head']

/-- Objects with the same members have the same canonical form exactly when
their members have. -/
theorem object_same (shape : List.Forall₂ SameShape fields others)
    (nodup : (fields.map Prod.fst).Nodup)
    (served : (Live.obj fields).canonical js = some canonical)
    (served' : (Live.obj others).canonical js = some canonical') :
    canonical = canonical' ↔ List.Forall₂ (SameForm js) fields others := by
  rw [Live.canonical] at served served'
  obtain ⟨entries, found, rfl⟩ := Option.map_eq_some_iff.mp served
  obtain ⟨entries', found', rfl⟩ := Option.map_eq_some_iff.mp served'
  obtain ⟨names, equal⟩ := fields_same shape found found'
  rw [← equal, Json.obj.injEq]
  constructor
  · intro sorted
    refine sort_cancel ?_ (nodup.sublist (canonicalFields_keys found)) sorted
    rw [names]
  · rintro rfl
    rfl

end Graphorin.Audit
