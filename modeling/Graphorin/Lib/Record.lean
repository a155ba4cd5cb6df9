import Mathlib.Data.List.Induction
import Mathlib.Logic.Basic

namespace Graphorin.Lib

/-! Insertion-ordered records: writing an existing key keeps its place, a new
key goes last. -/

abbrev Record (κ ν : Type) := List (κ × ν)

namespace Record

variable {κ ν : Type} [DecidableEq κ]

def get? : Record κ ν → κ → Option ν
  | [], _ => none
  | (k, v) :: rest, key => if k = key then some v else get? rest key

def set : Record κ ν → κ → ν → Record κ ν
  | [], key, value => [(key, value)]
  | (k, v) :: rest, key, value =>
    if k = key then (k, value) :: rest else (k, v) :: set rest key value

def erase (record : Record κ ν) (key : κ) : Record κ ν :=
  record.filter fun entry => entry.1 ≠ key

def has (record : Record κ ν) (key : κ) : Bool := (get? record key).isSome

def keys (record : Record κ ν) : List κ := record.map Prod.fst

/-- Copy the entries of `over` on top of `record`, in order. -/
def overlay (record past : Record κ ν) : Record κ ν :=
  past.foldl (fun acc entry => acc.set entry.1 entry.2) record

@[simp] theorem get?_nil (key : κ) : get? ([] : Record κ ν) key = none := rfl

theorem get?_cons (k : κ) (v : ν) (rest : Record κ ν) (key : κ) :
    get? ((k, v) :: rest) key = if k = key then some v else get? rest key := rfl

variable (record : Record κ ν)

@[simp] theorem get?_set_self (key : κ) (value : ν) :
    (record.set key value).get? key = some value := by
  induction record with
  | nil => simp [set, get?]
  | cons entry _ ih =>
    obtain ⟨k, v⟩ := entry
    by_cases same : k = key
    · simp [set, get?, same]
    · simp [set, get?, same, ih]

theorem get?_set_other {key other : κ} (value : ν) (different : other ≠ key) :
    (record.set key value).get? other = record.get? other := by
  induction record with
  | nil => simp [set, get?, different.symm]
  | cons entry _ ih =>
    obtain ⟨k, v⟩ := entry
    by_cases same : k = key
    · subst same
      simp [set, get?, different.symm]
    · by_cases hit : k = other
      · subst hit
        simp [set, get?, same]
      · simp [set, get?, same, hit, ih]

theorem get?_set (key other : κ) (value : ν) :
    (record.set key value).get? other =
      if other = key then some value else record.get? other := by
  by_cases same : other = key
  · subst same
    simp
  · rw [get?_set_other record value same, if_neg same]

theorem get?_erase (key other : κ) :
    (record.erase key).get? other =
      if other = key then none else record.get? other := by
  induction record with
  | nil => simp [erase]
  | cons entry rest ih =>
    obtain ⟨k, v⟩ := entry
    by_cases dropped : k = key
    · subst dropped
      have tail : erase ((k, v) :: rest) k = erase rest k := by
        simp [erase]
      rw [tail, ih, get?_cons]
      by_cases same : other = k
      · simp [same]
      · simp [same, Ne.symm same]
    · have kept : erase ((k, v) :: rest) key = (k, v) :: erase rest key := by
        simp [erase, dropped]
      rw [kept, get?_cons, get?_cons, ih]
      by_cases hit : k = other
      · subst hit
        simp [dropped]
      · simp [hit]

/-- What is copied on top is read first. -/
theorem get?_overlay {past : Record κ ν} (distinct : past.keys.Nodup) (key : κ) :
    (record.overlay past).get? key = (past.get? key).or (record.get? key) := by
  induction past generalizing record with
  | nil => rfl
  | cons entry rest ih =>
    obtain ⟨k, v⟩ := entry
    obtain ⟨fresh, others⟩ := List.nodup_cons.mp distinct
    have copied : overlay record ((k, v) :: rest) = overlay (record.set k v) rest := rfl
    rw [copied, ih (record.set k v) others, get?_set, get?_cons]
    by_cases same : key = k
    · subst same
      have absent : get? rest key = none := by
        clear ih copied distinct others
        induction rest with
        | nil => rfl
        | cons entry rest ih =>
          have apart := List.ne_and_not_mem_of_not_mem_cons fresh
          rw [get?, if_neg (Ne.symm apart.1)]
          exact ih apart.2
      rw [absent, if_pos rfl, if_pos rfl]
      rfl
    · rw [if_neg same, if_neg (Ne.symm same)]

end Record

section Grouping

/-! Grouping a list by a key.  Groups stand in the order in which their keys
first occur, and each keeps the order of the list. -/

variable {κ ν α : Type} [DecidableEq κ]

namespace Record

theorem keys_set (record : Record κ ν) (key : κ) (value : ν) :
    (record.set key value).keys =
      if key ∈ record.keys then record.keys else record.keys ++ [key] := by
  induction record with
  | nil => simp [set, keys]
  | cons entry rest ih =>
    obtain ⟨k, v⟩ := entry
    by_cases same : k = key
    · simp [set, keys, same]
    · have tail : (set rest key value).keys = _ := ih
      simp only [keys] at tail
      by_cases inside : key ∈ rest.map Prod.fst
      · simp [set, same, keys, tail, inside]
      · simp [set, same, keys, tail, inside, Ne.symm same]

variable {record : Record κ ν}

theorem keys_set_nodup (distinct : record.keys.Nodup) (key : κ) (value : ν) :
    (record.set key value).keys.Nodup := by
  rw [keys_set]
  split
  · exact distinct
  · rename_i absent
    rw [List.nodup_append]
    refine ⟨distinct, by simp, ?_⟩
    rintro other member _ here rfl
    exact absent (by rwa [← List.mem_singleton.mp here])

variable {key : κ}

theorem get?_eq_none : record.get? key = none ↔ key ∉ record.keys := by
  induction record with
  | nil => simp [keys]
  | cons entry _ ih =>
    obtain ⟨k, v⟩ := entry
    simp only [keys] at ih
    by_cases same : k = key
    · simp [get?, keys, same]
    · simp [get?, keys, same, ih, Ne.symm same]

theorem get?_eq_some (distinct : record.keys.Nodup) {value : ν} :
    record.get? key = some value ↔ (key, value) ∈ record := by
  induction record with
  | nil => simp
  | cons entry rest ih =>
    obtain ⟨k, v⟩ := entry
    obtain ⟨absent, distinct⟩ := List.nodup_cons.mp distinct
    by_cases same : k = key
    · subst same
      have elsewhere : (k, value) ∉ rest := fun member =>
        absent (List.mem_map.mpr ⟨_, member, rfl⟩)
      simp [get?, elsewhere, eq_comm]
    · simp [get?, same, ih distinct, Ne.symm same]

variable {first second : Record κ ν}

theorem get?_append_right (absent : key ∉ first.keys) :
    get? (first ++ second) key = second.get? key := by
  induction first with
  | nil => rfl
  | cons entry _ ih =>
    obtain ⟨k, v⟩ := entry
    simp only [keys, List.map_cons, List.mem_cons, not_or] at absent
    rw [List.cons_append, get?_cons, if_neg (Ne.symm absent.1)]
    exact ih absent.2

theorem set_append_right (value : ν) (absent : key ∉ first.keys) :
    set (first ++ second) key value = first ++ second.set key value := by
  induction first with
  | nil => rfl
  | cons entry _ ih =>
    obtain ⟨k, v⟩ := entry
    simp only [keys, List.map_cons, List.mem_cons, not_or] at absent
    rw [List.cons_append, set, if_neg (Ne.symm absent.1), ih absent.2]
    rfl

end Record

def groupOn (key : α → κ) (items : List α) : Record κ (List α) :=
  items.foldl
    (fun out item => out.set (key item) ((out.get? (key item)).getD [] ++ [item]))
    []

variable {key : α → κ}

theorem groupOn_concat (items : List α) (item : α) : groupOn key (items ++ [item]) =
      (groupOn key items).set (key item)
        (((groupOn key items).get? (key item)).getD [] ++ [item]) := by
  simp [groupOn]

theorem groupOn_nodup (items : List α) : (groupOn key items).keys.Nodup := by
  induction items using List.reverseRecOn with
  | nil => exact List.nodup_nil
  | append_singleton items item ih =>
    rw [groupOn_concat]
    exact Record.keys_set_nodup ih _ _

theorem get?_groupOn (items : List α) (k : κ) :
    (groupOn key items).get? k =
      if (items.filter fun item => key item = k) = [] then none
      else some (items.filter fun item => key item = k) := by
  induction items using List.reverseRecOn with
  | nil => simp [groupOn]
  | append_singleton items item ih =>
    rw [groupOn_concat, Record.get?_set, List.filter_append]
    by_cases same : k = key item
    · subst same
      rw [if_pos rfl, ih]
      by_cases empty : (items.filter fun other => key other = key item) = []
      · simp [empty]
      · simp [empty]
    · rw [if_neg same, ih]
      simp [Ne.symm same]

variable {items : List α} {k : κ}

theorem mem_groupOn {group : List α} : (k, group) ∈ groupOn key items ↔
      group = (items.filter fun item => key item = k) ∧ group ≠ [] := by
  rw [← Record.get?_eq_some (groupOn_nodup items), get?_groupOn]
  by_cases empty : (items.filter fun item => key item = k) = []
  · simp only [empty, if_true]
    constructor
    · rintro ⟨⟩
    · rintro ⟨rfl, occupied⟩
      exact absurd rfl occupied
  · rw [if_neg empty, Option.some.injEq]
    constructor
    · rintro rfl
      exact ⟨rfl, empty⟩
    · rintro ⟨rfl, -⟩
      rfl

theorem mem_groupOn_keys :
    k ∈ (groupOn key items).keys ↔ ∃ item ∈ items, key item = k := by
  rw [← not_iff_not, ← Record.get?_eq_none, get?_groupOn]
  simp

/-- Blocks with keys of their own are grouped block by block. -/
theorem groupOn_append {first second : List α}
    (apart : ∀ a ∈ first, ∀ b ∈ second, key a ≠ key b) :
    groupOn key (first ++ second) = groupOn key first ++ groupOn key second := by
  induction second using List.reverseRecOn with
  | nil => simp [groupOn]
  | append_singleton _ item ih =>
    have earlier := ih fun a inFirst b inSecond =>
      apart a inFirst b (List.mem_append_left _ inSecond)
    have absent : key item ∉ (groupOn key first).keys := by
      rw [mem_groupOn_keys]
      rintro ⟨other, member, same⟩
      exact apart other member item (by simp) same
    rw [← List.append_assoc, groupOn_concat, groupOn_concat, earlier,
      Record.get?_append_right absent, Record.set_append_right _ absent]

theorem groupOn_block (nonempty : items ≠ []) (block : ∀ item ∈ items, key item = k) :
    groupOn key items = [(k, items)] := by
  induction items using List.reverseRecOn with
  | nil => exact absurd rfl nonempty
  | append_singleton items item ih =>
    rw [groupOn_concat, block item (by simp)]
    by_cases empty : items = []
    · subst empty
      rfl
    · rw [ih empty fun other member => block other (by simp [member])]
      simp [Record.get?, Record.set]

end Grouping

end Graphorin.Lib
