import Mathlib.Data.List.Basic
import Mathlib.Data.List.Sort

namespace Graphorin.Lib

/-! A map that remembers the order in which its keys were first set. -/

structure OrderedMap (κ ν : Type) where
  entries : List (κ × ν)
  distinct : (entries.map Prod.fst).Nodup

namespace OrderedMap

variable {κ ν : Type} [DecidableEq κ]

def empty : OrderedMap κ ν := ⟨[], .nil⟩

def get (map : OrderedMap κ ν) (key : κ) : Option ν :=
  (map.entries.find? fun entry => entry.1 = key).map Prod.snd

def keys (map : OrderedMap κ ν) : List κ := map.entries.map Prod.fst

def set (map : OrderedMap κ ν) (key : κ) (value : ν) : OrderedMap κ ν where
  entries :=
    if key ∈ map.keys then
      map.entries.map fun entry => if entry.1 = key then (key, value) else entry
    else map.entries ++ [(key, value)]
  distinct := by
    split
    · have same : (map.entries.map fun entry =>
          if entry.1 = key then (key, value) else entry).map Prod.fst =
          map.entries.map Prod.fst := by
        rw [List.map_map]
        apply List.map_congr_left
        intro entry _
        by_cases here : entry.1 = key
        · simp [here]
        · simp [here]
      rw [same]
      exact map.distinct
    · rename_i fresh
      rw [List.map_append, List.nodup_append]
      refine ⟨map.distinct, by simp, ?_⟩
      rintro first member second here rfl
      simp only [List.map_cons, List.map_nil, List.mem_singleton] at here
      exact fresh (here ▸ member)

def delete (map : OrderedMap κ ν) (key : κ) : OrderedMap κ ν where
  entries := map.entries.filter fun entry => entry.1 ≠ key
  distinct := map.distinct.sublist (List.filter_sublist.map Prod.fst)

@[simp] theorem get_empty (key : κ) : (empty : OrderedMap κ ν).get key = none := rfl

variable {map : OrderedMap κ ν} {key : κ}

variable {value : ν}

theorem get_eq_some : map.get key = some value ↔ (key, value) ∈ map.entries := by
  rw [get, Option.map_eq_some_iff]
  constructor
  · rintro ⟨⟨key', value'⟩, found, rfl⟩
    have here := List.find?_some found
    simp only [decide_eq_true_eq] at here
    exact here ▸ List.mem_of_find?_eq_some found
  · intro member
    cases found : map.entries.find? fun entry => entry.1 = key with
    | none =>
      have absent := List.find?_eq_none.mp found (key, value) member
      simp at absent
    | some entry =>
      have here := List.find?_some found
      simp only [decide_eq_true_eq] at here
      have same := List.inj_on_of_nodup_map map.distinct
        (List.mem_of_find?_eq_some found) member here
      exact ⟨entry, rfl, by rw [same]⟩

theorem mem_keys : key ∈ map.keys ↔ ∃ value, map.get key = some value := by
  simp only [keys, List.mem_map, get_eq_some]
  constructor
  · rintro ⟨⟨key', value⟩, member, rfl⟩
    exact ⟨value, member⟩
  · rintro ⟨value, member⟩
    exact ⟨_, member, rfl⟩

theorem get_eq_none : map.get key = none ↔ key ∉ map.keys := by
  rw [mem_keys, not_exists]
  cases map.get key with
  | none => simp
  | some => simp

theorem mem_set {other : κ} {value' : ν} :
    (other, value') ∈ (map.set key value).entries ↔ (other = key ∧ value' = value) ∨
        other ≠ key ∧ (other, value') ∈ map.entries := by
  rw [set]
  split
  · rename_i known
    obtain ⟨old, stored⟩ := mem_keys.mp known
    rw [get_eq_some] at stored
    simp only [List.mem_map]
    constructor
    · rintro ⟨entry, member, shape⟩
      split at shape
      · obtain ⟨rfl, rfl⟩ := Prod.mk.inj shape
        exact .inl ⟨rfl, rfl⟩
      · rename_i apart
        subst shape
        exact .inr ⟨apart, member⟩
    · rintro (⟨rfl, rfl⟩ | ⟨apart, member⟩)
      · exact ⟨_, stored, if_pos rfl⟩
      · exact ⟨_, member, if_neg apart⟩
  · rename_i fresh
    simp only [List.mem_append, List.mem_singleton, Prod.mk.injEq]
    constructor
    · rintro (member | here)
      · refine .inr ⟨?_, member⟩
        rintro rfl
        exact fresh (List.mem_map_of_mem (f := Prod.fst) member)
      · exact .inl here
    · rintro (here | ⟨-, member⟩)
      · exact .inr here
      · exact .inl member

theorem get_set (map : OrderedMap κ ν) (key other : κ) (value : ν) :
    (map.set key value).get other =
      if other = key then some value else map.get other := by
  ext value'
  rw [get_eq_some, mem_set]
  split
  · rename_i here
    simp [here, eq_comm]
  · rename_i apart
    simp [apart, get_eq_some]

theorem get_delete (map : OrderedMap κ ν) (key other : κ) :
    (map.delete key).get other = if other = key then none else map.get other := by
  ext value
  rw [get_eq_some, delete]
  split
  · rename_i here
    simp [here]
  · rename_i apart
    simp [apart, get_eq_some]

def modify (map : OrderedMap κ ν) (key : κ) (change : ν → ν) : OrderedMap κ ν :=
  match map.get key with
  | some value => map.set key (change value)
  | none => map

theorem get_modify (map : OrderedMap κ ν) (key other : κ) (change : ν → ν) :
    (map.modify key change).get other =
      if other = key then (map.get key).map change else map.get other := by
  rw [modify]
  split
  · rename_i value there
    rw [get_set, there]
    rfl
  · rename_i absent
    split
    · rename_i here
      rw [here, absent]
      rfl
    · rfl

theorem keys_set (known : key ∈ map.keys) (value : ν) :
    (map.set key value).keys = map.keys := by
  have entries : (map.set key value).entries =
      map.entries.map fun entry => if entry.1 = key then (key, value) else entry :=
    if_pos known
  rw [keys, entries, List.map_map]
  refine List.map_congr_left fun entry _ => ?_
  by_cases here : entry.1 = key
  · simp [here]
  · simp [here]

def deleteAll (map : OrderedMap κ ν) (dropped : List κ) : OrderedMap κ ν :=
  dropped.foldl delete map

theorem get_deleteAll (map : OrderedMap κ ν) (dropped : List κ) (other : κ) :
    (map.deleteAll dropped).get other =
      if other ∈ dropped then none else map.get other := by
  induction dropped generalizing map with
  | nil => simp [deleteAll]
  | cons key _ ih =>
    rw [deleteAll, List.foldl_cons, ← deleteAll, ih, get_delete]
    by_cases here : other = key
    · simp [here]
    · simp [here]

/-- A loop over keys, seen from one of them: the turns of the others change
nothing, and a second turn of its own changes nothing more. -/
theorem foldl_once {σ τ : Type} (seen : σ → τ) (turn : τ → τ) (body : σ → κ → σ)
    (key : κ) (own : ∀ state, seen (body state key) = turn (seen state))
    (others : ∀ state other, other ≠ key → seen (body state other) = seen state)
    (again : ∀ shown, turn (turn shown) = turn shown) (keys : List κ) (state : σ) :
    seen (keys.foldl body state) =
      if key ∈ keys then turn (seen state) else seen state := by
  induction keys generalizing state with
  | nil => rfl
  | cons head _ ih =>
    rw [List.foldl_cons, ih]
    by_cases here : head = key
    · subst here
      rw [own, again, ite_self, if_pos List.mem_cons_self]
    · rw [others _ _ here]
      simp [Ne.symm here]

end OrderedMap

end Graphorin.Lib
