import Graphorin.Js.Value
import Graphorin.Lib.OrderedMap
import Mathlib.Algebra.BigOperators.Group.List.Basic
import Mathlib.Algebra.Order.BigOperators.Group.List
import Mathlib.Algebra.Order.Field.Rat
import Mathlib.Data.List.Dedup
import Mathlib.Data.List.Induction
import Mathlib.Data.List.Pairwise
import Mathlib.Data.List.Sort
import Mathlib.Tactic.Linarith
import Mathlib.Tactic.NormNum

namespace Graphorin.Memory.RankFusion

open Graphorin.Lib
open Graphorin.Js

/-! Rank fusion: the lists are walked through once, each hit adding to what is held under
the id of its record, and the records come out by their scores. -/

section Model

variable {ι ρ : Type}

structure MemoryRecord (ι ρ : Type) where
  id : ι
  body : ρ
  deriving DecidableEq

abbrev Signals := OrderedMap String Rat

structure MemoryHit (ι ρ : Type) where
  record : MemoryRecord ι ρ
  score : Rat
  signals : Signals := .empty

structure FusedAggregate (ι ρ : Type) where
  record : MemoryRecord ι ρ
  score : Rat
  signals : Signals
  firstSeenOrder : Nat

/-- An entry of `weights` that is not a finite number is `none`. -/
abbrev Weights := Option (List (Option Rat))

def resolveWeight (weights : Weights) (index : Nat) : Rat :=
  match (weights.bind fun weights => weights[index]?).join with
  | some raw => if 0 ≤ raw then raw else 1
  | none => 1

def signalKey (labels : Option (List String)) (listIdx : Nat) : String :=
  "rrf." ++ ((labels.bind fun labels => labels[listIdx]?).getD ("list_" ++ toString listIdx))

def Signals.merge (signals carried : Signals) : Signals :=
  carried.entries.foldl (fun signals (key, value) =>
    if key ∈ signals.keys ∨ key ∈ objectPrototype then signals
    else OrderedMap.set signals key value) signals

structure Fusion (ι ρ : Type) where
  aggregates : OrderedMap ι (FusedAggregate ι ρ) := .empty
  nextOrder : Nat := 0

variable [DecidableEq ι]

def Fusion.absorb (fusion : Fusion ι ρ) (signalKey : String) (contribution : Rat)
    (hit : MemoryHit ι ρ) : Fusion ι ρ :=
  match fusion.aggregates.get hit.record.id with
  | none =>
    { aggregates := fusion.aggregates.set hit.record.id
        { record := hit.record
          score := contribution
          signals := (hit.signals.set "rrf" contribution).set signalKey contribution
          firstSeenOrder := fusion.nextOrder }
      nextOrder := fusion.nextOrder + 1 }
  | some existing =>
    let signals := existing.signals.set signalKey contribution
    let signals := signals.set "rrf" ((signals.get "rrf").getD 0 + contribution)
    { fusion with
      aggregates := fusion.aggregates.set hit.record.id
        { existing with
          score := existing.score + contribution
          signals := Signals.merge signals hit.signals } }

def fuseLists (lists : List (List (MemoryHit ι ρ))) (weights : Weights) (k : Rat)
    (labels : Option (List String)) : Fusion ι ρ :=
  lists.zipIdx.foldl (fun fusion (list, listIdx) =>
    let weight := resolveWeight weights listIdx
    list.zipIdx.foldl (fun fusion (hit, i) =>
      fusion.absorb (signalKey labels listIdx) (weight / (k + (i + 1 : Nat))) hit) fusion) {}

def Fusion.Ahead (fusion : Fusion ι ρ) (a b : MemoryHit ι ρ) : Prop :=
  let order (hit : MemoryHit ι ρ) :=
    (fusion.aggregates.get hit.record.id).elim 0 FusedAggregate.firstSeenOrder
  b.score < a.score ∨ a.score = b.score ∧ order a ≤ order b

instance (fusion : Fusion ι ρ) (a b : MemoryHit ι ρ) : Decidable (fusion.Ahead a b) :=
  inferInstanceAs (Decidable (_ ∨ _ ∧ _))

def fuseWeighted (lists : List (List (MemoryHit ι ρ))) (weights : Weights) (k : Rat)
    (labels : Option (List String)) : List (MemoryHit ι ρ) :=
  let fusion := fuseLists lists weights k labels
  let fused := fusion.aggregates.entries.map fun (_, aggregate) =>
    { record := aggregate.record, score := aggregate.score, signals := aggregate.signals }
  fused.insertionSort fusion.Ahead

def fuseRrf (lists : List (List (MemoryHit ι ρ))) (k : Rat)
    (labels : Option (List String)) : List (MemoryHit ι ρ) :=
  fuseWeighted lists none k labels

end Model

/-! The same as formulas over the visits: which hit of which list stood at which rank. -/

section Formula

variable {ι ρ : Type}

structure Visit (ι ρ : Type) where
  list : Nat
  rank : Nat
  hit : MemoryHit ι ρ

def Visit.id (visit : Visit ι ρ) : ι := visit.hit.record.id

def visits (lists : List (List (MemoryHit ι ρ))) : List (Visit ι ρ) :=
  lists.zipIdx.flatMap fun (list, listIdx) =>
    list.zipIdx.map fun (hit, i) => ⟨listIdx, i + 1, hit⟩

def Visit.contribution (weights : Weights) (k : Rat) (visit : Visit ι ρ) : Rat :=
  resolveWeight weights visit.list / (k + visit.rank)

def lastValue {κ : Type} [DecidableEq κ] : List (κ × Rat) → κ → Rat
  | [], _ => 0
  | (key, value) :: rest, other =>
    if other ∈ rest.map Prod.fst then lastValue rest other
    else if other = key then value else 0

variable [DecidableEq ι]

def visitsOf (lists : List (List (MemoryHit ι ρ))) (id : ι) : List (Visit ι ρ) :=
  (visits lists).filter fun visit => visit.id = id

def bestRanked (lists : List (List (MemoryHit ι ρ))) (weights : Weights) (k : Rat) (id : ι) :
    Rat :=
  (lists.zipIdx.map fun (list, listIdx) =>
    let ids := list.map fun hit => hit.record.id
    if id ∈ ids then resolveWeight weights listIdx / (k + (ids.idxOf id + 1 : Nat))
    else 0).sum

def ownSignals (lists : List (List (MemoryHit ι ρ))) (labels : Option (List String)) (id : ι) :
    List String :=
  ((visitsOf lists id).map fun visit => signalKey labels visit.list).dedup

end Formula

section LastValue

variable {κ : Type} [DecidableEq κ]

theorem lastValue_concat (entries : List (κ × Rat)) (key other : κ) (value : Rat) :
    lastValue (entries ++ [(key, value)]) other =
      if other = key then value else lastValue entries other := by
  induction entries with
  | nil => simp [lastValue]
  | cons entry rest ih =>
    obtain ⟨first, old⟩ := entry
    rw [List.cons_append, lastValue, ih, lastValue]
    by_cases here : other = key
    · simp [here]
    · have member : other ∈ (rest ++ [(key, value)]).map Prod.fst ↔
          other ∈ rest.map Prod.fst := by
        rw [List.map_append, List.mem_append, List.map_singleton, List.mem_singleton,
          or_iff_left here]
      rw [if_neg here, if_neg here]
      exact if_congr member rfl rfl

/-- Only the last value of each key is left in a map; the sum is the same exactly when the
values that were written over are nothing. -/
theorem sum_lastValue {entries : List (κ × Rat)}
    (positive : ∀ entry ∈ entries, 0 ≤ entry.2) :
    ((entries.map Prod.fst).dedup.map (lastValue entries)).sum ≤
        (entries.map Prod.snd).sum ∧ ((entries.map Prod.snd).sum =
          ((entries.map Prod.fst).dedup.map (lastValue entries)).sum ↔
        entries.Pairwise fun entry later => entry.1 = later.1 → entry.2 = 0) := by
  induction entries with
  | nil => simp
  | cons entry rest ih =>
    obtain ⟨key, value⟩ := entry
    obtain ⟨here, later⟩ := List.forall_mem_cons.mp positive
    obtain ⟨below, same⟩ := ih later
    rw [List.map_cons, List.map_cons, List.sum_cons, List.pairwise_cons, ← same]
    by_cases again : key ∈ rest.map Prod.fst
    · have shown : ((key :: rest.map Prod.fst).dedup.map
          (lastValue ((key, value) :: rest))) =
          (rest.map Prod.fst).dedup.map (lastValue rest) := by
        rw [List.dedup_cons_of_mem again]
        refine List.map_congr_left fun other member => ?_
        rw [lastValue, if_pos (List.mem_dedup.mp member)]
      have lost : (∀ other ∈ rest, key = other.1 → value = 0) ↔ value = 0 := by
        constructor
        · intro none
          obtain ⟨other, member, rfl⟩ := List.mem_map.mp again
          exact none other member rfl
        · exact fun none _ _ _ => none
      rw [shown, lost]
      dsimp only at here
      refine ⟨by linarith, ⟨fun total => ?_, fun ⟨nothing, total⟩ => ?_⟩⟩
      · exact ⟨by linarith, by linarith⟩
      · rw [nothing, zero_add, total]
    · have shown : ((key :: rest.map Prod.fst).dedup.map
          (lastValue ((key, value) :: rest))) =
          value :: (rest.map Prod.fst).dedup.map (lastValue rest) := by
        rw [List.dedup_cons_of_notMem again, List.map_cons, lastValue, if_neg again, if_pos rfl]
        refine congrArg _ (List.map_congr_left fun other member => ?_)
        rw [lastValue, if_pos (List.mem_dedup.mp member)]
      have lost : ∀ other ∈ rest, key = other.1 → value = 0 := by
        rintro other member rfl
        exact absurd (List.mem_map_of_mem member) again
      rw [shown, List.sum_cons, and_iff_right lost]
      exact ⟨by linarith, add_right_inj value⟩

end LastValue

theorem signalKey_ne (labels : Option (List String)) (listIdx : Nat) :
    signalKey labels listIdx ≠ "rrf" := by
  intro same
  have length := congrArg String.length same
  rw [signalKey, String.length_append] at length
  have dotted : "rrf.".length = 4 := rfl
  have plain : "rrf".length = 3 := rfl
  omega

theorem Signals.get_merge {signals : Signals} {key : String} {value : Rat} (carried : Signals)
    (there : signals.get key = some value) :
    (Signals.merge signals carried).get key = some value := by
  rw [Signals.merge]
  generalize carried.entries = entries
  induction entries generalizing signals with
  | nil => exact there
  | cons entry rest ih =>
    obtain ⟨name, number⟩ := entry
    rw [List.foldl_cons]
    refine ih ?_
    dsimp only
    split
    · exact there
    · rename_i fresh
      rw [OrderedMap.get_set, if_neg, there]
      rintro rfl
      exact fresh (Or.inl (OrderedMap.mem_keys.mpr ⟨value, there⟩))

section Tally

variable {ι ρ : Type} [DecidableEq ι] (weights : Weights) (k : Rat)
  (labels : Option (List String))

def Fusion.visit (fusion : Fusion ι ρ) (visit : Visit ι ρ) : Fusion ι ρ :=
  fusion.absorb (signalKey labels visit.list) (visit.contribution weights k) visit.hit

theorem fuseLists_eq (lists : List (List (MemoryHit ι ρ))) :
    fuseLists lists weights k labels =
      (visits lists).foldl (Fusion.visit weights k labels) {} := by
  rw [visits, List.foldl_flatMap, fuseLists]
  simp only [List.foldl_map]
  rfl

structure Tallied (own : List (Visit ι ρ)) (aggregate : FusedAggregate ι ρ) : Prop where
  score : aggregate.score = (own.map (Visit.contribution weights k)).sum
  rrf : aggregate.signals.get "rrf" = some aggregate.score
  signals : ∀ key ∈ own.map fun visit => signalKey labels visit.list,
    aggregate.signals.get key = some (lastValue
      (own.map fun visit => (signalKey labels visit.list, visit.contribution weights k)) key)

structure Tally (visits : List (Visit ι ρ)) (fusion : Fusion ι ρ) : Prop where
  known : ∀ id, id ∈ fusion.aggregates.keys ↔ id ∈ visits.map Visit.id
  record : ∀ id aggregate, fusion.aggregates.get id = some aggregate → aggregate.record.id = id
  tallied : ∀ id aggregate, fusion.aggregates.get id = some aggregate →
    Tallied weights k labels (visits.filter fun visit => visit.id = id) aggregate
  early : ∀ id aggregate, fusion.aggregates.get id = some aggregate →
    aggregate.firstSeenOrder < fusion.nextOrder
  order : ∀ first second aggregate other, fusion.aggregates.get first = some aggregate →
    fusion.aggregates.get second = some other →
    (aggregate.firstSeenOrder ≤ other.firstSeenOrder ↔
      (visits.map Visit.id).idxOf first ≤ (visits.map Visit.id).idxOf second)

theorem absorb_fresh {fusion : Fusion ι ρ} {hit : MemoryHit ι ρ}
    (fresh : fusion.aggregates.get hit.record.id = none) (key : String) (contribution : Rat) :
    fusion.absorb key contribution hit =
      { aggregates := fusion.aggregates.set hit.record.id
          { record := hit.record
            score := contribution
            signals := (hit.signals.set "rrf" contribution).set key contribution
            firstSeenOrder := fusion.nextOrder }
        nextOrder := fusion.nextOrder + 1 } := by
  rw [Fusion.absorb, fresh]

theorem absorb_known {fusion : Fusion ι ρ} {hit : MemoryHit ι ρ}
    {existing : FusedAggregate ι ρ}
    (known : fusion.aggregates.get hit.record.id = some existing) (key : String)
    (contribution : Rat) : ∃ signals : Signals, fusion.absorb key contribution hit =
        { fusion with
          aggregates := fusion.aggregates.set hit.record.id
            { existing with score := existing.score + contribution, signals } } ∧
      (key ≠ "rrf" → signals.get key = some contribution) ∧
      (∀ other value, other ≠ key → other ≠ "rrf" → existing.signals.get other = some value →
        signals.get other = some value) ∧
      (key ≠ "rrf" → signals.get "rrf" =
        some ((existing.signals.get "rrf").getD 0 + contribution)) := by
  rw [Fusion.absorb, known]
  refine ⟨_, rfl, ?_, ?_, ?_⟩
  · intro apart
    apply Signals.get_merge
    rw [OrderedMap.get_set, if_neg apart, OrderedMap.get_set, if_pos rfl]
  · intro other value apart apart' there
    apply Signals.get_merge
    rw [OrderedMap.get_set, if_neg apart', OrderedMap.get_set, if_neg apart, there]
  · intro apart
    apply Signals.get_merge
    rw [OrderedMap.get_set, if_pos rfl, OrderedMap.get_set, if_neg apart.symm]

omit [DecidableEq ι] in
theorem tallied_fresh (visit : Visit ι ρ) (record : MemoryRecord ι ρ) (signals : Signals)
    (firstSeenOrder : Nat) : Tallied weights k labels [visit]
      { record
        score := visit.contribution weights k
        signals := (signals.set "rrf" (visit.contribution weights k)).set
          (signalKey labels visit.list) (visit.contribution weights k)
        firstSeenOrder } where
  score := by
    rw [List.map_singleton, List.sum_singleton]
  rrf := by
    rw [OrderedMap.get_set, if_neg (signalKey_ne labels visit.list).symm, OrderedMap.get_set,
      if_pos rfl]
  signals := by
    intro key member
    rw [List.map_singleton, List.mem_singleton] at member
    subst member
    rw [OrderedMap.get_set, if_pos rfl]
    simp [lastValue]

omit [DecidableEq ι] in
theorem Tallied.concat {own : List (Visit ι ρ)} {existing : FusedAggregate ι ρ}
    (tallied : Tallied weights k labels own existing) (visit : Visit ι ρ) {signals : Signals}
    (here : signals.get (signalKey labels visit.list) = some (visit.contribution weights k))
    (others : ∀ other value, other ≠ signalKey labels visit.list → other ≠ "rrf" →
      existing.signals.get other = some value → signals.get other = some value)
    (rrf : signals.get "rrf" =
      some ((existing.signals.get "rrf").getD 0 + visit.contribution weights k)) :
    Tallied weights k labels (own ++ [visit])
      { existing with score := existing.score + visit.contribution weights k, signals } where
  score := by
    rw [List.map_append, List.sum_append, ← tallied.score, List.map_singleton,
      List.sum_singleton]
  rrf := by
    rw [rrf, tallied.rrf]
    rfl
  signals := by
    intro key member
    rw [List.map_append, List.map_singleton, lastValue_concat]
    by_cases same : key = signalKey labels visit.list
    · rw [if_pos same, same, here]
    · rw [List.map_append, List.map_singleton, List.mem_append, List.mem_singleton,
        or_iff_left same] at member
      obtain ⟨first, -, name⟩ := List.mem_map.mp member
      rw [if_neg same]
      refine others key _ same ?_ (tallied.signals key member)
      rw [← name]
      exact signalKey_ne labels first.list

theorem filter_concat (visits : List (Visit ι ρ)) (visit : Visit ι ρ) (id : ι) :
    ((visits ++ [visit]).filter fun visit => visit.id = id) =
      if visit.id = id then (visits.filter fun visit => visit.id = id) ++ [visit]
      else visits.filter fun visit => visit.id = id := by
  rw [List.filter_append]
  split
  · rename_i same
    rw [List.filter_cons_of_pos (by simpa using same), List.filter_nil]
  · rename_i apart
    rw [List.filter_cons_of_neg (by simpa using apart), List.filter_nil, List.append_nil]

theorem idxOf_concat_of_mem {ids : List ι} {id : ι} (member : id ∈ ids) (last : ι) :
    (ids ++ [last]).idxOf id = ids.idxOf id :=
  List.idxOf_append_of_mem member

theorem mem_keys_set {κ ν : Type} [DecidableEq κ] {map : OrderedMap κ ν} {key other : κ}
    {value : ν} : other ∈ (map.set key value).keys ↔ other = key ∨ other ∈ map.keys := by
  rw [OrderedMap.mem_keys, OrderedMap.mem_keys, OrderedMap.get_set]
  split
  · rename_i same
    exact iff_of_true ⟨value, rfl⟩ (Or.inl same)
  · rename_i apart
    rw [or_iff_right apart]

theorem tally_fresh {visits : List (Visit ι ρ)} {fusion : Fusion ι ρ}
    (tally : Tally weights k labels visits fusion) {visit : Visit ι ρ}
    (fresh : fusion.aggregates.get visit.id = none) :
    Tally weights k labels (visits ++ [visit]) (fusion.visit weights k labels visit) := by
  have unknown : visit.id ∉ visits.map Visit.id := fun member =>
    OrderedMap.get_eq_none.mp fresh ((tally.known _).mpr member)
  have own : (visits.filter fun other => other.id = visit.id) = [] :=
    List.filter_eq_nil_iff.mpr fun other member same =>
      unknown (List.mem_map.mpr ⟨other, member, of_decide_eq_true same⟩)
  have listed {id : ι} {aggregate : FusedAggregate ι ρ}
      (found : fusion.aggregates.get id = some aggregate) : id ∈ visits.map Visit.id :=
    (tally.known id).mp (OrderedMap.mem_keys.mpr ⟨aggregate, found⟩)
  have last : (visits.map Visit.id ++ [visit.id]).idxOf visit.id =
      (visits.map Visit.id).length := by
    rw [List.idxOf_append_of_notMem unknown, List.idxOf_cons_self, Nat.add_zero]
  have earlier {id : ι} (member : id ∈ visits.map Visit.id) :
      (visits.map Visit.id ++ [visit.id]).idxOf id < (visits.map Visit.id).length := by
    rw [List.idxOf_append_of_mem member]
    exact List.idxOf_lt_length_iff.mpr member
  have shape : fusion.visit weights k labels visit =
      { aggregates := fusion.aggregates.set visit.id _, nextOrder := fusion.nextOrder + 1 } :=
    absorb_fresh fresh _ _
  rw [shape]
  refine ⟨fun id => ?_, fun id aggregate found => ?_, fun id aggregate found => ?_,
    fun id aggregate found => ?_, fun first second aggregate other found found' => ?_⟩
  · rw [mem_keys_set, tally.known, List.map_append, List.map_singleton, List.mem_append,
      List.mem_singleton, or_comm]
  · rw [OrderedMap.get_set] at found
    split at found
    · rename_i same
      cases found
      exact same.symm
    · exact tally.record id aggregate found
  · rw [OrderedMap.get_set] at found
    rw [filter_concat]
    split at found
    · rename_i same
      cases found
      rw [same, if_pos rfl, own]
      exact tallied_fresh weights k labels visit _ _ _
    · rename_i apart
      rw [if_neg (Ne.symm apart)]
      exact tally.tallied id aggregate found
  · rw [OrderedMap.get_set] at found
    split at found
    · cases found
      exact Nat.lt_succ_self _
    · exact (tally.early id aggregate found).trans (Nat.lt_succ_self _)
  · rw [List.map_append, List.map_singleton]
    rw [OrderedMap.get_set] at found found'
    split at found
    · rename_i same
      split at found'
      · rename_i same'
        cases found
        cases found'
        rw [same, same']
        exact iff_of_true le_rfl le_rfl
      · have before := earlier (listed found')
        have young := tally.early second other found'
        cases found
        rw [same, last]
        exact iff_of_false (not_le.mpr young) (not_le.mpr before)
    · have before := earlier (listed found)
      have young := tally.early first aggregate found
      split at found'
      · rename_i same
        cases found'
        rw [same, last]
        exact iff_of_true young.le before.le
      · rw [idxOf_concat_of_mem (listed found), idxOf_concat_of_mem (listed found')]
        exact tally.order first second aggregate other found found'

theorem tally_known {visits : List (Visit ι ρ)} {fusion : Fusion ι ρ}
    (tally : Tally weights k labels visits fusion) {visit : Visit ι ρ}
    {existing : FusedAggregate ι ρ} (known : fusion.aggregates.get visit.id = some existing) :
    Tally weights k labels (visits ++ [visit]) (fusion.visit weights k labels visit) := by
  have name := signalKey_ne labels visit.list
  have listed {id : ι} {aggregate : FusedAggregate ι ρ}
      (found : fusion.aggregates.get id = some aggregate) : id ∈ visits.map Visit.id :=
    (tally.known id).mp (OrderedMap.mem_keys.mpr ⟨aggregate, found⟩)
  obtain ⟨signals, grown, here, others, rrf⟩ := absorb_known known
    (signalKey labels visit.list) (visit.contribution weights k)
  have shape : fusion.visit weights k labels visit =
      { fusion with aggregates := fusion.aggregates.set visit.id _ } := grown
  -- An aggregate after the visit goes back to one before it, of the same first order.
  have origin {id : ι} {aggregate : FusedAggregate ι ρ}
      (found : (fusion.visit weights k labels visit).aggregates.get id = some aggregate) :
      ∃ before, fusion.aggregates.get id = some before ∧ aggregate.record = before.record ∧
        aggregate.firstSeenOrder = before.firstSeenOrder := by
    rw [shape, OrderedMap.get_set] at found
    split at found
    · rename_i same
      cases found
      exact ⟨existing, same ▸ known, rfl, rfl⟩
    · exact ⟨aggregate, found, rfl, rfl⟩
  refine ⟨fun id => ?_, fun id aggregate found => ?_, fun id aggregate found => ?_,
    fun id aggregate found => ?_, fun first second aggregate other found found' => ?_⟩
  · rw [shape, mem_keys_set, tally.known, List.map_append, List.map_singleton, List.mem_append,
      List.mem_singleton, or_comm]
  · obtain ⟨before, found, record, -⟩ := origin found
    rw [record]
    exact tally.record id before found
  · rw [shape, OrderedMap.get_set] at found
    rw [filter_concat]
    split at found
    · rename_i same
      cases found
      rw [same, if_pos rfl]
      exact (tally.tallied visit.id existing known).concat weights k labels visit (here name)
        others (rrf name)
    · rename_i apart
      rw [if_neg (Ne.symm apart)]
      exact tally.tallied id aggregate found
  · obtain ⟨before, found, -, order⟩ := origin found
    rw [order, shape]
    exact tally.early id before found
  · obtain ⟨before, found, -, order⟩ := origin found
    obtain ⟨before', found', -, order'⟩ := origin found'
    rw [order, order', List.map_append, List.map_singleton,
      idxOf_concat_of_mem (listed found), idxOf_concat_of_mem (listed found')]
    exact tally.order first second before before' found found'

theorem tally_fuseLists (lists : List (List (MemoryHit ι ρ))) :
    Tally weights k labels (visits lists) (fuseLists lists weights k labels) := by
  rw [fuseLists_eq]
  induction visits lists using List.reverseRecOn with
  | nil => exact ⟨by simp [OrderedMap.keys, OrderedMap.empty], nofun, nofun, nofun, nofun⟩
  | append_singleton visits visit ih =>
    rw [List.foldl_append, List.foldl_cons, List.foldl_nil]
    cases seen : ((visits.foldl (Fusion.visit weights k labels) {}).aggregates.get
        visit.id) with
    | none => exact tally_fresh weights k labels ih seen
    | some => exact tally_known weights k labels ih seen

end Tally

section Fused

variable {ι ρ : Type}

def seenIds (lists : List (List (MemoryHit ι ρ))) : List ι :=
  lists.flatten.map fun hit => hit.record.id

theorem visits_ids (lists : List (List (MemoryHit ι ρ))) :
    (visits lists).map Visit.id = seenIds lists := by
  rw [visits, seenIds, List.map_flatMap, List.map_flatten]
  have inner (list : List (MemoryHit ι ρ)) (listIdx : Nat) :
      ((list.zipIdx.map fun (hit, i) => (⟨listIdx, i + 1, hit⟩ : Visit ι ρ)).map Visit.id) =
        list.map fun hit => hit.record.id := by
    conv_rhs => rw [← List.zipIdx_map_fst 0 list, List.map_map]
    rw [List.map_map]
    rfl
  simp only [inner]
  conv_rhs => rw [← List.zipIdx_map_fst 0 lists, List.map_map]
  rw [List.flatMap_def]
  rfl

variable (weights : Weights)

theorem resolveWeight_nonneg (index : Nat) : 0 ≤ resolveWeight weights index := by
  rw [resolveWeight]
  split
  · split
    · assumption
    · exact zero_le_one
  · exact zero_le_one

theorem visit_rank_pos {k : Rat} (positive : 0 < k) (visit : Visit ι ρ) :
    0 < k + visit.rank :=
  add_pos_of_pos_of_nonneg positive (Nat.cast_nonneg _)

theorem contribution_nonneg {k : Rat} (positive : 0 < k) (visit : Visit ι ρ) :
    0 ≤ visit.contribution weights k :=
  div_nonneg (resolveWeight_nonneg weights visit.list) (visit_rank_pos positive visit).le

theorem contribution_eq_zero {k : Rat} (positive : 0 < k) (visit : Visit ι ρ) :
    visit.contribution weights k = 0 ↔ resolveWeight weights visit.list = 0 := by
  rw [Visit.contribution, div_eq_zero_iff, or_iff_left (visit_rank_pos positive visit).ne']

variable [DecidableEq ι] (k : Rat) (labels : Option (List String))

/-- What all visits of a record add up to. -/
def total (lists : List (List (MemoryHit ι ρ))) (id : ι) : Rat :=
  ((visitsOf lists id).map (Visit.contribution weights k)).sum

def FusedAggregate.hit (aggregate : FusedAggregate ι ρ) : MemoryHit ι ρ :=
  { record := aggregate.record, score := aggregate.score, signals := aggregate.signals }

/-- Ahead by the score, or first seen. -/
def Leads (lists : List (List (MemoryHit ι ρ))) (first second : ι × Rat) : Prop :=
  second.2 < first.2 ∨ first.2 = second.2 ∧
    (seenIds lists).idxOf first.1 ≤ (seenIds lists).idxOf second.1

def MemoryHit.ranked (hit : MemoryHit ι ρ) : ι × Rat := (hit.record.id, hit.score)

theorem fuseWeighted_perm (lists : List (List (MemoryHit ι ρ))) :
    (fuseWeighted lists weights k labels).Perm
      ((fuseLists lists weights k labels).aggregates.entries.map fun entry => entry.2.hit) :=
  List.perm_insertionSort _ _

theorem mem_fuseWeighted {lists : List (List (MemoryHit ι ρ))} {hit : MemoryHit ι ρ}
    (member : hit ∈ fuseWeighted lists weights k labels) :
    ∃ aggregate, (fuseLists lists weights k labels).aggregates.get hit.record.id =
        some aggregate ∧
      Tallied weights k labels (visitsOf lists hit.record.id) aggregate ∧
        hit = aggregate.hit := by
  have tally := tally_fuseLists weights k labels lists
  rw [(fuseWeighted_perm weights k labels lists).mem_iff, List.mem_map] at member
  obtain ⟨⟨id, aggregate⟩, listed, rfl⟩ := member
  have found := OrderedMap.get_eq_some.mpr listed
  have same := tally.record id aggregate found
  exact ⟨aggregate, by rw [FusedAggregate.hit, same, found],
    same ▸ tally.tallied id aggregate found, rfl⟩

theorem fuseWeighted_ids (lists : List (List (MemoryHit ι ρ))) :
    ((fuseWeighted lists weights k labels).map fun hit => hit.record.id).Nodup ∧
      ∀ id, id ∈ ((fuseWeighted lists weights k labels).map fun hit => hit.record.id) ↔
        id ∈ seenIds lists := by
  have tally := tally_fuseLists weights k labels lists
  have keys : ((fuseLists lists weights k labels).aggregates.entries.map fun entry =>
      entry.2.hit.record.id) = (fuseLists lists weights k labels).aggregates.keys := by
    refine List.map_congr_left fun entry member => ?_
    exact tally.record entry.1 entry.2 (OrderedMap.get_eq_some.mpr member)
  have perm := (fuseWeighted_perm weights k labels lists).map fun hit => hit.record.id
  rw [List.map_map] at perm
  have perm := perm.trans (List.Perm.of_eq keys)
  refine ⟨perm.nodup_iff.mpr (fuseLists lists weights k labels).aggregates.distinct,
    fun id => ?_⟩
  rw [perm.mem_iff, tally.known, visits_ids]

theorem fuseWeighted_score {lists : List (List (MemoryHit ι ρ))} {hit : MemoryHit ι ρ}
    (member : hit ∈ fuseWeighted lists weights k labels) :
    hit.score = total weights k lists hit.record.id := by
  obtain ⟨aggregate, -, tallied, same⟩ := mem_fuseWeighted weights k labels member
  rw [total, ← tallied.score, same]
  rfl

theorem Fusion.ahead_sorted (fusion : Fusion ι ρ) (hits : List (MemoryHit ι ρ)) :
    (hits.insertionSort fusion.Ahead).Pairwise fusion.Ahead := by
  have linear : Std.Total fusion.Ahead := by
    refine ⟨fun a b => ?_⟩
    rcases lt_trichotomy a.score b.score with less | same | more
    · exact Or.inr (Or.inl less)
    · exact (le_total _ _).imp (fun order => Or.inr ⟨same, order⟩)
        fun order => Or.inr ⟨same.symm, order⟩
    · exact Or.inl (Or.inl more)
  have chained : IsTrans (MemoryHit ι ρ) fusion.Ahead := by
    refine ⟨fun a b c first second => ?_⟩
    rcases first with more | ⟨same, order⟩
    · rcases second with more' | ⟨same', -⟩
      · exact Or.inl (more'.trans more)
      · exact Or.inl (same' ▸ more)
    · rcases second with more' | ⟨same', order'⟩
      · exact Or.inl (same ▸ more')
      · exact Or.inr ⟨same.trans same', order.trans order'⟩
  exact List.pairwise_insertionSort _ _

theorem fuseWeighted_sorted (lists : List (List (MemoryHit ι ρ))) :
    ((fuseWeighted lists weights k labels).map MemoryHit.ranked).Pairwise (Leads lists) := by
  have tally := tally_fuseLists weights k labels lists
  rw [List.pairwise_map]
  refine (Fusion.ahead_sorted (fuseLists lists weights k labels) _).imp_of_mem
    fun {a b} member member' ahead => ?_
  obtain ⟨first, found, -⟩ := mem_fuseWeighted weights k labels member
  obtain ⟨second, found', -⟩ := mem_fuseWeighted weights k labels member'
  refine ahead.imp_right fun ⟨same, order⟩ => ⟨same, ?_⟩
  dsimp only at order
  rw [found, found'] at order
  rw [MemoryHit.ranked, MemoryHit.ranked, ← visits_ids]
  exact (tally.order _ _ _ _ found found').mp order

theorem pairwise_or {α : Type} {relation : α → α → Prop} {items : List α}
    (sorted : items.Pairwise relation) {first second : α} (member : first ∈ items)
    (member' : second ∈ items) (apart : first ≠ second) :
    relation first second ∨ relation second first := by
  have both : Std.Symm fun first second =>
      relation first second ∨ relation second first := ⟨fun _ _ => Or.symm⟩
  have either : items.Pairwise fun first second =>
      relation first second ∨ relation second first := sorted.imp Or.inl
  exact either.forall member member' apart

def MemoryHit.ownSum (lists : List (List (MemoryHit ι ρ))) (hit : MemoryHit ι ρ) : Rat :=
  ((ownSignals lists labels hit.record.id).map fun key => (hit.signals.get key).getD 0).sum

def named (lists : List (List (MemoryHit ι ρ))) (id : ι) : List (String × Rat) :=
  (visitsOf lists id).map fun visit =>
    (signalKey labels visit.list, visit.contribution weights k)

theorem ownSum_eq {lists : List (List (MemoryHit ι ρ))} {hit : MemoryHit ι ρ}
    (member : hit ∈ fuseWeighted lists weights k labels) : hit.ownSum labels lists =
      (((named weights k labels lists hit.record.id).map Prod.fst).dedup.map
        (lastValue (named weights k labels lists hit.record.id))).sum := by
  obtain ⟨aggregate, -, tallied, same⟩ := mem_fuseWeighted weights k labels member
  have names : (named weights k labels lists hit.record.id).map Prod.fst =
      (visitsOf lists hit.record.id).map fun visit => signalKey labels visit.list :=
    List.map_map ..
  rw [MemoryHit.ownSum, ownSignals, names]
  refine congrArg List.sum (List.map_congr_left fun key there => ?_)
  have signal : hit.signals.get key = _ := (congrArg (fun hit => hit.signals.get key) same).trans
    (tallied.signals key (List.mem_dedup.mp there))
  rw [signal]
  rfl

/-- No hit of a record is written over by a later one, or by one of a list of the same name,
unless it weighs nothing. -/
def Once (lists : List (List (MemoryHit ι ρ))) : Prop :=
  (visits lists).Pairwise fun visit later => visit.id = later.id →
    signalKey labels visit.list = signalKey labels later.list →
      resolveWeight weights visit.list = 0

theorem ownSum_iff {k : Rat} (positive : 0 < k) (lists : List (List (MemoryHit ι ρ))) :
    (∀ hit ∈ fuseWeighted lists weights k labels, hit.score = hit.ownSum labels lists) ↔
      Once weights labels lists := by
  have each (id : ι) : total weights k lists id =
      (((named weights k labels lists id).map Prod.fst).dedup.map
        (lastValue (named weights k labels lists id))).sum ↔
      (visits lists).Pairwise fun visit later => visit.id = id → later.id = id →
        signalKey labels visit.list = signalKey labels later.list →
          resolveWeight weights visit.list = 0 := by
    have sums : total weights k lists id =
        ((named weights k labels lists id).map Prod.snd).sum := by
      rw [total, named, List.map_map]
      rfl
    have nonneg : ∀ entry ∈ named weights k labels lists id, 0 ≤ entry.2 := by
      intro entry member
      obtain ⟨visit, -, rfl⟩ := List.mem_map.mp member
      exact contribution_nonneg weights positive visit
    rw [sums, (sum_lastValue nonneg).2, named, List.pairwise_map, visitsOf, List.pairwise_filter]
    simp only [contribution_eq_zero weights positive, decide_eq_true_eq]
  constructor
  · intro sums
    refine List.pairwise_iff_getElem.mpr fun i j before within order same => ?_
    have seen : (visits lists)[i].id ∈ seenIds lists := by
      rw [← visits_ids]
      exact List.mem_map_of_mem (List.getElem_mem before)
    rw [← (fuseWeighted_ids weights k labels lists).2] at seen
    obtain ⟨hit, member, id⟩ := List.mem_map.mp seen
    have sum := sums hit member
    rw [fuseWeighted_score weights k labels member, ownSum_eq weights k labels member, id,
      each] at sum
    exact List.pairwise_iff_getElem.mp sum i j before within order rfl same.symm
  · intro once hit member
    rw [fuseWeighted_score weights k labels member, ownSum_eq weights k labels member, each]
    exact once.imp fun once first second => once (first.trans second.symm)

/-- What one list gives a record, the first rank being `start + 1`. -/
def listSum (weight : Rat) (id : ι) (list : List (MemoryHit ι ρ)) (start : Nat) : Rat :=
  (((list.zipIdx start).filter fun entry => entry.1.record.id = id).map fun entry =>
    weight / (k + (entry.2 + 1 : Nat))).sum

theorem listSum_of_nodup {weight : Rat} {id : ι} {list : List (MemoryHit ι ρ)} (start : Nat)
    (once : weight ≠ 0 → (list.map fun hit => hit.record.id).Nodup) :
    listSum k weight id list start =
      if id ∈ list.map fun hit => hit.record.id then
        weight / (k + (start + (list.map fun hit => hit.record.id).idxOf id + 1 : Nat))
      else 0 := by
  induction list generalizing start with
  | nil => rfl
  | cons hit rest ih =>
    have tail := ih (start + 1) fun heavy => (once heavy).of_cons
    rw [listSum] at tail
    rw [listSum, List.zipIdx_cons, List.map_cons, List.filter_cons]
    dsimp only
    by_cases here : hit.record.id = id
    · rw [if_pos (decide_eq_true here), List.map_cons, List.sum_cons, tail,
        if_pos (List.mem_cons.mpr (Or.inl here.symm)), here, List.idxOf_cons_self,
        Nat.add_zero]
      dsimp only
      split
      · rename_i again
        by_cases light : weight = 0
        · rw [light, zero_div, zero_div, add_zero]
        · have nodup := once light
          rw [List.map_cons, List.nodup_cons, here] at nodup
          exact absurd again nodup.1
      · rw [add_zero]
    · rw [if_neg (fun same => here (of_decide_eq_true same)), tail,
        List.idxOf_cons_ne _ here]
      have member : id ∈ hit.record.id :: rest.map (fun hit => hit.record.id) ↔
          id ∈ rest.map fun hit => hit.record.id := by
        rw [List.mem_cons, or_iff_right (Ne.symm here)]
      rw [if_congr member rfl rfl]
      congr 4
      omega

theorem total_eq_lists (lists : List (List (MemoryHit ι ρ))) (id : ι) :
    total weights k lists id = (lists.zipIdx.map fun entry =>
      listSum k (resolveWeight weights entry.2) id entry.1 0).sum := by
  rw [total, visitsOf, visits, List.filter_flatMap, List.map_flatMap, List.flatMap_def,
    List.sum_flatten, List.map_map]
  refine congrArg List.sum (List.map_congr_left fun entry member => ?_)
  dsimp only [Function.comp]
  rw [List.filter_map, List.map_map]
  rfl

theorem total_of_once {lists : List (List (MemoryHit ι ρ))} (once : Once weights labels lists)
    (id : ι) : total weights k lists id = bestRanked lists weights k id := by
  rw [total_eq_lists, bestRanked]
  refine congrArg List.sum (List.map_congr_left fun entry member => ?_)
  rw [listSum_of_nodup k 0, Nat.zero_add]
  intro heavy
  rw [Once, visits, List.pairwise_flatMap] at once
  have inner := once.1 entry member
  rw [List.pairwise_map] at inner
  rw [← List.zipIdx_map_fst 0 entry.1, List.map_map, List.nodup_iff_pairwise_ne,
    List.pairwise_map]
  refine inner.imp ?_
  intro _ _ once same
  exact heavy (once same rfl)

theorem total_perm {lists others : List (List (MemoryHit ι ρ))} (perm : lists.Perm others)
    (id : ι) : total none k lists id = total none k others id := by
  have plain (lists : List (List (MemoryHit ι ρ))) : total none k lists id =
      (lists.map fun list => listSum k 1 id list 0).sum := by
    rw [total_eq_lists]
    conv_rhs => rw [← List.zipIdx_map_fst 0 lists, List.map_map]
    rfl
  rw [plain, plain]
  exact (perm.map _).sum_eq

theorem mem_ranked {lists : List (List (MemoryHit ι ρ))} {pair : ι × Rat} :
    pair ∈ (fuseWeighted lists weights k labels).map MemoryHit.ranked ↔
      pair.1 ∈ seenIds lists ∧ pair.2 = total weights k lists pair.1 := by
  rw [List.mem_map]
  constructor
  · rintro ⟨hit, member, rfl⟩
    exact ⟨((fuseWeighted_ids weights k labels lists).2 _).mp (List.mem_map_of_mem member),
      fuseWeighted_score weights k labels member⟩
  · rintro ⟨seen, score⟩
    rw [← (fuseWeighted_ids weights k labels lists).2] at seen
    obtain ⟨hit, member, id⟩ := List.mem_map.mp seen
    refine ⟨hit, member, Prod.ext id ?_⟩
    rw [score, ← id]
    exact fuseWeighted_score weights k labels member

theorem mem_ranked_of_seen {lists : List (List (MemoryHit ι ρ))} {id : ι}
    (seen : id ∈ seenIds lists) : (id, total weights k lists id) ∈
      (fuseWeighted lists weights k labels).map MemoryHit.ranked :=
  (mem_ranked weights k labels).mpr ⟨seen, rfl⟩

theorem ranked_nodup (lists : List (List (MemoryHit ι ρ))) :
    ((fuseWeighted lists weights k labels).map MemoryHit.ranked).Nodup := by
  refine List.Nodup.of_map Prod.fst ?_
  rw [List.map_map]
  exact (fuseWeighted_ids weights k labels lists).1

def listIds (list : List (MemoryHit ι ρ)) : List ι := list.map fun hit => hit.record.id

omit [DecidableEq ι] in
theorem seenIds_cons (list : List (MemoryHit ι ρ)) (lists : List (List (MemoryHit ι ρ))) :
    seenIds (list :: lists) = listIds list ++ seenIds lists := by
  rw [seenIds, List.flatten_cons, List.map_append]
  rfl

theorem idxOf_seenIds {lists : List (List (MemoryHit ι ρ))} {first second : ι}
    (agree : ∀ list ∈ lists, (listIds list).idxOf first ≤ (listIds list).idxOf second) :
    (seenIds lists).idxOf first ≤ (seenIds lists).idxOf second := by
  induction lists with
  | nil => exact le_rfl
  | cons list _ ih =>
    obtain ⟨here, rest⟩ := List.forall_mem_cons.mp agree
    rw [seenIds_cons]
    by_cases member : first ∈ listIds list
    · rw [List.idxOf_append_of_mem member]
      by_cases member' : second ∈ listIds list
      · rw [List.idxOf_append_of_mem member']
        exact here
      · rw [List.idxOf_append_of_notMem member']
        exact (List.idxOf_lt_length_iff.mpr member).le.trans (Nat.le_add_right _ _)
    · have absent : second ∉ listIds list := by
        rw [← List.idxOf_lt_length_iff, not_lt]
        rw [← List.idxOf_lt_length_iff, not_lt] at member
        exact member.trans here
      rw [List.idxOf_append_of_notMem member, List.idxOf_append_of_notMem absent]
      exact Nat.add_le_add_left (ih rest) _

theorem idxOf_seenIds_cons {list : List (MemoryHit ι ρ)} {lists : List (List (MemoryHit ι ρ))}
    {first second : ι} (before : (listIds list).idxOf first < (listIds list).idxOf second) :
    (seenIds (list :: lists)).idxOf first < (seenIds (list :: lists)).idxOf second := by
  have member : first ∈ listIds list :=
    List.idxOf_lt_length_iff.mp (before.trans_le List.idxOf_le_length)
  rw [seenIds_cons, List.idxOf_append_of_mem member]
  by_cases member' : second ∈ listIds list
  · rw [List.idxOf_append_of_mem member']
    exact before
  · rw [List.idxOf_append_of_notMem member']
    exact (List.idxOf_lt_length_iff.mpr member).trans_le (Nat.le_add_right _ _)

def Contested (lists : List (List (MemoryHit ι ρ))) (first second : ι) : Prop :=
  (∃ list ∈ lists, (listIds list).idxOf first < (listIds list).idxOf second) ∧
    ∃ list ∈ lists, (listIds list).idxOf second < (listIds list).idxOf first

/-- No two records tie under equal weights that the lists do not agree about. -/
def Agreed (lists : List (List (MemoryHit ι ρ))) : Prop :=
  ∀ first ∈ seenIds lists, ∀ second ∈ seenIds lists, first ≠ second →
    total none k lists first = total none k lists second → ¬Contested lists first second

theorem leads_perm {lists others : List (List (MemoryHit ι ρ))} (perm : others.Perm lists)
    (agreed : Agreed k lists) {first second : ι × Rat}
    (seen : first.1 ∈ seenIds lists ∧ first.2 = total none k lists first.1)
    (seen' : second.1 ∈ seenIds lists ∧ second.2 = total none k lists second.1)
    (leads : Leads lists first second) : Leads others first second := by
  refine leads.imp_right fun ⟨tie, order⟩ => ⟨tie, ?_⟩
  by_cases same : first.1 = second.1
  · rw [same]
  · have calm := agreed _ seen.1 _ seen'.1 same (by rw [← seen.2, tie, seen'.2])
    refine idxOf_seenIds fun list member => ?_
    by_contra! behind
    have agree : ∀ list ∈ lists,
        (listIds list).idxOf second.1 ≤ (listIds list).idxOf first.1 := by
      intro other member'
      by_contra! ahead
      exact calm ⟨⟨other, member', ahead⟩, list, perm.mem_iff.mp member, behind⟩
    exact same ((List.idxOf_inj seen.1).mp (order.antisymm (idxOf_seenIds agree)))

def OrderFree (lists : List (List (MemoryHit ι ρ))) : Prop :=
  ∀ others : List (List (MemoryHit ι ρ)), others.Perm lists →
    (fuseRrf others k labels).map MemoryHit.ranked = (fuseRrf lists k labels).map MemoryHit.ranked

theorem orderFree_iff (lists : List (List (MemoryHit ι ρ))) :
    OrderFree k labels lists ↔ Agreed k lists := by
  constructor
  · rintro free first seen second seen' apart tie
      ⟨⟨list, member, ahead⟩, other, member', behind⟩
    obtain ⟨before, after, rfl⟩ := List.append_of_mem member
    obtain ⟨before', after', split'⟩ := List.append_of_mem member'
    have sorted := fuseWeighted_sorted none k labels (list :: (before ++ after))
    have sorted' := fuseWeighted_sorted none k labels (other :: (before' ++ after'))
    rw [← fuseRrf, free _ List.perm_middle.symm] at sorted
    rw [← fuseRrf, free _ (split' ▸ List.perm_middle.symm)] at sorted'
    rcases pairwise_or (sorted.and sorted') (mem_ranked_of_seen none k labels seen)
      (mem_ranked_of_seen none k labels seen') fun same =>
      apart (congrArg Prod.fst same) with ⟨-, leads⟩ | ⟨leads, -⟩
    · rcases leads with more | ⟨-, order⟩
      · exact more.ne tie.symm
      · exact (idxOf_seenIds_cons behind).not_ge order
    · rcases leads with more | ⟨-, order⟩
      · exact more.ne tie
      · exact (idxOf_seenIds_cons ahead).not_ge order
  · intro agreed others perm
    have seen (id : ι) : id ∈ seenIds others ↔ id ∈ seenIds lists :=
      (perm.flatten.map _).mem_iff
    have same : ((fuseRrf others k labels).map MemoryHit.ranked).Perm
        ((fuseRrf lists k labels).map MemoryHit.ranked) := by
      refine (List.perm_ext_iff_of_nodup (ranked_nodup none k labels others)
        (ranked_nodup none k labels lists)).mpr fun pair => ?_
      rw [mem_ranked, mem_ranked, seen, total_perm k perm]
    refine same.eq_of_pairwise ?_ (fuseWeighted_sorted none k labels others)
      ((fuseWeighted_sorted none k labels lists).imp_of_mem fun member member' leads =>
        leads_perm k perm agreed ((mem_ranked none k labels).mp member)
          ((mem_ranked none k labels).mp member') leads)
    intro first second member member' leads leads'
    obtain ⟨there, score⟩ := (mem_ranked none k labels).mp member
    rcases leads with more | ⟨tie, order⟩
    · rcases leads' with more' | ⟨tie, -⟩
      · exact absurd (more.trans more') (lt_irrefl _)
      · exact absurd tie more.ne
    · rcases leads' with more' | ⟨-, order'⟩
      · exact absurd tie more'.ne
      · exact Prod.ext ((List.idxOf_inj there).mp (order.antisymm order')) tie

end Fused

section Laws

variable {ι ρ : Type} [LinearOrder ι] (weights : Weights) (k : Rat)
  (labels : Option (List String))

/-- What the fusion is for: one hit for each record, with the score its best ranks and its own
signals add up to, the greater first and then by the id; the order of the lists does not
matter under equal weights. -/
structure FusesByRank (lists : List (List (MemoryHit ι ρ))) : Prop where
  ids : ((fuseWeighted lists weights k labels).map fun hit => hit.record.id).Nodup ∧
    ∀ id, id ∈ ((fuseWeighted lists weights k labels).map fun hit => hit.record.id) ↔
      id ∈ seenIds lists
  ranks : ∀ hit ∈ fuseWeighted lists weights k labels,
    hit.score = bestRanked lists weights k hit.record.id
  signals : ∀ hit ∈ fuseWeighted lists weights k labels, hit.score = hit.ownSum labels lists
  order : (fuseWeighted lists weights k labels).Pairwise fun first second =>
    second.score < first.score ∨
      first.score = second.score ∧ first.record.id < second.record.id
  orderFree : OrderFree k labels lists

/-- Records that tie are first seen in the order of their ids. -/
def TiesByIds (lists : List (List (MemoryHit ι ρ))) : Prop :=
  ∀ first ∈ seenIds lists, ∀ second ∈ seenIds lists,
    total weights k lists first = total weights k lists second →
      (seenIds lists).idxOf first < (seenIds lists).idxOf second → first < second

theorem order_iff (lists : List (List (MemoryHit ι ρ))) :
    ((fuseWeighted lists weights k labels).Pairwise fun first second =>
      second.score < first.score ∨
        first.score = second.score ∧ first.record.id < second.record.id) ↔
      TiesByIds weights k lists := by
  have sorted := fuseWeighted_sorted weights k labels lists
  constructor
  · intro ordered first seen second seen' tie before
    have ordered : ((fuseWeighted lists weights k labels).map MemoryHit.ranked).Pairwise
        fun first second => second.2 < first.2 ∨ first.2 = second.2 ∧ first.1 < second.1 :=
      List.pairwise_map.mpr ordered
    rcases pairwise_or (sorted.and ordered) (mem_ranked_of_seen weights k labels seen)
      (mem_ranked_of_seen weights k labels seen') fun same =>
      before.ne (congrArg (fun pair => (seenIds lists).idxOf pair.1) same) with
        ⟨-, ahead⟩ | ⟨leads, -⟩
    · rcases ahead with more | ⟨-, less⟩
      · exact absurd tie.symm more.ne
      · exact less
    · rcases leads with more | ⟨-, order⟩
      · exact absurd tie more.ne
      · exact absurd order before.not_ge
  · intro ties
    have distinct := (fuseWeighted_ids weights k labels lists).1
    rw [List.nodup_iff_pairwise_ne, List.pairwise_map] at distinct
    rw [List.pairwise_map] at sorted
    refine (sorted.and distinct).imp_of_mem fun {first second} member member' both => ?_
    obtain ⟨leads, apart⟩ := both
    obtain ⟨seen, score⟩ := (mem_ranked weights k labels).mp
      (List.mem_map_of_mem member)
    obtain ⟨seen', score'⟩ := (mem_ranked weights k labels).mp
      (List.mem_map_of_mem member')
    refine leads.imp_right fun ⟨tie, order⟩ => ⟨tie, ?_⟩
    refine ties _ seen _ seen' (score.symm.trans (tie.trans score'))
      (order.lt_of_ne fun same => ?_)
    exact apart ((List.idxOf_inj seen).mp same)

/-- The fusion follows its formula exactly when no hit is written over by another of its
record and no two records tie in an order that is not that of their ids or of all lists. -/
theorem fusesByRank_iff (positive : 0 < k) (lists : List (List (MemoryHit ι ρ))) :
    FusesByRank weights k labels lists ↔
      Once weights labels lists ∧ TiesByIds weights k lists ∧ Agreed k lists := by
  constructor
  · intro fuses
    exact ⟨(ownSum_iff weights labels positive lists).mp fuses.signals,
      (order_iff weights k labels lists).mp fuses.order,
      (orderFree_iff k labels lists).mp fuses.orderFree⟩
  · rintro ⟨once, ties, agreed⟩
    refine ⟨fuseWeighted_ids weights k labels lists, fun hit member => ?_,
      (ownSum_iff weights labels positive lists).mpr once,
      (order_iff weights k labels lists).mpr ties,
      (orderFree_iff k labels lists).mpr agreed⟩
    rw [fuseWeighted_score weights k labels member, total_of_once weights k labels once]

end Laws

def bare (id : Nat) : MemoryHit Nat Unit := { record := ⟨id, ()⟩, score := 0 }

theorem fusesByRank_two : FusesByRank none 60 none [[bare 1, bare 2], [bare 1, bare 2]] := by
  refine (fusesByRank_iff none 60 none (by norm_num) _).mpr ⟨?_, ?_, ?_⟩
  · have apart : signalKey none 0 ≠ signalKey none 1 := by decide
    have seen : visits [[bare 1, bare 2], [bare 1, bare 2]] =
        [⟨0, 1, bare 1⟩, ⟨0, 2, bare 2⟩, ⟨1, 1, bare 1⟩, ⟨1, 2, bare 2⟩] := rfl
    rw [Once, seen]
    simp [Visit.id, bare, apart]
  · have inOrder : ∀ first ∈ seenIds [[bare 1, bare 2], [bare 1, bare 2]],
        ∀ second ∈ seenIds [[bare 1, bare 2], [bare 1, bare 2]],
          (seenIds [[bare 1, bare 2], [bare 1, bare 2]]).idxOf first <
            (seenIds [[bare 1, bare 2], [bare 1, bare 2]]).idxOf second →
              first < second := by
      decide
    exact fun first seen second seen' _ => inOrder first seen second seen'
  · intro first seen second seen' _ _ contested
    obtain ⟨⟨list, member, ahead⟩, other, member', behind⟩ := contested
    have same : list = other := by
      simp only [List.mem_cons, List.not_mem_nil, or_false, or_self] at member member'
      rw [member, member']
    rw [same] at ahead
    exact ahead.not_gt behind

/-- Two records that tie keep the order of the lists; a record twice in a list loses the
signal of its best rank. -/
theorem fusesByRank_fails : (¬FusesByRank none 60 none [[bare 2], [bare 1]]) ∧
      ¬FusesByRank none 60 none [[bare 1, bare 1]] := by
  constructor
  · intro fuses
    have ties := (order_iff none 60 none _).mp fuses.order
    exact absurd (ties 2 (by decide) 1 (by decide) rfl (by decide)) (by decide)
  · intro fuses
    have once := (ownSum_iff none none (by norm_num) _).mp fuses.signals
    have seen : visits [[bare 1, bare 1]] = [⟨0, 1, bare 1⟩, ⟨0, 2, bare 1⟩] := rfl
    rw [Once, seen, List.pairwise_pair] at once
    exact one_ne_zero (once rfl rfl)

end Graphorin.Memory.RankFusion
