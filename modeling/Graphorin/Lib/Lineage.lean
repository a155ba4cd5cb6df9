import Mathlib.Data.List.Chain
import Mathlib.Data.List.Nodup
import Mathlib.Order.Lattice

namespace Graphorin.Lib

section Lineage

/-! Items that each name the one they were added behind: a single line from a
root without a parent, ranked upwards, every key used once. -/

structure Lineage {α κ : Type} (key : α → κ) (parent : α → Option κ)
    (rank : α → Nat) (items : List α) : Prop where
  rooted : ∀ root, items.head? = some root → parent root = none
  linked : items.IsChain fun older newer =>
    parent newer = some (key older) ∧ rank older < rank newer
  distinct : (items.map key).Nodup

variable {α κ : Type} {key : α → κ} {parent : α → Option κ} {rank : α → Nat}
variable {items : List α}

theorem lineage_nil : Lineage key parent rank [] :=
  ⟨by simp, .nil, by simp⟩

def Trails (key : α → κ) (parent : α → Option κ) (rank : α → Nat)
    (added : α) : Option α → Prop
  | none => parent added = none
  | some last => parent added = some (key last) ∧ rank last < rank added

theorem Lineage.concat (line : Lineage key parent rank items) {added : α}
    (placed : Trails key parent rank added items.getLast?)
    (unused : key added ∉ items.map key) :
    Lineage key parent rank (items ++ [added]) := by
  refine ⟨?_, ?_, ?_⟩
  · intro root first
    cases items with
    | nil =>
      cases first
      exact placed
    | cons => exact line.rooted root first
  · rw [List.isChain_append]
    refine ⟨line.linked, .singleton _, ?_⟩
    intro last isLast next isNext
    rw [Option.mem_def] at isLast
    cases isNext
    rw [isLast] at placed
    exact placed
  · rw [List.map_append, List.nodup_append]
    refine ⟨line.distinct, by simp, ?_⟩
    intro used member other single same
    rw [List.map_singleton, List.mem_singleton] at single
    exact unused (single ▸ same ▸ member)

variable {first second : α}

theorem Lineage.eq_of_key (line : Lineage key parent rank items) (one : first ∈ items)
    (two : second ∈ items) (same : key first = key second) : first = second :=
  List.inj_on_of_nodup_map line.distinct one two same

theorem Lineage.placed (line : Lineage key parent rank items) {item : α}
    (member : item ∈ items) : items.head? = some item ∧ parent item = none ∨
      ∃ before older after, items = before ++ older :: item :: after ∧
        parent item = some (key older) := by
  obtain ⟨before, after, split⟩ := List.append_of_mem member
  rcases List.eq_nil_or_concat before with rfl | ⟨earlier, older, rfl⟩
  · have first : items.head? = some item := by rw [split]; rfl
    exact .inl ⟨first, line.rooted item first⟩
  · rw [List.concat_append] at split
    refine .inr ⟨earlier, older, after, split, ?_⟩
    have linked := line.linked
    rw [split, List.isChain_append_cons_cons] at linked
    exact linked.2.1.1

theorem Lineage.only_child (line : Lineage key parent rank items) (one : first ∈ items)
    (two : second ∈ items) (siblings : parent first = parent second) : first = second := by
  rcases line.placed one with ⟨atHead, orphan⟩ | ⟨before, older, after, split,
    named⟩
  · rcases line.placed two with ⟨alsoHead, -⟩ | ⟨_, _, _, _, called⟩
    · exact Option.some.inj (atHead.symm.trans alsoHead)
    · rw [← siblings, orphan] at called
      cases called
  · rcases line.placed two with ⟨-, orphan⟩ | ⟨start, elder, rest, parted,
      called⟩
    · rw [siblings, orphan] at named
      cases named
    · have same : older = elder := by
        refine line.eq_of_key ?_ ?_
          (Option.some.inj (named.symm.trans (siblings.trans called)))
        · rw [split]
          simp
        · rw [parted]
          simp
      subst same
      have once := line.distinct.of_map
      rw [split, List.nodup_append] at once
      obtain ⟨-, tail, apart⟩ := once
      have absent : older ∉ before := fun member =>
        apart older member older (by simp) rfl
      have positions := (List.append_cons_inj_of_notMem absent
        (List.nodup_cons.mp tail).1).mp (split.symm.trans parted)
      exact (List.cons.inj positions.2.2).1

end Lineage

section Handover

/-! Items that each hold from a start to an end, either of them possibly open,
and that hand over to one another. -/

variable {α T : Type} [LinearOrder T] (start stop : α → Option T)

def HoldsAt (item : α) (t : T) : Prop :=
  (∀ since ∈ start item, since ≤ t) ∧ ∀ until' ∈ stop item, t < until'

def HandsOver (first second : α) : Prop :=
  ∀ instant, start second = some instant → stop first = some instant

def Rises (first second : α) : Prop :=
  ∃ earlier later, start first = some earlier ∧ start second = some later ∧
    earlier ≤ later

variable {start stop}

theorem Rises.trans {first second third : α} (left : Rises start first second)
    (right : Rises start second third) : Rises start first third := by
  obtain ⟨earlier, middle, from', to', below⟩ := left
  obtain ⟨middle', later, from'', to'', below'⟩ := right
  rw [to'] at from''
  cases from''
  exact ⟨earlier, later, from', to'', below.trans below'⟩

/-- Along rising handovers no two items hold together. -/
theorem apart_of_handovers (items : List α) (hands : items.IsChain (HandsOver start stop))
    (rises : items.IsChain (Rises start)) : items.Pairwise fun first second =>
      ∀ t, ¬ (HoldsAt start stop first t ∧ HoldsAt start stop second t) := by
  have : Trans (Rises start) (Rises start) (Rises (α := α) start) := ⟨Rises.trans⟩
  induction items with
  | nil => exact .nil
  | cons first rest ih =>
    refine List.pairwise_cons.mpr ⟨?_, ih hands.tail rises.tail⟩
    cases rest with
    | nil => intro _ there; cases there
    | cons next rest =>
      obtain ⟨_, instant, _, starts, _⟩ := (List.isChain_cons_cons.mp rises).1
      have ends := (List.isChain_cons_cons.mp hands).1 instant starts
      have above : ∀ later ∈ next :: rest, ∃ since, start later = some since ∧
          instant ≤ since := by
        intro later there
        rcases List.mem_cons.mp there with rfl | there
        · exact ⟨instant, starts, le_refl _⟩
        · have sorted := List.isChain_iff_pairwise.mp rises.tail
          obtain ⟨earlier, since, from', to', below⟩ :=
            (List.pairwise_cons.mp sorted).1 later there
          rw [starts] at from'
          cases from'
          exact ⟨since, to', below⟩
      rintro later there t ⟨holds, holds'⟩
      obtain ⟨since, starts', below⟩ := above later there
      have before := holds.2 instant ends
      have after := holds'.1 since starts'
      exact absurd (lt_of_lt_of_le before below) (not_lt.mpr after)

end Handover

end Graphorin.Lib
