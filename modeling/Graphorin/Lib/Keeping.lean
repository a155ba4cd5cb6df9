import Mathlib.Data.List.Basic
import Mathlib.Order.Basic

namespace Graphorin.Lib

/-! Keeping the items of a list that no kept one passes for. What passes for an item need
not be the same as it, so an item can get lost. -/

variable {α : Type}

structure PassesFor (same passes : α → α → Prop) : Prop where
  equivalence : Equivalence same
  of_same : ∀ {e d}, same e d → passes e d
  left : ∀ {e e' d}, same e' e → passes e d → passes e' d
  right : ∀ {e d d'}, passes e d → same d d' → passes e d'

open Classical in
noncomputable def keep (passes : α → α → Prop) (kept : List α) (item : α) : List α :=
  if ∃ e ∈ kept, passes e item then kept else kept ++ [item]

variable {same passes : α → α → Prop}

variable {kept : List α} {item : α}

variable {e : α}

theorem keep_of_passes (here : e ∈ kept) (like : passes e item) :
    keep passes kept item = kept :=
  if_pos ⟨e, here, like⟩

theorem keep_of_new (new : ∀ e ∈ kept, ¬ passes e item) :
    keep passes kept item = kept ++ [item] :=
  if_neg fun ⟨e, here, like⟩ => new e here like

theorem prefix_keep (kept : List α) (item : α) : kept <+: keep passes kept item := by
  unfold keep
  split
  · exact List.prefix_refl kept
  · exact List.prefix_append kept [item]

theorem prefix_keeps (items kept : List α) : kept <+: items.foldl (keep passes) kept := by
  induction items generalizing kept with
  | nil => exact List.prefix_refl kept
  | cons item _ ih => exact (prefix_keep kept item).trans (ih (keep passes kept item))

theorem keep_distinct (tolerant : PassesFor same passes) (item : α)
    (distinct : kept.Pairwise fun e d => ¬ same e d) :
    (keep passes kept item).Pairwise fun e d => ¬ same e d := by
  unfold keep
  split
  · exact distinct
  · rename_i new
    refine List.pairwise_append.mpr ⟨distinct, List.pairwise_singleton _ item, ?_⟩
    intro e here d last equal
    rw [List.mem_singleton.mp last] at equal
    exact new ⟨e, here, tolerant.of_same equal⟩

variable {items : List α}

theorem keeps_distinct (tolerant : PassesFor same passes)
    (distinct : kept.Pairwise fun e d => ¬ same e d) :
    (items.foldl (keep passes) kept).Pairwise fun e d => ¬ same e d := by
  induction items generalizing kept with
  | nil => exact distinct
  | cons item _ ih => exact ih (keep_distinct tolerant item distinct)

/-- Once something passes for an item, nothing like the item is added. -/
theorem kept_before (tolerant : PassesFor same passes) {r : α} (here : e ∈ kept)
    (like : passes e item) (equal : same item r)
    (later : r ∈ items.foldl (keep passes) kept) : r ∈ kept := by
  induction items generalizing kept with
  | nil => exact later
  | cons next rest ih =>
    have before := ih ((prefix_keep kept next).subset here) later
    unfold keep at before
    split at before
    · exact before
    · rename_i new
      rcases List.mem_append.mp before with old | added
      · exact old
      · rw [← List.mem_singleton.mp added] at new
        exact absurd ⟨e, here, tolerant.right like equal⟩ new

def Mistaken (same passes : α → α → Prop) (e item : α) : Prop := passes e item ∧ ¬ same e item

/-- No item that something before it is mistaken for is the first of its kind. -/
def Unmistaken (same passes : α → α → Prop) (seen items : List α) : Prop :=
  ∀ front item rest, items = front ++ item :: rest →
    ∀ e ∈ seen ++ front, Mistaken same passes e item → ∃ d ∈ seen ++ front, same d item

variable {seen : List α}

theorem unmistaken_cons {rest : List α} :
    Unmistaken same passes seen (item :: rest) ↔
      (∀ e ∈ seen, Mistaken same passes e item → ∃ d ∈ seen, same d item) ∧
        Unmistaken same passes (seen ++ [item]) rest := by
  constructor
  · intro all
    refine ⟨fun e here mistaken => ?_, fun front next tail split e here mistaken => ?_⟩
    · have first := all [] item rest rfl
      rw [List.append_nil] at first
      exact first e here mistaken
    · rw [List.append_assoc] at here ⊢
      exact all (item :: front) next tail (by rw [split]; rfl) e here mistaken
  · rintro ⟨first, later⟩ front next tail split e here mistaken
    cases front with
    | nil =>
      rw [List.nil_append, List.cons.injEq] at split
      rw [List.append_nil] at here ⊢
      rw [← split.1] at mistaken ⊢
      exact first e here mistaken
    | cons head front =>
      rw [List.cons_append, List.cons.injEq] at split
      have found := later front next tail split.2 e
      rw [List.append_assoc, split.1] at found
      exact found here mistaken

/-- Nothing gets lost exactly when no first of its kind is taken for another. -/
theorem keeps_lossless (tolerant : PassesFor same passes) (known : kept ⊆ seen)
    (told : ∀ s ∈ seen, ∃ e ∈ kept, same e s) :
    (∀ item ∈ items, ∃ e ∈ items.foldl (keep passes) kept, same e item) ↔
      Unmistaken same passes seen items := by
  induction items generalizing seen kept with
  | nil =>
    refine ⟨fun _ front item rest split => ?_, fun _ item member => absurd member nofun⟩
    cases front <;> cases split
  | cons item rest ih =>
    rw [unmistaken_cons, List.forall_mem_cons]
    have grown : ∀ s ∈ seen ++ [item], ∀ kept' : List α, kept <+: kept' →
        (∃ e ∈ kept', same e item) → ∃ e ∈ kept', same e s := by
      intro s member kept' earlier same
      rcases List.mem_append.mp member with old | last
      · obtain ⟨e, here, equal⟩ := told s old
        exact ⟨e, earlier.subset here, equal⟩
      · rwa [List.mem_singleton.mp last]
    by_cases like : ∃ e ∈ kept, passes e item
    · obtain ⟨e, here, passing⟩ := like
      rw [List.foldl_cons, keep_of_passes here passing]
      by_cases seenBefore : ∃ d ∈ seen, same d item
      · obtain ⟨d, old, equal⟩ := seenBefore
        obtain ⟨twin, twinKept, alike⟩ := told d old
        have present : ∃ e ∈ kept, same e item :=
          ⟨twin, twinKept, tolerant.equivalence.trans alike equal⟩
        rw [ih (fun x x_kept => List.mem_append_left _ (known x_kept))
          fun s member => grown s member kept (List.prefix_refl kept) present]
        constructor
        · exact fun both => ⟨fun _ _ _ => ⟨d, old, equal⟩, both.2⟩
        · rintro ⟨-, later⟩
          obtain ⟨twin, here, equal⟩ := present
          exact ⟨⟨twin, (prefix_keeps rest kept).subset here, equal⟩, later⟩
      · constructor
        · rintro ⟨⟨r, later, equal⟩, -⟩
          have old := kept_before tolerant here passing
            (tolerant.equivalence.symm equal) later
          exact absurd ⟨r, known old, equal⟩ seenBefore
        · rintro ⟨first, -⟩
          have differ : ¬ same e item := fun equal => seenBefore ⟨e, known here, equal⟩
          exact absurd (first e (known here) ⟨passing, differ⟩) seenBefore
    · have new : ∀ e ∈ kept, ¬ passes e item := fun e here passing => like ⟨e, here, passing⟩
      have last : item ∈ kept ++ [item] := List.mem_append_right _ (List.mem_singleton.mpr rfl)
      have present : ∃ e ∈ kept ++ [item], same e item :=
        ⟨item, last, tolerant.equivalence.refl item⟩
      have within : kept ++ [item] ⊆ seen ++ [item] := by
        intro x member
        rcases List.mem_append.mp member with old | added
        · exact List.mem_append_left _ (known old)
        · exact List.mem_append_right _ added
      rw [List.foldl_cons, keep_of_new new, ih within
        fun s member => grown s member _ (List.prefix_append kept [item]) present]
      constructor
      · refine fun both => ⟨fun e old mistaken => ?_, both.2⟩
        obtain ⟨twin, here, alike⟩ := told e old
        exact absurd (tolerant.left alike mistaken.1) (new twin here)
      · exact fun both => ⟨⟨item, (prefix_keeps rest _).subset last,
          tolerant.equivalence.refl item⟩, both.2⟩

end Graphorin.Lib
