import Mathlib.Data.List.Basic

namespace Graphorin.Lib

/-! Computations that may fail, taken apart where they did not. -/

variable {α β ε : Type}

variable {result : β}

variable {computed : Except ε α}

theorem ok_of_map {f : α → β} (mapped : computed.map f = .ok result) :
    ∃ value, computed = .ok value ∧ f value = result := by
  cases computed with
  | error => cases mapped
  | ok value =>
    cases mapped
    exact ⟨value, rfl, rfl⟩

variable {f : α → Except ε β}

theorem ok_of_bind (bound : computed.bind f = .ok result) :
    ∃ value, computed = .ok value ∧ f value = .ok result := by
  cases computed with
  | error => cases bound
  | ok value => exact ⟨value, rfl, bound⟩

variable {items : List α} {results : List β}

theorem mem_of_mapM (mapped : items.mapM f = .ok results) (there : result ∈ results) :
    ∃ item ∈ items, f item = .ok result := by
  induction items generalizing results with
  | nil =>
    rw [List.mapM_nil] at mapped
    cases mapped
    cases there
  | cons item rest ih =>
    rw [List.mapM_cons] at mapped
    cases first : f item with
    | error =>
      rw [first] at mapped
      cases mapped
    | ok =>
      cases others : rest.mapM f with
      | error =>
        rw [first, others] at mapped
        cases mapped
      | ok =>
        rw [first, others] at mapped
        cases mapped
        rcases List.mem_cons.mp there with rfl | there
        · exact ⟨item, List.mem_cons_self, first⟩
        · obtain ⟨item', here, same⟩ := ih others there
          exact ⟨item', List.mem_cons_of_mem _ here, same⟩

/-- What the steps leave alone is left alone by all of them. -/
theorem map_of_mapM {γ : Type} {before : α → γ} {after : β → γ}
    (kept : ∀ item result, f item = .ok result → after result = before item)
    (mapped : items.mapM f = .ok results) :
    results.map after = items.map before := by
  induction items generalizing results with
  | nil =>
    rw [List.mapM_nil] at mapped
    cases mapped
    rfl
  | cons item rest ih =>
    rw [List.mapM_cons] at mapped
    cases first : f item with
    | error =>
      rw [first] at mapped
      cases mapped
    | ok head =>
      cases others : rest.mapM f with
      | error =>
        rw [first, others] at mapped
        cases mapped
      | ok =>
        rw [first, others] at mapped
        cases mapped
        rw [List.map_cons, List.map_cons, kept item head first, ih others]

end Graphorin.Lib
