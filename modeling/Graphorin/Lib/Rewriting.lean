import Mathlib.Data.List.Basic

namespace Graphorin.Lib

/-! Replacing every match in a text, left to right. A letter carries more than the code
the matches look at. -/

variable {α β : Type} [DecidableEq β] (code : α → β)

def startsWith (pattern : List β) (text : List α) : Bool :=
  pattern.isPrefixOf (text.map code)

def includes (pattern : List β) : List α → Bool
  | [] => pattern.isEmpty
  | letter :: rest => startsWith code pattern (letter :: rest) || includes pattern rest

/-- `find` gives the length of a match at the start of the text, and what replaces it;
the letters of a match that are left to skip are counted down. -/
def rewriteAll (find : List α → Option (Nat × List α)) : Nat → List α → List α
  | _, [] => []
  | skip + 1, _ :: rest => rewriteAll find skip rest
  | 0, letter :: rest =>
    match find (letter :: rest) with
    | some (length, replacement) => replacement ++ rewriteAll find (length - 1) rest
    | none => letter :: rewriteAll find 0 rest

variable {code}

@[simp] theorem startsWith_nil (text : List α) : startsWith code [] text = true := by
  simp [startsWith]

@[simp] theorem startsWith_cons (first : β) (pattern : List β) (letter : α) (text : List α) :
    startsWith code (first :: pattern) (letter :: text) =
      (first == code letter && startsWith code pattern text) := rfl

theorem includes_cons (pattern : List β) (letter : α) (text : List α) :
    includes code pattern (letter :: text) =
      (startsWith code pattern (letter :: text) || includes code pattern text) := rfl

variable {pattern : List β} {text : List α}

theorem startsWith_iff : startsWith code pattern text = true ↔
      ∃ front back, text = front ++ back ∧ front.map code = pattern := by
  rw [startsWith, List.isPrefixOf_iff_prefix]
  constructor
  · rintro ⟨back, joined⟩
    obtain ⟨front, back', rfl, rfl, -⟩ := List.map_eq_append_iff.mp joined.symm
    exact ⟨front, back', rfl, rfl⟩
  · rintro ⟨front, back, rfl, rfl⟩
    exact ⟨back.map code, List.map_append.symm⟩

theorem includes_iff : includes code pattern text = true ↔
      ∃ before middle after, text = before ++ middle ++ after ∧
        middle.map code = pattern := by
  induction text with
  | nil =>
    rw [includes, List.isEmpty_iff]
    constructor
    · rintro rfl
      exact ⟨[], [], [], rfl, rfl⟩
    · rintro ⟨before, middle, after, joined, rfl⟩
      have nil := List.append_eq_nil_iff.mp joined.symm
      rw [(List.append_eq_nil_iff.mp nil.1).2]
      rfl
  | cons letter _ ih =>
    rw [includes, Bool.or_eq_true, ih, startsWith_iff]
    constructor
    · rintro (⟨front, back, joined, same⟩ | ⟨before, middle, after, rfl, same⟩)
      · exact ⟨[], front, back, joined, same⟩
      · exact ⟨letter :: before, middle, after, rfl, same⟩
    · rintro ⟨before, middle, after, joined, same⟩
      cases before with
      | nil => exact .inl ⟨middle, after, joined, same⟩
      | cons _ before =>
        injection joined with _ joined
        exact .inr ⟨before, middle, after, joined, same⟩

theorem includes_append {before after : List α} (there : includes code pattern text = true) :
    includes code pattern (before ++ text ++ after) = true := by
  obtain ⟨front, middle, back, rfl, same⟩ := includes_iff.mp there
  exact includes_iff.mpr ⟨before ++ front, middle, back ++ after, by simp, same⟩

variable {letter : α}

theorem startsWith_parted (absent : code letter ∉ pattern) (before after : List α) :
    startsWith code pattern (before ++ letter :: after) = startsWith code pattern before := by
  induction pattern generalizing before with
  | nil => rw [startsWith_nil, startsWith_nil]
  | cons first _ ih =>
    cases before with
    | nil =>
      have other : first ≠ code letter := fun same => absent (same ▸ List.mem_cons_self)
      rw [List.nil_append, startsWith_cons, beq_false_of_ne other]
      rfl
    | cons =>
      rw [List.cons_append, startsWith_cons, startsWith_cons,
        ih (fun there => absent (List.mem_cons_of_mem _ there))]

variable {first : β}

theorem includes_parted (absent : code letter ∉ first :: pattern) (before after : List α) :
    includes code (first :: pattern) (before ++ letter :: after) =
      (includes code (first :: pattern) before ||
        includes code (first :: pattern) after) := by
  induction before with
  | nil =>
    have other := startsWith_parted absent [] after
    rw [List.nil_append] at other
    rw [List.nil_append, includes_cons, other]
    rfl
  | cons head before ih =>
    have same := startsWith_parted absent (head :: before) after
    rw [List.cons_append] at same
    rw [List.cons_append, includes_cons, same, ih, includes_cons, Bool.or_assoc]

def Foreign (code : α → β) (pattern : List β) (find : List α → Option (Nat × List α)) :
    Prop :=
  ∀ text length replacement, find text = some (length, replacement) →
    (∃ first rest, replacement = first :: rest ∧ code first ∉ pattern) ∧
      ∀ letter ∈ replacement, some (code letter) ≠ pattern.head?

variable {find : List α → Option (Nat × List α)}

theorem startsWith_of_rewritten
    (foreign : ∀ text length replacement, find text = some (length, replacement) → ∃ first rest,
      replacement = first :: rest ∧ code first ∉ pattern)
    (starts : startsWith code pattern (rewriteAll find 0 text) = true) :
    startsWith code pattern text = true := by
  induction pattern generalizing text with
  | nil => exact startsWith_nil text
  | cons first pattern ih =>
    cases text with
    | nil => cases starts
    | cons letter rest =>
      rw [rewriteAll] at starts
      split at starts
      · rename_i length replacement found
        obtain ⟨head, tail, rfl, absent⟩ := foreign _ _ _ found
        rw [List.cons_append, startsWith_cons, Bool.and_eq_true, beq_iff_eq] at starts
        exact absurd (List.mem_cons.mpr (.inl starts.1.symm)) absent
      · rw [startsWith_cons, Bool.and_eq_true] at starts ⊢
        refine ⟨starts.1, ih ?_ starts.2⟩
        intro text' length replacement found
        obtain ⟨head, tail, same, absent⟩ := foreign text' length replacement found
        exact ⟨head, tail, same, fun there => absent (List.mem_cons_of_mem _ there)⟩

/-- A pattern is in the result only where it was found in the text and not replaced. -/
theorem includes_of_rewritten (foreign : Foreign code (first :: pattern) find) :
    ∀ (text : List α) (skip : Nat),
      includes code (first :: pattern) (rewriteAll find skip text) = true →
        ∃ before rest, text = before ++ rest ∧ find rest = none ∧
          startsWith code (first :: pattern) rest = true := by
  intro text
  induction text with
  | nil =>
    intro skip there
    cases skip <;> cases there
  | cons letter rest ih =>
    intro skip there
    have later : ∀ skip', includes code (first :: pattern) (rewriteAll find skip' rest) =
        true → ∃ before rest', letter :: rest = before ++ rest' ∧ find rest' = none ∧
          startsWith code (first :: pattern) rest' = true := by
      intro skip' there'
      obtain ⟨before, rest', joined, unfound, starts⟩ := ih skip' there'
      exact ⟨letter :: before, rest', congrArg (letter :: ·) joined, unfound, starts⟩
    cases skip with
    | succ skip => exact later skip there
    | zero =>
      rw [rewriteAll] at there
      split at there
      · rename_i length replacement found
        obtain ⟨-, apart⟩ := foreign _ _ _ found
        -- No letter of the replacement starts the pattern.
        have beyond : ∀ front : List α,
            (∀ letter ∈ front, some (code letter) ≠ (first :: pattern).head?) →
              ∀ back, includes code (first :: pattern) (front ++ back) = true →
                includes code (first :: pattern) back = true := by
          intro front
          induction front with
          | nil => exact fun _ _ there => there
          | cons head _ ih =>
            intro apart back there
            refine ih (fun letter here => apart letter (List.mem_cons_of_mem _ here))
              back ?_
            rw [List.cons_append, includes, startsWith_cons, Bool.or_eq_true,
              Bool.and_eq_true, beq_iff_eq] at there
            rcases there with ⟨same, -⟩ | there
            · exact absurd (congrArg some same.symm) (apart head List.mem_cons_self)
            · exact there
        exact later _ (beyond replacement apart _ there)
      · rename_i unfound
        rw [includes, Bool.or_eq_true] at there
        rcases there with starts | there
        · refine ⟨[], letter :: rest, rfl, unfound, ?_⟩
          apply startsWith_of_rewritten
            (fun text' length replacement found => (foreign text' length replacement
              found).1)
          rw [rewriteAll, unfound]
          exact starts
        · exact later 0 there

/-- What is found wherever the pattern starts is gone from the result. -/
theorem includes_rewritten_eq_false (foreign : Foreign code (first :: pattern) find)
    (finds : ∀ text, startsWith code (first :: pattern) text = true → find text ≠ none)
    (text : List α) : includes code (first :: pattern) (rewriteAll find 0 text) = false := by
  by_contra there
  obtain ⟨before, rest, -, unfound, starts⟩ :=
    includes_of_rewritten foreign text 0 (Bool.not_eq_false _ ▸ there)
  exact finds rest starts unfound

/-- Rewriting makes no pattern that was not there. -/
theorem includes_rewritten_of_false (foreign : Foreign code (first :: pattern) find)
    (absent : includes code (first :: pattern) text = false) :
    includes code (first :: pattern) (rewriteAll find 0 text) = false := by
  by_contra there
  obtain ⟨before, rest, rfl, -, starts⟩ :=
    includes_of_rewritten foreign text 0 (Bool.not_eq_false _ ▸ there)
  obtain ⟨front, back, rfl, same⟩ := startsWith_iff.mp starts
  have present : includes code (first :: pattern) (before ++ (front ++ back)) = true :=
    includes_iff.mpr ⟨before, front, back, by simp, same⟩
  rw [absent] at present
  cases present

theorem mem_rewriteAll {kept : α → Prop}
    (replaced : ∀ text length replacement, find text = some (length, replacement) → ∀ letter ∈
      replacement, kept letter) :
    ∀ (text : List α) (skip : Nat), (∀ letter ∈ text, kept letter) →
      ∀ letter ∈ rewriteAll find skip text, kept letter := by
  intro text
  induction text with
  | nil =>
    intro skip _ letter there
    cases skip <;> cases there
  | cons head rest ih =>
    intro skip all letter there
    have all' : ∀ letter ∈ rest, kept letter := fun letter here =>
      all letter (List.mem_cons_of_mem _ here)
    cases skip with
    | succ skip => exact ih skip all' letter there
    | zero =>
      rw [rewriteAll] at there
      split at there
      · rename_i length replacement found
        rcases List.mem_append.mp there with here | there
        · exact replaced _ _ _ found letter here
        · exact ih _ all' letter there
      · rcases List.mem_cons.mp there with rfl | there
        · exact all letter List.mem_cons_self
        · exact ih 0 all' letter there

end Graphorin.Lib
