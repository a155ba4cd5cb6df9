import Graphorin.Lib.Rewriting

namespace Graphorin.Lib

/-! Where a test accepts what is left of a text, and what rewriting does to these places. -/

section Places

variable {α : Type} {test : List α → Bool}

def places (test : List α → Bool) (text : List α) : List Nat :=
  (List.range text.length).filter fun place => test (text.drop place)

def Clear (test : List α → Bool) (text : List α) : Prop :=
  ∀ rest, rest <:+ text → test rest = false

structure Anchored (test : List α → Bool) : Prop where
  nothing : test [] = false
  onward : ∀ before after, test before = true → test (before ++ after) = true

def Parts (test : List α → Bool) (letter : α) : Prop :=
  ∀ before after, test (before ++ letter :: after) = true → test before = true

theorem places_cons (letter : α) (text : List α) :
    places test (letter :: text) =
      (if test (letter :: text) then [0] else []) ++ (places test text).map (· + 1) := by
  have later : (fun place => test ((letter :: text).drop place)) ∘ Nat.succ =
      fun place => test (text.drop place) := rfl
  rw [places, List.length_cons, List.range_succ_eq_map, List.filter_cons, List.filter_map, later,
    List.drop_zero]
  split <;> rfl

variable {text : List α}

theorem places_eq_nil (anchored : Anchored test) :
    places test text = [] ↔ Clear test text := by
  induction text with
  | nil =>
    refine iff_of_true rfl fun rest within => ?_
    rw [List.suffix_nil.mp within, anchored.nothing]
  | cons letter text ih =>
    rw [places_cons, List.append_eq_nil_iff, List.map_eq_nil_iff, ih]
    constructor
    · rintro ⟨here, later⟩ rest within
      rcases List.suffix_cons_iff.mp within with rfl | within
      · by_contra accepted
        rw [if_pos (Bool.not_eq_false _ ▸ accepted)] at here
        cases here
      · exact later rest within
    · intro clear
      refine ⟨?_, fun rest within => clear rest (within.trans (List.suffix_cons _ _))⟩
      rw [clear _ List.suffix_rfl]
      rfl

variable {letter : α}

theorem Parts.refuses (anchored : Anchored test) (parts : Parts test letter)
    (after : List α) : test (letter :: after) = false := by
  by_contra accepted
  have before := parts [] after (Bool.not_eq_false _ ▸ accepted)
  rw [anchored.nothing] at before
  cases before

theorem Parts.test_eq (anchored : Anchored test) (parts : Parts test letter)
    (before after : List α) : test (before ++ letter :: after) = test before :=
  Bool.eq_iff_iff.mpr ⟨parts before after, anchored.onward before _⟩

theorem places_joined {tail : List α} {before : List α}
    (same : ∀ rest, rest <:+ before → test (rest ++ tail) = test rest) :
    places test (before ++ tail) =
      places test before ++ (places test tail).map (· + before.length) := by
  induction before with
  | nil => simp [places]
  | cons head before ih =>
    have here := same (head :: before) List.suffix_rfl
    rw [List.cons_append] at here
    rw [List.cons_append, places_cons, here,
      ih fun rest within => same rest (within.trans (List.suffix_cons _ _)), places_cons,
      List.map_append, List.map_map, List.append_assoc]
    rfl

theorem places_parted (anchored : Anchored test) (parts : Parts test letter)
    (before after : List α) : places test (before ++ letter :: after) =
      places test before ++ (places test after).map (· + (before.length + 1)) := by
  rw [places_joined fun rest _ => parts.test_eq anchored rest after, places_cons,
    parts.refuses anchored, if_neg Bool.false_ne_true, List.nil_append, List.map_map]
  refine congrArg (places test before ++ ·) (List.map_congr_left fun place _ => ?_)
  exact (Nat.add_assoc place 1 _).trans (congrArg (place + ·) (Nat.add_comm 1 _))

theorem clear_parted (anchored : Anchored test) (parts : Parts test letter)
    (before after : List α) :
    Clear test (before ++ letter :: after) ↔ Clear test before ∧ Clear test after := by
  rw [← places_eq_nil anchored, places_parted anchored parts, List.append_eq_nil_iff,
    List.map_eq_nil_iff, places_eq_nil anchored, places_eq_nil anchored]

variable {find : List α → Option (Nat × List α)}

def Shielded (test : List α → Bool) (find : List α → Option (Nat × List α)) : Prop :=
  ∀ text length replacement, find text = some (length, replacement) →
    (∃ first rest, replacement = first :: rest ∧ Parts test first) ∧
      ∀ letter ∈ replacement, ∀ after, test (letter :: after) = false

/-- The result is the text up to the first match. -/
theorem rewriteAll_front (text : List α) :
    ∃ kept rest after, text = kept ++ rest ∧ rewriteAll find 0 text = kept ++ after ∧
      (rest = [] ∧ after = [] ∨
        ∃ length replacement more, find rest = some (length, replacement) ∧
          after = replacement ++ more) := by
  induction text with
  | nil => exact ⟨[], [], [], rfl, rfl, .inl ⟨rfl, rfl⟩⟩
  | cons letter text ih =>
    cases found : find (letter :: text) with
    | some match' =>
      obtain ⟨length, replacement⟩ := match'
      refine ⟨[], letter :: text, _, rfl, rfl,
        .inr ⟨length, replacement, rewriteAll find (length - 1) text, found, ?_⟩⟩
      rw [rewriteAll.eq_def, found]
    | none =>
      obtain ⟨kept, rest, after, joined, rewritten, ends⟩ := ih
      refine ⟨letter :: kept, rest, after, by rw [joined]; rfl, ?_, ends⟩
      rw [rewriteAll, found]
      exact congrArg (letter :: ·) rewritten

theorem test_of_rewritten (anchored : Anchored test) (shielded : Shielded test find)
    {text : List α} (accepted : test (rewriteAll find 0 text) = true) : test text = true := by
  obtain ⟨kept, rest, after, joined, rewritten, ends⟩ := @rewriteAll_front _ find text
  rw [rewritten] at accepted
  rw [joined]
  refine anchored.onward kept rest ?_
  rcases ends with ⟨-, rfl⟩ | ⟨length, replacement, more, found, rfl⟩
  · exact List.append_nil kept ▸ accepted
  · obtain ⟨⟨first, others, rfl, parts⟩, -⟩ := shielded rest length replacement found
    exact parts kept _ accepted

theorem suffix_beyond {front back rest : List α}
    (apart : ∀ letter ∈ front, ∀ after, test (letter :: after) = false)
    (within : rest <:+ front ++ back) (accepted : test rest = true) : rest <:+ back := by
  induction front with
  | nil => exact within
  | cons head _ ih =>
    rw [List.cons_append, List.suffix_cons_iff] at within
    rcases within with rfl | within
    · rw [apart head List.mem_cons_self] at accepted
      cases accepted
    · exact ih (fun letter among => apart letter (List.mem_cons_of_mem _ among)) within

/-- The test accepts in the result only where it did in the text and nothing was found. -/
theorem accepted_of_rewritten (anchored : Anchored test) (shielded : Shielded test find) :
    ∀ (text : List α) (skip : Nat) {rest : List α}, rest <:+ rewriteAll find skip text →
      test rest = true → ∃ rest', rest' <:+ text ∧ find rest' = none ∧ test rest' = true := by
  intro text
  induction text with
  | nil =>
    intro skip rest within accepted
    have empty : rewriteAll find skip [] = [] := by cases skip <;> rfl
    rw [empty, List.suffix_nil] at within
    rw [within, anchored.nothing] at accepted
    cases accepted
  | cons letter text ih =>
    intro skip rest within accepted
    have later {skip' : Nat} (within' : rest <:+ rewriteAll find skip' text) :
        ∃ rest', rest' <:+ letter :: text ∧ find rest' = none ∧ test rest' = true := by
      obtain ⟨rest', among, unfound, there⟩ := ih skip' within' accepted
      exact ⟨rest', among.trans (List.suffix_cons _ _), unfound, there⟩
    cases skip with
    | succ => exact later within
    | zero =>
      cases found : find (letter :: text) with
      | some match' =>
        obtain ⟨length, replacement⟩ := match'
        rw [rewriteAll, found] at within
        exact later
          (suffix_beyond (shielded _ length replacement found).2 within accepted)
      | none =>
        have whole := @test_of_rewritten _ _ _ anchored shielded (letter :: text)
        rw [rewriteAll, found] at within whole
        rcases List.suffix_cons_iff.mp within with rfl | within
        · exact ⟨letter :: text, List.suffix_rfl, found, whole accepted⟩
        · exact later within

theorem clear_rewritten (anchored : Anchored test) (shielded : Shielded test find)
    (finds : ∀ rest, test rest = true → find rest ≠ none) (text : List α) :
    Clear test (rewriteAll find 0 text) := by
  intro rest within
  by_contra accepted
  obtain ⟨rest', -, unfound, there⟩ :=
    accepted_of_rewritten anchored shielded text 0 within (Bool.not_eq_false _ ▸ accepted)
  exact finds rest' there unfound

theorem Clear.rewritten (anchored : Anchored test) (shielded : Shielded test find)
    (clear : Clear test text) : Clear test (rewriteAll find 0 text) := by
  intro rest within
  by_contra accepted
  obtain ⟨rest', among, -, there⟩ :=
    accepted_of_rewritten anchored shielded text 0 within (Bool.not_eq_false _ ▸ accepted)
  rw [clear rest' among] at there
  cases there

theorem rewriteAll_eq_self (unfound : ∀ rest, rest <:+ text → find rest = none) :
    rewriteAll find 0 text = text := by
  induction text with
  | nil => rfl
  | cons letter _ ih =>
    rw [rewriteAll, unfound _ List.suffix_rfl]
    exact congrArg (letter :: ·)
      (ih fun rest within => unfound rest (within.trans (List.suffix_cons _ _)))

end Places

/-! Patterns of letters, told apart up to a folding, with runs of blanks in between. -/

inductive Piece (α : Type) where
  | letter (expected : α)
  | blanks
  deriving DecidableEq

section Consuming

variable {α : Type} [DecidableEq α] (fold : α → α) (blank : α → Bool)

def consume : List (Piece α) → List α → Option (List α)
  | [], text => some text
  | .letter _ :: _, [] => none
  | .letter expected :: pattern, head :: text =>
    if fold head = expected then consume pattern text else none
  | .blanks :: pattern, text => consume pattern (text.dropWhile blank)

variable {fold blank}

variable {pattern : List (Piece α)}

theorem consume_of_nil (consumed : (consume fold blank pattern []).isSome) (text : List α) :
    (consume fold blank pattern text).isSome := by
  induction pattern generalizing text with
  | nil => rfl
  | cons piece _ ih =>
    cases piece with
    | letter => cases consumed
    | blanks => exact ih consumed _

omit [DecidableEq α] in
theorem dropWhile_joined (before after : List α) : (before.dropWhile blank = [] ∧
        (before ++ after).dropWhile blank = after.dropWhile blank) ∨
      (before ++ after).dropWhile blank = before.dropWhile blank ++ after := by
  induction before with
  | nil => exact .inl ⟨rfl, rfl⟩
  | cons head _ ih =>
    rw [List.cons_append, List.dropWhile_cons, List.dropWhile_cons]
    cases blank head with
    | true => exact ih
    | false => exact .inr rfl

variable {before : List α}

theorem consume_append (consumed : (consume fold blank pattern before).isSome)
    (after : List α) : (consume fold blank pattern (before ++ after)).isSome := by
  induction pattern generalizing before with
  | nil => rfl
  | cons piece pattern ih =>
    cases piece with
    | letter expected =>
      cases before with
      | nil => cases consumed
      | cons head before =>
        rw [consume] at consumed
        rw [List.cons_append, consume]
        split
        · rename_i same
          rw [if_pos same] at consumed
          exact ih consumed
        · rename_i other
          rw [if_neg other] at consumed
          cases consumed
    | blanks =>
      rw [consume] at consumed ⊢
      rcases @dropWhile_joined _ blank before after with ⟨none, -⟩ | joined
      · rw [none] at consumed
        exact consume_of_nil consumed _
      · rw [joined]
        exact ih consumed

variable {letter : α}

variable {after : List α}

/-- A letter that is neither blank nor in the pattern is not read. -/
theorem consume_parted (foreign : .letter (fold letter) ∉ pattern)
    (visible : blank letter = false)
    (consumed : (consume fold blank pattern (before ++ letter :: after)).isSome) :
    (consume fold blank pattern before).isSome := by
  induction pattern generalizing before with
  | nil => rfl
  | cons piece pattern ih =>
    have foreign' := fun among => foreign (List.mem_cons_of_mem piece among)
    cases piece with
    | letter expected =>
      cases before with
      | nil =>
        rw [List.nil_append, consume] at consumed
        split at consumed
        · rename_i same
          exact absurd (same ▸ List.mem_cons_self) foreign
        · cases consumed
      | cons head before =>
        rw [List.cons_append, consume] at consumed
        rw [consume]
        split at consumed
        · rename_i same
          rw [if_pos same]
          exact ih foreign' consumed
        · cases consumed
    | blanks =>
      rw [consume] at consumed ⊢
      rcases @dropWhile_joined _ blank before (letter :: after) with
        ⟨none, joined⟩ | joined
      · rw [joined, List.dropWhile_cons, visible] at consumed
        rw [none]
        exact ih foreign'
          (show (consume fold blank pattern ([] ++ letter :: after)).isSome from consumed)
      · rw [joined] at consumed
        exact ih foreign' consumed

/-- Nor is a blank that is in no pattern read, where no pattern goes on after it. -/
theorem consume_parted_blank (foreign : .letter (fold letter) ∉ pattern)
    (hidden : blank letter = true)
    (stops : ∀ rest, rest <:+ pattern → rest.head? = some .blanks →
      consume fold blank rest after = none)
    (consumed : (consume fold blank pattern (before ++ letter :: after)).isSome) :
    (consume fold blank pattern before).isSome := by
  induction pattern generalizing before with
  | nil => rfl
  | cons piece pattern ih =>
    have foreign' := fun among => foreign (List.mem_cons_of_mem piece among)
    have stops' := fun rest (within : rest <:+ pattern) =>
      stops rest (within.trans (List.suffix_cons _ _))
    cases piece with
    | letter expected =>
      cases before with
      | nil =>
        rw [List.nil_append, consume] at consumed
        split at consumed
        · rename_i same
          exact absurd (same ▸ List.mem_cons_self) foreign
        · cases consumed
      | cons head before =>
        rw [List.cons_append, consume] at consumed
        rw [consume]
        split at consumed
        · rename_i same
          rw [if_pos same]
          exact ih foreign' stops' consumed
        · cases consumed
    | blanks =>
      rw [consume] at consumed ⊢
      rcases @dropWhile_joined _ blank before (letter :: after) with
        ⟨-, joined⟩ | joined
      · rw [joined, List.dropWhile_cons, if_pos hidden] at consumed
        have stopped := stops _ List.suffix_rfl rfl
        rw [consume] at stopped
        rw [stopped] at consumed
        cases consumed
      · rw [joined] at consumed
        exact ih foreign' stops' consumed

variable {expected : α}

theorem anchored_consume :
    Anchored fun text => (consume fold blank (.letter expected :: pattern) text).isSome :=
  ⟨rfl, fun _ after consumed => consume_append consumed after⟩

theorem parts_consume (foreign : .letter (fold letter) ∉ pattern)
    (visible : blank letter = false) :
    Parts (fun text => (consume fold blank pattern text).isSome) letter :=
  fun _ _ consumed => consume_parted foreign visible consumed

theorem consume_apart (other : fold letter ≠ expected) (after : List α) :
    (consume fold blank (.letter expected :: pattern) (letter :: after)).isSome = false := by
  rw [consume, if_neg other]
  rfl

end Consuming

end Graphorin.Lib
