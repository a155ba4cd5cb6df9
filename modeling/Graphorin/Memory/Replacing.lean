import Graphorin.Lib.Tolerant
import Graphorin.Memory.Edits

/-!
# Targeted replacement of block text

`replace` counts the occurrences of its needle without overlaps and hands the new text to
the language's `replace`, which expands its dollar patterns.
-/

namespace Graphorin.Memory

open Lib Audit

/-- The positions at which a needle occurs, those that overlap among them. -/
def occurrences (needle haystack : JsText) : List Nat := places needle.isPrefixOf haystack

/-- The text with `inserted` for the needle at a position. -/
def spliced (haystack needle inserted : JsText) (place : Nat) : JsText :=
  haystack.take place ++ inserted ++ haystack.drop (place + needle.length)

def expanded (current oldUnique newText : JsText) (place : Nat) : JsText :=
  spliced current oldUnique (substitute oldUnique (current.take place)
    (current.drop (place + oldUnique.length)) newText) place

/-- What a replacement is to store, `none` where it is to fail. -/
def replacement (definition : BlockDefinition) (current oldUnique newText : JsText) :
    Option JsText :=
  match occurrences oldUnique current with
  | [place] =>
    if oldUnique = [] then none
    else (enforceCharLimit (spliced current oldUnique newText place) definition).toOption
  | _ => none

section Needle

variable {needle : JsText} (some' : needle ≠ [])

include some'

theorem isPrefixOf_anchored : Anchored needle.isPrefixOf := by
  refine ⟨?_, fun before after there => ?_⟩
  · cases needle with
    | nil => exact absurd rfl some'
    | cons => rfl
  · rw [List.isPrefixOf_iff_prefix] at there ⊢
    exact there.trans (List.prefix_append _ _)

theorem splitFirst_nil : splitFirst needle [] = none := by
  rw [splitFirst, if_neg]
  rw [List.isEmpty_iff]
  exact some'

/-- The first occurrence is where `splitFirst` parts the text. -/
theorem splitFirst_places (haystack : JsText) :
    match splitFirst needle haystack with
    | none => occurrences needle haystack = []
    | some (before, after) =>
      haystack = before ++ needle ++ after ∧
        ∃ later, occurrences needle haystack = before.length :: later := by
  induction haystack with
  | nil =>
    rw [splitFirst_nil some']
    rfl
  | cons unit rest ih =>
    rw [splitFirst, occurrences, places_cons]
    split
    · rename_i here
      split at here
      · rename_i starts
        cases here
      · rename_i absent
        rw [Option.map_eq_none_iff] at here
        rw [here] at ih
        rw [if_neg absent, ← occurrences, ih]
        rfl
    · rename_i before after here
      split at here
      · rename_i starts
        cases here
        obtain ⟨back, joined⟩ := List.isPrefixOf_iff_prefix.mp starts
        rw [if_pos starts]
        refine ⟨?_, _, rfl⟩
        rw [List.nil_append, ← joined, List.drop_left]
      · rename_i absent
        obtain ⟨⟨before', after'⟩, found, same⟩ := Option.map_eq_some_iff.mp here
        cases same
        rw [found] at ih
        obtain ⟨joined, later, first⟩ := ih
        rw [if_neg absent, ← occurrences, first]
        exact ⟨congrArg (unit :: ·) joined, _, rfl⟩

variable {haystack : JsText}

theorem mem_occurrences {place : Nat} : place ∈ occurrences needle haystack ↔
      needle.isPrefixOf (haystack.drop place) = true := by
  rw [occurrences, places, List.mem_filter, List.mem_range]
  refine and_iff_right_of_imp fun there => ?_
  by_contra past
  rw [List.drop_eq_nil_of_le (by omega), (isPrefixOf_anchored some').nothing] at there
  cases there

theorem occurrences_after {before after : JsText} : occurrences needle after = [] ↔
      ∀ place ∈ occurrences needle (before ++ after), place < before.length := by
  simp only [List.eq_nil_iff_forall_not_mem, mem_occurrences some']
  constructor
  · intro none place there
    by_contra beyond
    refine none (place - before.length) ?_
    rw [List.drop_append, List.drop_eq_nil_of_le (by omega), List.nil_append] at there
    exact there
  · intro within place there
    have beyond := within (before.length + place)
    rw [List.drop_append, List.drop_eq_nil_of_le (by omega), List.nil_append,
      Nat.add_sub_cancel_left] at beyond
    exact absurd (beyond there) (by omega)

theorem countFrom_eq_zero (enough : haystack.length ≤ fuel) :
    countFrom needle fuel haystack = 0 ↔ occurrences needle haystack = [] := by
  have parted := splitFirst_places some' haystack
  cases fuel with
  | zero =>
    rw [List.length_eq_zero_iff.mp (Nat.le_zero.mp enough)]
    exact iff_of_true rfl rfl
  | succ =>
    rw [countFrom]
    cases found : splitFirst needle haystack with
    | none =>
      rw [found] at parted
      exact iff_of_true rfl parted
    | some =>
      rw [found] at parted
      obtain ⟨-, later, first⟩ := parted
      rw [first]
      exact iff_of_false (Nat.succ_ne_zero _) (List.cons_ne_nil _ _)

/-- The count is one also where all other occurrences overlap the first one. -/
theorem countOccurrences_eq_one : countOccurrences haystack needle = 1 ↔
      ∃ first later, occurrences needle haystack = first :: later ∧
        ∀ place ∈ later, place < first + needle.length := by
  have parted := splitFirst_places some' haystack
  have counted : countOccurrences haystack needle =
      countFrom needle haystack.length haystack := by
    rw [countOccurrences, if_neg]
    rw [List.isEmpty_iff]
    exact some'
  rw [counted]
  split at parted
  · rename_i none
    rw [(countFrom_eq_zero some' le_rfl).mpr parted, parted]
    exact iff_of_false Nat.zero_ne_one (by rintro ⟨_, _, same, -⟩; cases same)
  · rename_i before after found
    obtain ⟨joined, later, first⟩ := parted
    have length := congrArg List.length joined
    rw [List.length_append, List.length_append] at length
    have positive := List.length_pos_iff.mpr some'
    obtain ⟨fuel, fuelIs⟩ : ∃ fuel, haystack.length = fuel + 1 := ⟨haystack.length - 1, by omega⟩
    have one : countFrom needle haystack.length haystack = 1 ↔
        occurrences needle after = [] := by
      rw [fuelIs, countFrom, found, Nat.succ_inj]
      exact countFrom_eq_zero some' (by omega)
    have within : occurrences needle after = [] ↔
        ∀ place ∈ occurrences needle (before ++ needle ++ after),
          place < (before ++ needle).length := occurrences_after some'
    rw [← joined, first, List.length_append, List.forall_mem_cons] at within
    rw [one, within, first]
    constructor
    · rintro ⟨-, near⟩
      exact ⟨_, _, rfl, near⟩
    · rintro ⟨_, _, same, near⟩
      cases same
      exact ⟨by omega, near⟩

theorem replaceFirst_of_first {newText : JsText}
    (found : occurrences needle haystack = first :: later) :
    replaceFirst haystack needle newText =
      expanded haystack needle newText first := by
  have parted := splitFirst_places some' haystack
  rw [replaceFirst]
  cases shape : splitFirst needle haystack with
  | none =>
    rw [shape] at parted
    cases parted.symm.trans found
  | some parts =>
    obtain ⟨before, after⟩ := parts
    rw [shape] at parted
    obtain ⟨joined, later', first'⟩ := parted
    cases first'.symm.trans found
    have front : haystack.take before.length = before := by
      rw [joined, List.append_assoc, List.take_left]
    have back : haystack.drop (before.length + needle.length) = after := by
      rw [joined, ← List.length_append, List.drop_left]
    rw [expanded, spliced, front, back]

end Needle

/-- The text as it is stored, unless it overflows. -/
def kept (definition : BlockDefinition) (text : JsText) : Option JsText :=
  (enforceCharLimit text definition).toOption

/-- Where there are several occurrences and all overlap the first one, the text overflows. -/
def Uncrowded (definition : BlockDefinition) (current oldUnique newText : JsText) : Prop :=
  ∀ first later, occurrences oldUnique current = first :: later → later ≠ [] →
    (∀ place ∈ later, place < first + oldUnique.length) →
      kept definition (expanded current oldUnique newText first) = none

/-- The dollar patterns of the new text expand, at the only occurrence, to what is stored as
the new text itself would be. -/
def Literal (definition : BlockDefinition) (current oldUnique newText : JsText) : Prop :=
  ∀ place, oldUnique ≠ [] → occurrences oldUnique current = [place] →
    kept definition (expanded current oldUnique newText place) =
      kept definition (spliced current oldUnique newText place)

/-- No dollar pattern is in the text. -/
def Plain : JsText → Prop
  | unit :: next :: rest =>
    (unit = 0x24 → next ≠ 0x24 ∧ next ≠ 0x26 ∧ next ≠ 0x60 ∧ next ≠ 0x27) ∧
      Plain (next :: rest)
  | _ => True

def Plain.decide : (text : JsText) → Decidable (Plain text)
  | _ :: next :: rest => @instDecidableAnd _ _ _ (Plain.decide (next :: rest))
  | [_] => isTrue trivial
  | [] => isTrue trivial

instance (text : JsText) : Decidable (Plain text) := Plain.decide text

theorem substitute_plain (matched before after : JsText) (plain : Plain template) :
    substitute matched before after template = template := by
  induction template with
  | nil => rw [substitute]
  | cons unit rest ih =>
    cases rest with
    | nil => rw [substitute]
    | cons next rest =>
      obtain ⟨alone, plain⟩ := plain
      rw [substitute, ih plain]
      split
      · rename_i dollar
        obtain ⟨one, two, three, four⟩ := alone dollar
        rw [if_neg one, if_neg two, if_neg three, if_neg four]
      · rfl

theorem literal_of_plain (definition : BlockDefinition) (current oldUnique : JsText)
    (plain : Plain newText) : Literal definition current oldUnique newText := by
  intro place _ _
  rw [expanded, substitute_plain _ _ _ plain]

theorem apply_replace_iff (definition : BlockDefinition) (value : Option JsText)
    (oldUnique newText : JsText) :
    (Edit.apply definition (.replace oldUnique newText) value).toOption =
        replacement definition ((value.or definition.defaultValue).getD []) oldUnique newText ↔
      Uncrowded definition ((value.or definition.defaultValue).getD []) oldUnique newText ∧
        Literal definition ((value.or definition.defaultValue).getD []) oldUnique newText := by
  generalize currentIs : (value.or definition.defaultValue).getD [] = current
  have applied : (Edit.apply definition (.replace oldUnique newText) value).toOption =
      if countOccurrences current oldUnique = 1 then
        kept definition (replaceFirst current oldUnique newText) else none := by
    rw [Edit.apply, Edit.nextValue, currentIs]
    by_cases one : countOccurrences current oldUnique = 1
    · simp only [one, ne_eq, not_true_eq_false, if_false, if_true]
      rfl
    · simp only [one, ne_eq, not_false_eq_true, if_true, if_false]
      rfl
  rw [applied]
  by_cases some' : oldUnique = []
  · have none : replacement definition current oldUnique newText = none := by
      rw [replacement]
      split
      · exact if_pos some'
      · rfl
    have zero : countOccurrences current oldUnique = 0 := by
      rw [some']
      rfl
    rw [none, zero, if_neg Nat.zero_ne_one]
    refine iff_of_true rfl ⟨?_, fun place other => absurd some' other⟩
    intro first later found others near
    obtain ⟨place, rest, rfl⟩ := List.exists_cons_of_ne_nil others
    have sorted : (occurrences oldUnique current).Pairwise (· < ·) :=
      List.pairwise_lt_range.sublist List.filter_sublist
    rw [found] at sorted
    have far := List.rel_of_pairwise_cons sorted List.mem_cons_self
    have close := near place List.mem_cons_self
    rw [some'] at close
    exact absurd close (by simpa using far.le)
  · by_cases one : countOccurrences current oldUnique = 1
    · obtain ⟨first, later, found, near⟩ := (countOccurrences_eq_one some').mp one
      rw [if_pos one, replaceFirst_of_first some' found, replacement, Uncrowded, Literal, found]
      cases later with
      | nil =>
        constructor
        · intro same
          refine ⟨?_, fun place _ found' => ?_⟩
          · intro _ _ found' others
            cases found'
            exact absurd rfl others
          · cases found'
            rw [same]
            exact if_neg some'
        · rintro ⟨-, literal⟩
          exact (literal first some' rfl).trans (if_neg some').symm
      | cons second later =>
        constructor
        · intro same
          refine ⟨?_, fun _ _ found' => by cases found'⟩
          intro _ _ found' _ _
          cases found'
          exact same
        · rintro ⟨uncrowded, -⟩
          exact uncrowded first (second :: later) rfl (List.cons_ne_nil _ _) near
    · have several : ∀ first later, occurrences oldUnique current = first :: later →
          ¬ ∀ place ∈ later, place < first + oldUnique.length :=
        fun first later found near =>
          one ((countOccurrences_eq_one some').mpr ⟨first, later, found, near⟩)
      have none : replacement definition current oldUnique newText = none := by
        rw [replacement]
        split
        · rename_i place found
          exact absurd (fun _ among => absurd among List.not_mem_nil) (several place [] found)
        · rfl
      rw [none, if_neg one]
      refine iff_of_true rfl ⟨?_, ?_⟩
      · intro first later found _ near
        exact absurd near (several first later found)
      · intro place _ found
        exact absurd (fun _ among => absurd among List.not_mem_nil) (several place [] found)

variable {definitions : String → Option BlockDefinition} {calls : Nat → EditCall}

/-- The call stored this value, or it failed and the store is as it was. -/
def Stored (calls : Nat → EditCall) (world world' : BlockWorld) (id : Nat) :
    Option JsText → Prop
  | some value => world'.store.value (calls id).key = some value ∧
      ∃ block, world'.settled = world.settled ++ [(id, .ok block)]
  | none => world'.store = world.store ∧
      ∃ failure, world'.settled = world.settled ++ [(id, .error failure)]

theorem run_alone {world : BlockWorld} {id : Nat} {definition : BlockDefinition}
    (fresh : world.known id = false)
    (defined : definitions (calls id).label = some definition)
    (writable : definition.readOnly = false) (now : Int) :
    let value := world.store.value (calls id).key
    let world' := world.run definitions calls [.start id, .finish id now]
    match (calls id).edit.apply definition value with
    | .ok stored => world'.store.value (calls id).key = some stored ∧
        ∃ block, world'.settled = world.settled ++ [(id, .ok block)]
    | .error failure => world'.store = world.store ∧
        world'.settled = world.settled ++ [(id, .error failure)] := by
  have started : world.step definitions calls (.start id) =
      { world with
        reading := world.reading.set id
          (world.store.read (calls id).scope (calls id).label) } := by
    rw [BlockWorld.step, fresh]
    simp only [defined, writable, Bool.false_eq_true, if_false]
  have read : (world.reading.set id (world.store.read (calls id).scope (calls id).label)).get
      id = some (world.store.read (calls id).scope (calls id).label) := by
    rw [OrderedMap.get_set, if_pos rfl]
  dsimp only
  rw [BlockWorld.run, List.foldl_cons, List.foldl_cons, List.foldl_nil, started,
    BlockWorld.step]
  simp only [read, defined, read_value, EditCall.key]
  cases applied : (calls id).edit.apply definition
      (world.store.value ((calls id).scope.blockKey (calls id).label)) with
  | error => exact ⟨rfl, rfl⟩
  | ok =>
    refine ⟨?_, _, rfl⟩
    exact (upsert_value _ _ _ _).trans (if_pos rfl)

/-- A call of `replace` succeeds exactly at the only occurrence and stores the new text
there, unless its occurrences overlap or its dollar patterns expand; whatever it does, a
failed one leaves the store. -/
theorem replace_stores {world : BlockWorld} {id : Nat} {definition : BlockDefinition}
    {oldUnique newText : JsText} (fresh : world.known id = false)
    (defined : definitions (calls id).label = some definition)
    (writable : definition.readOnly = false)
    (edit : (calls id).edit = .replace oldUnique newText) (now : Int) :
    let current := ((world.store.value (calls id).key).or definition.defaultValue).getD []
    let world' := world.run definitions calls [.start id, .finish id now]
    (Stored calls world world' id (replacement definition current oldUnique newText) ↔
      Uncrowded definition current oldUnique newText ∧
        Literal definition current oldUnique newText) ∧
      (Plain newText → Literal definition current oldUnique newText) ∧
        ∀ failure, world'.settled = world.settled ++ [(id, .error failure)] →
          world'.store = world.store := by
  dsimp only
  have ran := run_alone fresh defined writable now
  rw [edit] at ran
  dsimp only at ran
  refine ⟨?_, literal_of_plain _ _ _, ?_⟩
  · rw [← apply_replace_iff]
    split at ran
    · rename_i stored applied
      obtain ⟨value, block, settled⟩ := ran
      rw [applied, Except.toOption]
      cases replacement definition _ oldUnique newText with
      | none =>
        refine iff_of_false ?_ (fun same => Option.some_ne_none _ same)
        rintro ⟨-, failure, settled'⟩
        rw [settled] at settled'
        cases List.append_cancel_left settled'
      | some =>
        rw [Stored, value, Option.some_inj]
        exact and_iff_left ⟨block, settled⟩
    · rename_i failure applied
      obtain ⟨store, settled⟩ := ran
      rw [applied, Except.toOption]
      cases replacement definition _ oldUnique newText with
      | none => exact iff_of_true ⟨store, failure, settled⟩ rfl
      | some =>
        refine iff_of_false ?_ (fun same => Option.some_ne_none _ same.symm)
        rintro ⟨-, block, settled'⟩
        rw [settled] at settled'
        cases List.append_cancel_left settled'
  · intro failure settled'
    split at ran
    · obtain ⟨-, block, settled⟩ := ran
      rw [settled] at settled'
      cases List.append_cancel_left settled'
    · exact ran.1

def tally : BlockDefinition :=
  { label := "tally", charLimit := 100, defaultValue := some (ascii "aaa: PRICE") }

def tallies : String → Option BlockDefinition := fun label =>
  if label = "tally" then some tally else none

def pricing : Nat → EditCall
  | 0 => ⟨{ userId := "ana" }, "tally", .replace (ascii "PRICE") (ascii "5 EUR"), "b0"⟩
  | 1 => ⟨{ userId := "ana" }, "tally", .replace (ascii "aa") (ascii "b"), "b1"⟩
  | _ => ⟨{ userId := "ana" }, "tally", .replace (ascii "PRICE") (ascii "$$5"), "b2"⟩

def priced (id : Nat) : BlockWorld :=
  BlockWorld.run tallies pricing (.initial .empty) [.start id, .finish id 1]

theorem replace_stores_price :
    Stored pricing (.initial .empty) (priced 0) 0 (some (ascii "aaa: 5 EUR")) := by
  obtain ⟨stores, plain, -⟩ := @replace_stores tallies pricing (.initial .empty) 0 tally
    (ascii "PRICE") (ascii "5 EUR") rfl rfl rfl rfl 1
  refine stores.mpr ⟨?_, plain (by decide)⟩
  intro first later found others
  cases (show occurrences (ascii "PRICE") (ascii "aaa: PRICE") = [5] by decide).symm.trans found
  exact absurd rfl others

theorem apply_overlapping :
    Edit.apply tally (.replace (ascii "aa") (ascii "b")) none = .ok (ascii "ba: PRICE") := by
  have counted : countOccurrences (ascii "aaa: PRICE") (ascii "aa") = 1 := by decide
  have parted : splitFirst (ascii "aa") (ascii "aaa: PRICE") = some ([], ascii "a: PRICE") := by
    decide
  have text : substitute (ascii "aa") [] (ascii "a: PRICE") (ascii "b") = ascii "b" :=
    substitute_plain _ _ _ (by decide)
  have replaced : replaceFirst (ascii "aaa: PRICE") (ascii "aa") (ascii "b") =
      ascii "ba: PRICE" := by
    rw [replaceFirst, parted]
    dsimp only
    rw [text]
    decide
  have current : ((none : Option JsText).or tally.defaultValue).getD [] =
      ascii "aaa: PRICE" := rfl
  rw [Edit.apply, Edit.nextValue, current, counted, replaced]
  decide

theorem apply_dollars :
    Edit.apply tally (.replace (ascii "PRICE") (ascii "$$5")) none =
      .ok (ascii "aaa: $5") := by
  have counted : countOccurrences (ascii "aaa: PRICE") (ascii "PRICE") = 1 := by decide
  have parted : splitFirst (ascii "PRICE") (ascii "aaa: PRICE") =
      some (ascii "aaa: ", []) := by decide
  have text : substitute (ascii "PRICE") (ascii "aaa: ") [] (ascii "$$5") = ascii "$5" := by
    have dollars : ascii "$$5" = [0x24, 0x24, 0x35] := by decide
    rw [dollars, substitute, substitute]
    rfl
  have replaced : replaceFirst (ascii "aaa: PRICE") (ascii "PRICE") (ascii "$$5") =
      ascii "aaa: $5" := by
    rw [replaceFirst, parted]
    dsimp only
    rw [text]
    decide
  have current : ((none : Option JsText).or tally.defaultValue).getD [] =
      ascii "aaa: PRICE" := rfl
  rw [Edit.apply, Edit.nextValue, current, counted, replaced]
  decide

/-- "aa" occurs at two positions of "aaa" and is replaced; "$$" becomes one dollar. -/
theorem replace_not_exact :
    (occurrences (ascii "aa") (ascii "aaa: PRICE") = [0, 1] ∧
      (priced 1).store.value (pricing 1).key = some (ascii "ba: PRICE")) ∧
    occurrences (ascii "PRICE") (ascii "aaa: PRICE") = [5] ∧
      (priced 2).store.value (pricing 2).key = some (ascii "aaa: $5") := by
  have first := @run_alone tallies pricing (.initial .empty) 1 tally rfl rfl rfl 1
  have second := @run_alone tallies pricing (.initial .empty) 2 tally rfl rfl rfl 1
  dsimp only at first second
  rw [show (pricing 1).edit.apply tally
    (BlockStore.value (BlockWorld.initial .empty).store (pricing 1).key) =
      .ok (ascii "ba: PRICE") from apply_overlapping] at first
  rw [show (pricing 2).edit.apply tally
    (BlockStore.value (BlockWorld.initial .empty).store (pricing 2).key) =
      .ok (ascii "aaa: $5") from apply_dollars] at second
  exact ⟨⟨by decide, first.1⟩, by decide, second.1⟩

end Graphorin.Memory
