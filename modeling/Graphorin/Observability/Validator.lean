import Mathlib.Data.List.Induction
import Graphorin.Lib.Record
import Graphorin.Observability.Redaction

namespace Graphorin.Observability.Validator

open Graphorin.Lib
open Graphorin.Js.JsonText (Units)
open Redaction

/-! The redaction validator: a walk over a value that rewrites its strings, and counters of
what it matched and dropped. -/

inductive Sensitivity
  | publicTier
  | internalTier
  | secretTier
  deriving DecidableEq

def rank : Sensitivity → Nat
  | .publicTier => 0
  | .internalTier => 1
  | .secretTier => 2

inductive PatternCategory
  | secret
  | pii
  deriving DecidableEq

structure CataloguePattern extends RedactionPattern where
  category : PatternCategory

/-- A value as it is reached from its root: `place` is the identity of an object, so an object
that is shared is met several times. `internals` is what an object has besides its own keys. -/
inductive Value (α ι : Type)
  | text (units : Units)
  | atom (value : α)
  | array (place : ι) (items : List (Value α ι))
  | object (place : ι) (internals : Option α) (fields : List (Units × Value α ι))

def circular : Units := [0x5b, 0x43, 0x69, 0x72, 0x63, 0x75, 0x6c, 0x61, 0x72, 0x5d]

/-- `__proto__` -/
def protoKey : Units := [0x5f, 0x5f, 0x70, 0x72, 0x6f, 0x74, 0x6f, 0x5f, 0x5f]

structure Trail (ι : Type) where
  matched : List Units := []
  seen : List ι := []

section Walk

variable {α ι : Type} [DecidableEq ι]

mutual
def walk (fn : Units → List Units → Units × List Units) :
    Value α ι → Trail ι → Value α Unit × Trail ι
  | .text units, trail =>
    let applied := fn units trail.matched
    (.text applied.1, { trail with matched := applied.2 })
  | .atom value, trail => (.atom value, trail)
  | .array place items, trail =>
    if place ∈ trail.seen then (.text circular, trail)
    else
      let out := walkItems fn items { trail with seen := place :: trail.seen }
      (.array () out.1, out.2)
  | .object place _ fields, trail =>
    if place ∈ trail.seen then (.text circular, trail)
    else
      let out := walkFields fn fields { trail with seen := place :: trail.seen }
      (.object () none out.1, out.2)

def walkItems (fn : Units → List Units → Units × List Units) :
    List (Value α ι) → Trail ι → List (Value α Unit) × Trail ι
  | [], trail => ([], trail)
  | item :: rest, trail =>
    let first := walk fn item trail
    let others := walkItems fn rest first.2
    (first.1 :: others.1, others.2)

/-- Writing `__proto__` gives the object no key. -/
def walkFields (fn : Units → List Units → Units × List Units) :
    List (Units × Value α ι) → Trail ι → List (Units × Value α Unit) × Trail ι
  | [], trail => ([], trail)
  | (key, value) :: rest, trail =>
    let first := walk fn value trail
    let others := walkFields fn rest first.2
    (if key = protoKey then others.1 else (key, first.1) :: others.1, others.2)
end

mutual
def rewritten (fn : Units → Units) : Value α ι → Value α Unit
  | .text units => .text (fn units)
  | .atom value => .atom value
  | .array _ items => .array () (rewrittenItems fn items)
  | .object _ internals fields => .object () internals (rewrittenFields fn fields)

def rewrittenItems (fn : Units → Units) : List (Value α ι) → List (Value α Unit)
  | [] => []
  | item :: rest => rewritten fn item :: rewrittenItems fn rest

def rewrittenFields (fn : Units → Units) :
    List (Units × Value α ι) → List (Units × Value α Unit)
  | [] => []
  | (key, value) :: rest => (key, rewritten fn value) :: rewrittenFields fn rest
end

mutual
def leaves : Value α ι → List Units
  | .text units => [units]
  | .atom _ => []
  | .array _ items => leavesOfItems items
  | .object _ _ fields => leavesOfFields fields

def leavesOfItems : List (Value α ι) → List Units
  | [] => []
  | item :: rest => leaves item ++ leavesOfItems rest

def leavesOfFields : List (Units × Value α ι) → List Units
  | [] => []
  | (_, value) :: rest => leaves value ++ leavesOfFields rest
end

mutual
/-- No object is met again, none is of a class of its own, and no key is `__proto__`: the
places met, where there have been others before. -/
def Tree : Value α ι → List ι → List ι → Prop
  | .text _, before, after => after = before
  | .atom _, before, after => after = before
  | .array place items, before, after =>
    place ∉ before ∧ TreeItems items (place :: before) after
  | .object place internals fields, before, after =>
    place ∉ before ∧ internals = none ∧ TreeFields fields (place :: before) after

def TreeItems : List (Value α ι) → List ι → List ι → Prop
  | [], before, after => after = before
  | item :: rest, before, after =>
    ∃ between, Tree item before between ∧ TreeItems rest between after

def TreeFields : List (Units × Value α ι) → List ι → List ι → Prop
  | [], before, after => after = before
  | (key, value) :: rest, before, after =>
    key ≠ protoKey ∧ ∃ between, Tree value before between ∧ TreeFields rest between after
end

section Spec

variable {fn : Units → List Units → Units × List Units} {f : Units → Units}

def matchedIn (fn : Units → List Units → Units × List Units) (units : List Units)
    (matched : List Units) : List Units :=
  units.foldl (fun names leaf => (fn leaf names).2) matched

theorem matchedIn_append (first second : List Units) (matched : List Units) :
    matchedIn fn (first ++ second) matched = matchedIn fn second (matchedIn fn first matched) :=
  List.foldl_append

mutual
theorem walk_tree
    (pointwise : ∀ units matched, (fn units matched).1 = f units) :
    ∀ (value : Value α ι) (trail : Trail ι) (after : List ι),
      Tree value trail.seen after → walk fn value trail =
        (rewritten f value, ⟨matchedIn fn (leaves value) trail.matched, after⟩)
  | .text units, trail, after, same => by
      cases same
      rw [walk, rewritten, pointwise]
      rfl
  | .atom value, trail, after, same => by
      cases same
      rfl
  | .array place items, trail, after, tree => by
      have inner := walkItems_tree pointwise items { trail with seen := place :: trail.seen } after tree.2
      rw [walk, if_neg tree.1, inner]
      rfl
  | .object place internals fields, trail, after, tree => by
      have inner := walkFields_tree pointwise fields { trail with seen := place :: trail.seen } after
        tree.2.2
      rw [walk, if_neg tree.1, inner, rewritten, tree.2.1]
      rfl

theorem walkItems_tree
    (pointwise : ∀ units matched, (fn units matched).1 = f units) :
    ∀ (items : List (Value α ι)) (trail : Trail ι) (after : List ι),
      TreeItems items trail.seen after → walkItems fn items trail =
      (rewrittenItems f items, ⟨matchedIn fn (leavesOfItems items) trail.matched, after⟩)
  | [], trail, after, same => by
      cases same
      rfl
  | item :: rest, trail, after, ⟨between, head, tail⟩ => by
      have first := walk_tree pointwise item trail between head
      have others := walkItems_tree pointwise rest
        ⟨matchedIn fn (leaves item) trail.matched, between⟩ after tail
      rw [walkItems, first, others, leavesOfItems, matchedIn_append]
      rfl

theorem walkFields_tree
    (pointwise : ∀ units matched, (fn units matched).1 = f units) :
    ∀ (fields : List (Units × Value α ι)) (trail : Trail ι)
    (after : List ι), TreeFields fields trail.seen after → walkFields fn fields trail =
      (rewrittenFields f fields, ⟨matchedIn fn (leavesOfFields fields) trail.matched, after⟩)
  | [], trail, after, same => by
      cases same
      rfl
  | (key, value) :: rest, trail, after, ⟨plain, between, head, tail⟩ => by
      have first := walk_tree pointwise value trail between head
      have others := walkFields_tree pointwise rest
        ⟨matchedIn fn (leaves value) trail.matched, between⟩ after tail
      rw [walkFields, first, others, leavesOfFields, matchedIn_append]
      simp only [if_neg plain]
      rfl
end

theorem rewrittenFields_length (fields : List (Units × Value α ι)) (trail : Trail ι) :
    (walkFields fn fields trail).1.length ≤ (rewrittenFields f fields).length := by
  induction fields generalizing trail with
  | nil => exact Nat.le_refl 0
  | cons field _ ih =>
    obtain ⟨key, value⟩ := field
    rw [walkFields, rewrittenFields]
    split
    · exact (ih _).trans (Nat.le_succ _)
    · exact Nat.succ_le_succ (ih _)

mutual
theorem tree_of_walk : ∀ (value : Value α ι) (trail : Trail ι),
    (walk fn value trail).1 = rewritten f value →
      Tree value trail.seen (walk fn value trail).2.seen
  | .text units, trail, same => rfl
  | .atom value, trail, same => rfl
  | .array place items, trail, same => by
      rw [walk, rewritten] at same
      rw [walk]
      by_cases again : place ∈ trail.seen
      · rw [if_pos again] at same
        exact absurd same nofun
      · rw [if_neg again] at same ⊢
        exact ⟨again, treeItems_of_walk items _ (Value.array.inj same).2⟩
  | .object place internals fields, trail, same => by
      rw [walk, rewritten] at same
      rw [walk]
      by_cases again : place ∈ trail.seen
      · rw [if_pos again] at same
        exact absurd same nofun
      · rw [if_neg again] at same ⊢
        obtain ⟨-, plain, inner⟩ := Value.object.inj same
        exact ⟨again, plain.symm, treeFields_of_walk fields _ inner⟩

theorem treeItems_of_walk : ∀ (items : List (Value α ι)) (trail : Trail ι),
    (walkItems fn items trail).1 = rewrittenItems f items →
      TreeItems items trail.seen (walkItems fn items trail).2.seen
  | [], trail, same => rfl
  | item :: rest, trail, same => by
      obtain ⟨head, tail⟩ := List.cons.inj same
      exact ⟨_, tree_of_walk item trail head, treeItems_of_walk rest _ tail⟩

theorem treeFields_of_walk : ∀ (fields : List (Units × Value α ι)) (trail : Trail ι),
    (walkFields fn fields trail).1 = rewrittenFields f fields →
      TreeFields fields trail.seen (walkFields fn fields trail).2.seen
  | [], trail, same => rfl
  | (key, value) :: rest, trail, same => by
      rw [walkFields, rewrittenFields] at same
      by_cases proto : key = protoKey
      · simp only [if_pos proto] at same
        have shorter := @rewrittenFields_length α ι _ fn f rest (walk fn value trail).2
        rw [same, List.length_cons] at shorter
        exact absurd shorter (Nat.not_succ_le_self _)
      · simp only [if_neg proto] at same
        obtain ⟨head, tail⟩ := List.cons.inj same
        exact ⟨proto, _, tree_of_walk value trail (Prod.mk.inj head).2,
          treeFields_of_walk rest _ tail⟩
end

end Spec

section Distinct

variable {fn : Units → List Units → Units × List Units}

mutual
theorem walk_nodup (distinct : ∀ units matched, matched.Nodup → (fn units matched).2.Nodup) :
    ∀ (value : Value α ι) (trail : Trail ι), trail.matched.Nodup →
      (walk fn value trail).2.matched.Nodup
  | .text units, trail, before => distinct units trail.matched before
  | .atom _, _, before => before
  | .array place items, trail, before => by
      rw [walk]
      split
      · exact before
      · exact walkItems_nodup distinct items _ before
  | .object place internals fields, trail, before => by
      rw [walk]
      split
      · exact before
      · exact walkFields_nodup distinct fields _ before

theorem walkItems_nodup
    (distinct : ∀ units matched, matched.Nodup → (fn units matched).2.Nodup) :
    ∀ (items : List (Value α ι)) (trail : Trail ι),
      trail.matched.Nodup → (walkItems fn items trail).2.matched.Nodup
  | [], _, before => before
  | item :: rest, trail, before =>
    walkItems_nodup distinct rest _ (walk_nodup distinct item trail before)

theorem walkFields_nodup
    (distinct : ∀ units matched, matched.Nodup → (fn units matched).2.Nodup) :
    ∀ (fields : List (Units × Value α ι)) (trail : Trail ι),
      trail.matched.Nodup → (walkFields fn fields trail).2.matched.Nodup
  | [], _, before => before
  | (_, value) :: rest, trail, before =>
    walkFields_nodup distinct rest _ (walk_nodup distinct value trail before)
end

end Distinct

end Walk

theorem applyPattern_matched (out : Units) (p : RedactionPattern) : ∃ hit : Bool, ∀ matched,
    (applyPattern out matched p).2 =
      if hit then if p.name ∈ matched then matched else matched ++ [p.name] else matched := by
  refine ⟨(replaceMatches p out (p.exec out) ⟨[], 0, false⟩).hit, fun matched => ?_⟩
  simp only [applyPattern]
  split <;> rfl

theorem applyPattern_names (out name : Units) (matched : List Units) (p : RedactionPattern) :
    name ∈ (applyPattern out matched p).2 ↔
      name ∈ matched ∨ name ∈ (applyPattern out [] p).2 := by
  obtain ⟨hit, same⟩ := applyPattern_matched out p
  rw [same, same]
  cases hit with
  | false => simp
  | true =>
    by_cases known : p.name ∈ matched
    · simp only [if_pos known, if_true, List.not_mem_nil, if_false, List.nil_append,
        List.mem_singleton]
      exact ⟨.inl, fun either => either.elim id fun same => same ▸ known⟩
    · simp [if_neg known]

theorem applyPattern_nodup (out : Units) (p : RedactionPattern) (distinct : matched.Nodup) :
    (applyPattern out matched p).2.Nodup := by
  obtain ⟨hit, same⟩ := applyPattern_matched out p
  rw [same]
  split
  · by_cases known : p.name ∈ matched
    · rwa [if_pos known]
    · rw [if_neg known]
      refine List.nodup_append.mpr ⟨distinct, List.pairwise_singleton _ _, ?_⟩
      intro name here other last same
      rw [same, List.mem_singleton.mp last] at here
      exact known here
  · exact distinct

theorem applyPatterns_cons (s : Units) (p : RedactionPattern) (rest : List RedactionPattern)
    (matched : List Units) : applyPatterns s (p :: rest) matched =
      applyPatterns (applyPattern s matched p).1 rest (applyPattern s matched p).2 := rfl

theorem applyPatterns_text (s : Units) (patterns : List RedactionPattern)
    (matched : List Units) :
    (applyPatterns s patterns matched).1 = (applyPatterns s patterns []).1 := by
  induction patterns generalizing s matched with
  | nil => rfl
  | cons p _ ih =>
    rw [applyPatterns_cons, applyPatterns_cons, ih, ih _ (applyPattern s [] p).2,
      applyPattern_text, applyPattern_text]

theorem applyPatterns_names (s name : Units) (patterns : List RedactionPattern)
    (matched : List Units) : name ∈ (applyPatterns s patterns matched).2 ↔
      name ∈ matched ∨ name ∈ (applyPatterns s patterns []).2 := by
  induction patterns generalizing s matched with
  | nil => exact ⟨.inl, fun either => either.elim id fun none => absurd none List.not_mem_nil⟩
  | cons p _ ih =>
    rw [applyPatterns_cons, applyPatterns_cons, ih, ih _ (applyPattern s [] p).2,
      applyPattern_names, applyPattern_text, applyPattern_text, or_assoc]

theorem applyPatterns_nodup (s : Units) (patterns : List RedactionPattern)
    (distinct : matched.Nodup) : (applyPatterns s patterns matched).2.Nodup := by
  induction patterns generalizing s matched with
  | nil => exact distinct
  | cons p _ ih => exact ih _ (applyPattern_nodup s p distinct)

structure Context where
  attributeName : Option Units := none
  spanType : Option Units := none
  origin : Option Units := none

structure RedactionInput (α ι : Type) where
  value : Value α ι
  tier : Option Sensitivity
  context : Context

/-- The argument of a call: `null` or `undefined`, another value that is no object, or an
object. -/
inductive Given (α ι : Type)
  | nothing
  | primitive
  | input (input : RedactionInput α ι)

inductive Reason
  | sensitivityTierExceeded
  | secretPatternMatch
  | invalidInput
  deriving DecidableEq

structure RedactionViolation where
  reason : Reason
  declaredTier : Option Sensitivity
  context : Context
  patterns : List Units

structure RedactionOutput (α : Type) where
  value : Value α Unit
  tier : Sensitivity
  matched : List Units

structure Counters where
  droppedTotal : Nat := 0
  droppedByReason : Record Reason Nat := []
  matchesByPattern : Record Units Nat := []

def bump {κ : Type} [DecidableEq κ] (map : Record κ Nat) (key : κ) : Record κ Nat :=
  map.set key ((map.get? key).getD 0 + 1)

structure RedactionValidatorOptions (α : Type) where
  minTier : Sensitivity := .publicTier
  failOnUnredactedSensitive : Bool := false
  baseCatalogue : List CataloguePattern
  enabledPatterns : Option (List Units) := none
  disabledPatterns : List Units := []
  customValidator : Option (RedactionInput α Unit → Option (RedactionOutput α)) := none

inductive Outcome (α : Type)
  | dropped
  | threw (violation : RedactionViolation)
  | typeError
  | passed (output : RedactionOutput α)
  | custom (given : RedactionInput α Unit) (answer : Option (RedactionOutput α))

section Validate

variable {α ι : Type} [DecidableEq ι] (opts : RedactionValidatorOptions α)

def selectPatterns : List CataloguePattern :=
  opts.baseCatalogue.filter fun p =>
    opts.enabledPatterns.all (p.name ∈ ·) && p.name ∉ opts.disabledPatterns

def recordViolation (counters : Counters) (violation : RedactionViolation) : Counters where
  droppedTotal := counters.droppedTotal + 1
  droppedByReason := bump counters.droppedByReason violation.reason
  matchesByPattern := violation.patterns.foldl bump counters.matchesByPattern

def dropOrThrow (counters : Counters) (violation : RedactionViolation) : Outcome α × Counters :=
  (if opts.failOnUnredactedSensitive then .threw violation else .dropped,
    recordViolation counters violation)

def apply (units : Units) (matched : List Units) : Units × List Units :=
  applyPatterns units ((selectPatterns opts).map CataloguePattern.toRedactionPattern) matched

def walked (value : Value α ι) : Value α Unit × Trail ι := walk (apply opts) value {}

def isSecret (name : Units) : Bool :=
  ((selectPatterns opts).find? fun p => p.name = name).any fun p => p.category = .secret

def passesFloor (input : RedactionInput α ι) : Prop :=
  rank (input.tier.getD .internalTier) ≤ rank opts.minTier

instance (input : RedactionInput α ι) : Decidable (passesFloor opts input) :=
  inferInstanceAs (Decidable (_ ≤ _))

def withheld (value : Value α ι) : Bool :=
  (walked opts value).2.matched.any (isSecret opts) && opts.failOnUnredactedSensitive

def validate (counters : Counters) : Given α ι → Outcome α × Counters
  -- `violationFor` reads `input.context` before anything is recorded
  | .nothing => (.typeError, counters)
  | .primitive => dropOrThrow opts counters ⟨.invalidInput, none, {}, []⟩
  | .input input =>
    if passesFloor opts input then
      let out := walked opts input.value
      let counters := { counters with
        matchesByPattern := out.2.matched.foldl bump counters.matchesByPattern }
      if withheld opts input.value then
        (.threw ⟨.secretPatternMatch, input.tier, input.context, out.2.matched⟩,
          { counters with
            droppedTotal := counters.droppedTotal + 1
            droppedByReason := bump counters.droppedByReason .secretPatternMatch })
      else
        match opts.customValidator with
        | some custom =>
          let given := ⟨out.1, input.tier, input.context⟩
          (.custom given (custom given), counters)
        | none => (.passed ⟨out.1, input.tier.getD .internalTier, out.2.matched⟩, counters)
    else dropOrThrow opts counters ⟨.sensitivityTierExceeded, input.tier, input.context, []⟩

inductive Action (α ι : Type)
  | validate (given : Given α ι)
  | resetCounters

structure Log (α ι : Type) where
  counters : Counters := {}
  /-- The calls since the counters were reset. -/
  since : List (Given α ι) := []
  outcomes : List (Given α ι × Outcome α) := []

def step (log : Log α ι) : Action α ι → Log α ι
  | .validate given =>
    let judged := validate opts log.counters given
    { counters := judged.2
      since := log.since ++ [given]
      outcomes := log.outcomes ++ [(given, judged.1)] }
  | .resetCounters => { log with counters := {}, since := [] }

def Outcome.value? : Outcome α → Option (Value α Unit)
  | .passed output => some output.value
  | .custom given _ => some given.value
  | _ => none

def fired : Given α ι → List Units
  | .input input => if passesFloor opts input then (walked opts input.value).2.matched else []
  | _ => []

def dropReason : Given α ι → Option Reason
  | .input input =>
    if passesFloor opts input then
      if withheld opts input.value then some .secretPatternMatch else none
    else some .sensitivityTierExceeded
  | _ => some .invalidInput

/-- What goes on has every string rewritten and nothing else, and the patterns that fire are
those that fire in one of the strings. -/
def Faithful : Given α ι → Outcome α → Prop
  | .input input, outcome => ∀ value, outcome.value? = some value →
      value = rewritten (fun units => (apply opts units []).1) input.value ∧
        ∀ name, name ∈ fired opts (.input input) ↔
          ∃ leaf ∈ leaves input.value, name ∈ (apply opts leaf []).2
  | _, _ => True

structure Counts (calls : List (Given α ι)) (counters : Counters) : Prop where
  total : counters.droppedTotal = calls.countP fun call => (dropReason opts call).isSome
  byReason : ∀ reason, (counters.droppedByReason.get? reason).getD 0 =
    calls.countP fun call => dropReason opts call = some reason
  byPattern : ∀ name, (counters.matchesByPattern.get? name).getD 0 =
    calls.countP fun call => name ∈ fired opts call

structure Honest (log : Log α ι) : Prop where
  faithful : ∀ entry ∈ log.outcomes, Faithful opts entry.1 entry.2
  counts : Counts opts log.since log.counters

/-- An object that is walked and sent on is a tree of plain objects. -/
def Plain : Given α ι → Prop
  | .input input => passesFloor opts input → withheld opts input.value = false →
      ∃ after, Tree input.value [] after
  | _ => True

def Given.present : Given α ι → Bool
  | .nothing => false
  | _ => true

variable {opts}

theorem mem_matchedIn (units : List Units) (name : Units) (matched : List Units) :
    name ∈ matchedIn (apply opts) units matched ↔
      name ∈ matched ∨ ∃ leaf ∈ units, name ∈ (apply opts leaf []).2 := by
  induction units generalizing matched with
  | nil => simp [matchedIn]
  | cons leaf _ ih =>
    have first : name ∈ (apply opts leaf matched).2 ↔
        name ∈ matched ∨ name ∈ (apply opts leaf []).2 := applyPatterns_names leaf name _ matched
    rw [matchedIn, List.foldl_cons, ← matchedIn, ih, first, or_assoc]
    simp only [List.exists_mem_cons_iff]

theorem walked_tree {value : Value α ι} {after : List ι} (tree : Tree value [] after) :
    walked opts value = (rewritten (fun units => (apply opts units []).1) value,
      ⟨matchedIn (apply opts) (leaves value) [], after⟩) :=
  walk_tree (fun units matched => applyPatterns_text units _ matched) value {} after tree

variable (counters : Counters)

theorem validate_value (input : RedactionInput α ι) :
    (validate opts counters (.input input)).1.value? =
      if passesFloor opts input ∧ withheld opts input.value = false then
        some (walked opts input.value).1
      else none := by
  rw [validate]
  by_cases passes : passesFloor opts input
  · cases secret : withheld opts input.value with
    | true => simp [passes, Outcome.value?]
    | false => cases opts.customValidator <;> simp [passes, Outcome.value?]
  · rw [if_neg passes, if_neg fun both => passes both.1, dropOrThrow]
    split <;> rfl

theorem faithful_iff (given : Given α ι) :
    Faithful opts given (validate opts counters given).1 ↔ Plain opts given := by
  cases given with
  | nothing => exact ⟨fun _ => trivial, fun _ => trivial⟩
  | primitive => exact ⟨fun _ => trivial, fun _ => trivial⟩
  | input input =>
    rw [Faithful, Plain, validate_value]
    constructor
    · intro faithful passes open_
      obtain ⟨same, -⟩ := faithful _ (if_pos ⟨passes, open_⟩)
      exact ⟨_, tree_of_walk input.value {} same⟩
    · intro plain value sent
      by_cases goes : passesFloor opts input ∧ withheld opts input.value = false
      · rw [if_pos goes] at sent
        cases sent
        obtain ⟨after, tree⟩ := plain goes.1 goes.2
        have out := @walked_tree _ _ _ opts _ _ tree
        refine ⟨congrArg Prod.fst out, fun name => ?_⟩
        rw [fired, if_pos goes.1, out, mem_matchedIn]
        simp
      · rw [if_neg goes] at sent
        exact absurd sent nofun

theorem outcome_counters (given : Given α ι) :
    (validate opts counters given).1 = (validate opts {} given).1 := by
  cases given with
  | nothing => rfl
  | primitive => rfl
  | input =>
    rw [validate, validate]
    split
    · simp only
      split
      · rfl
      · cases opts.customValidator <;> rfl
    · rfl

theorem get?_bump [DecidableEq κ] (map : Record κ Nat) (key other : κ) :
    ((bump map key).get? other).getD 0 =
      (map.get? other).getD 0 + if other = key then 1 else 0 := by
  rw [bump, Record.get?_set]
  split
  · rename_i same
    rw [same, Option.getD_some]
  · rfl

theorem get?_bumps {κ : Type} [DecidableEq κ] {keys : List κ} (distinct : keys.Nodup)
    (map : Record κ Nat) (other : κ) :
    ((keys.foldl bump map).get? other).getD 0 =
      (map.get? other).getD 0 + if other ∈ keys then 1 else 0 := by
  induction keys generalizing map with
  | nil => simp
  | cons key _ ih =>
    rw [List.foldl_cons, ih (List.nodup_cons.mp distinct).2, get?_bump]
    have new := (List.nodup_cons.mp distinct).1
    by_cases same : other = key
    · rw [same, if_pos rfl, if_neg new, if_pos List.mem_cons_self]
    · rw [if_neg same, Nat.add_zero]
      simp only [List.mem_cons, same, false_or]

structure Adds (opts : RedactionValidatorOptions α) (given : Given α ι)
    (before after : Counters) : Prop where
  total : after.droppedTotal =
    before.droppedTotal + if (dropReason opts given).isSome then 1 else 0
  byReason : ∀ reason, (after.droppedByReason.get? reason).getD 0 =
    (before.droppedByReason.get? reason).getD 0 +
      if dropReason opts given = some reason then 1 else 0
  byPattern : ∀ name, (after.matchesByPattern.get? name).getD 0 =
    (before.matchesByPattern.get? name).getD 0 + if name ∈ fired opts given then 1 else 0

variable {given : Given α ι}

theorem adds_dropped (tier : Option Sensitivity) (context : Context)
    (dropped : dropReason opts given = some reason) (quiet : fired opts given = []) :
    Adds opts given counters
      (dropOrThrow opts counters ⟨reason, tier, context, []⟩).2 where
  total := by rw [dropped]; rfl
  byReason other := by
    rw [dropped]
    refine (get?_bump counters.droppedByReason reason other).trans ?_
    simp only [Option.some.injEq, eq_comm]
  byPattern name := by
    rw [quiet, if_neg List.not_mem_nil]
    rfl

theorem validate_adds (present : given.present = true) :
    Adds opts given counters (validate opts counters given).2 := by
  cases given with
  | nothing => exact absurd present nofun
  | primitive => exact adds_dropped counters none {} rfl rfl
  | input input =>
    by_cases passes : passesFloor opts input
    · have matches_ : fired opts (.input input) = (walked opts input.value).2.matched :=
        if_pos passes
      have once : (walked opts input.value).2.matched.Nodup :=
        walk_nodup (fun units _ before => applyPatterns_nodup units _ before) input.value {}
          List.nodup_nil
      have reason : dropReason opts (.input input) =
          if withheld opts input.value then some .secretPatternMatch else none := if_pos passes
      rw [validate, if_pos passes]
      by_cases secret : withheld opts input.value = true
      · rw [if_pos secret] at reason
        simp only [if_pos secret]
        refine ⟨by rw [reason]; rfl, fun other => ?_, fun name => ?_⟩
        · rw [reason]
          refine (get?_bump counters.droppedByReason .secretPatternMatch other).trans ?_
          simp only [Option.some.injEq, eq_comm]
        · rw [matches_]
          exact (get?_bumps once counters.matchesByPattern name).trans (by congr)
      · rw [if_neg secret] at reason
        simp only [if_neg secret]
        cases opts.customValidator <;>
          exact ⟨by rw [reason]; rfl, fun other => by rw [reason]; rfl, fun name => by
            rw [matches_]
            exact (get?_bumps once counters.matchesByPattern name).trans (by congr)⟩
    · rw [validate, if_neg passes]
      exact adds_dropped counters input.tier input.context (if_neg passes) (if_neg passes)

theorem Counts.add (counts : Counts opts calls before) (adds : Adds opts given before after) :
    Counts opts (calls ++ [given]) after where
  total := by
    rw [adds.total, counts.total, List.countP_append, List.countP_singleton]
  byReason reason := by
    rw [adds.byReason, counts.byReason, List.countP_append, List.countP_singleton]
    simp only [decide_eq_true_eq]
  byPattern name := by
    rw [adds.byPattern, counts.byPattern, List.countP_append, List.countP_singleton]
    simp only [decide_eq_true_eq]

/-- A call on `null` is the one that no counter tells. -/
theorem counts_present {calls : List (Given α ι)} {counters : Counters}
    (counts : Counts opts (calls.filter Given.present) counters) :
    Counts opts calls counters ↔ ∀ call ∈ calls, call.present = true := by
  constructor
  · intro whole call here
    by_contra absent
    have same := (whole.byReason .invalidInput).symm.trans (counts.byReason .invalidInput)
    obtain ⟨front, back, rfl⟩ := List.append_of_mem here
    have missed : call = .nothing := by
      cases call with
      | nothing => rfl
      | _ => exact absurd rfl absent
    have fewer : ∀ part : List (Given α ι),
        (part.filter Given.present).countP (fun given => dropReason opts given =
          some .invalidInput) ≤ part.countP fun given => dropReason opts given =
            some .invalidInput := fun part => List.filter_sublist.countP_le
    have first := fewer front
    have last := fewer back
    have gone : ¬ (Given.nothing : Given α ι).present = true := Bool.false_ne_true
    rw [missed, List.filter_append, List.countP_append, List.countP_append,
      List.filter_cons_of_neg gone, List.countP_cons_of_pos (by rfl)] at same
    omega
  · intro all
    rwa [List.filter_eq_self.mpr all] at counts

structure Tracks (opts : RedactionValidatorOptions α) (log : Log α ι) : Prop where
  judged : ∀ entry ∈ log.outcomes, entry.2 = (validate opts {} entry.1).1
  counts : Counts opts (log.since.filter Given.present) log.counters

theorem tracks_step (action : Action α ι) (tracks : Tracks opts log) :
    Tracks opts (step opts log action) := by
  cases action with
  | resetCounters => exact ⟨tracks.judged, ⟨rfl, fun _ => rfl, fun _ => rfl⟩⟩
  | validate given =>
    refine ⟨fun entry here => ?_, ?_⟩
    · rcases List.mem_append.mp here with old | last
      · exact tracks.judged entry old
      · rw [List.mem_singleton.mp last]
        exact outcome_counters log.counters given
    · rw [step, List.filter_append]
      cases given with
      | nothing => exact (List.append_nil _).symm ▸ tracks.counts
      | primitive => exact tracks.counts.add (validate_adds log.counters rfl)
      | input => exact tracks.counts.add (validate_adds log.counters rfl)

theorem tracks_start : Tracks opts ({} : Log α ι) where
  judged _ here := absurd here List.not_mem_nil
  counts := ⟨rfl, fun _ => rfl, fun _ => rfl⟩

theorem tracks_run (actions : List (Action α ι)) :
    Tracks opts (actions.foldl (step opts) {}) := by
  induction actions using List.reverseRecOn with
  | nil => exact tracks_start
  | append_singleton _ action ih =>
    rw [List.foldl_append]
    exact tracks_step action ih

theorem validator_honest_iff (opts : RedactionValidatorOptions α) (actions : List (Action α ι)) :
    Honest opts (actions.foldl (step opts) {}) ↔
      (∀ entry ∈ (actions.foldl (step opts) {}).outcomes, Plain opts entry.1) ∧
        ∀ call ∈ (actions.foldl (step opts) {}).since, call.present = true := by
  obtain ⟨judged, counts⟩ := @tracks_run _ _ _ opts actions
  rw [← counts_present counts]
  have plain : ∀ entry ∈ (actions.foldl (step opts) {}).outcomes,
      Faithful opts entry.1 entry.2 ↔ Plain opts entry.1 := by
    intro entry here
    rw [judged entry here]
    exact faithful_iff {} entry.1
  constructor
  · exact fun honest =>
      ⟨fun entry here => (plain entry here).mp (honest.faithful entry here), honest.counts⟩
  · exact fun both => ⟨fun entry here => (plain entry here).mpr (both.1 entry here), both.2⟩

end Validate

def plainOptions : RedactionValidatorOptions Unit where
  baseCatalogue := []

/-- An object that is met twice in an array. -/
def sharedInput : RedactionInput Unit Nat where
  value := .array 0 [.object 1 none [], .object 1 none []]
  tier := some .publicTier
  context := {}

/-- A shared object becomes a text, and a call on `null` is counted nowhere. -/
theorem shared_breaks :
    ¬ Honest plainOptions ([.validate (.input sharedInput)].foldl (step plainOptions) {}) ∧
      ¬ Honest plainOptions (([.validate .nothing] : List (Action Unit Nat)).foldl
        (step plainOptions) {}) := by
  constructor
  · intro honest
    obtain ⟨same, -⟩ := honest.faithful _ List.mem_cons_self _ rfl
    exact absurd same nofun
  · intro honest
    exact absurd honest.counts.total nofun

end Graphorin.Observability.Validator
