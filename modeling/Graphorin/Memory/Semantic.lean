import Graphorin.Memory.Conflict

namespace Graphorin.Memory

open Lib

/-! The semantic tier: each operation puts several calls of the store together. -/

structure FactInput where
  text : String
  details : Details := {}
  validFrom : Option Stamp := none
  validTo : Option Stamp := none
  supersedes : Option String := none
  provenance : Option MemoryProvenance := none

structure FactRememberOptions where
  pipelineOff : Bool := false
  indexText : Option String := none
  autoPromoteSynthesized : Bool := false

inductive QuarantineReason
  | injection
  | synthesized
  deriving DecidableEq

/-- What one call meets outside of the tier: the clocks, the fresh id, the
answers of the classifier, the embedder, the entity resolver and SQLite. -/
structure Env where
  newId : String
  /-- The clock of the tier. -/
  now : Int
  /-- The clock of the store, read later in the same call. -/
  later : Int
  /-- `verdict?.flagged === true`; false without a classifier or after its error. -/
  classifierFlagged : Bool
  embedder : Option Embedder
  registry : Store.Registry
  engine : Engine
  pipeline : Option ConflictPipeline
  /-- The late-chunk text of an input. -/
  contextualize : FactInput → String
  /-- The entities the resolver finds for the fact. -/
  resolved : Option (List String)

structure RememberOutcome where
  fact : Fact
  decision : ConflictDecision
  quarantineReason : Option QuarantineReason

abbrev Outcome (α : Type) := Except Failure α × Store

variable (detectMemoryInjection : String → Bool)

/-- The verdict of the gate; the classifier is asked only when the heuristics are
silent. -/
def injectionFlagged (env : Env) (text : String) : Bool :=
  detectMemoryInjection text || env.classifierFlagged

def synthesized (provenance : Option MemoryProvenance) : Bool :=
  match provenance with
  | some .extraction | some .reflection | some .induction => true
  | _ => false

def deriveStatus (env : Env) (input : FactInput) (options : FactRememberOptions) :
    MemoryStatus :=
  if injectionFlagged detectMemoryInjection env input.text then .quarantined
  else if synthesized input.provenance && !options.autoPromoteSynthesized then .quarantined
  else .active

def deriveReason (env : Env) (input : FactInput) (options : FactRememberOptions) :
    Option QuarantineReason :=
  if deriveStatus detectMemoryInjection env input options = .quarantined then
    if injectionFlagged detectMemoryInjection env input.text then some .injection
    else some .synthesized
  else none

def newFact (env : Env) (scope : Scope) (input : FactInput)
    (options : FactRememberOptions) : Fact where
  id := env.newId
  userId := scope.userId
  sessionId := scope.sessionId
  agentId := scope.agentId
  text := input.text
  details :=
    { input.details with
      importance := input.details.importance.map fun hint => min 1 (max 0 hint) }
  validFrom := some (input.validFrom.getD (.instant env.now))
  validTo := input.validTo
  supersedes := input.supersedes
  supersededBy := none
  provenance := input.provenance
  status := some (deriveStatus detectMemoryInjection env input options)
  createdAt := .instant env.now
  updatedAt := some (.instant env.now)

def resolveIndexText (env : Env) (input : FactInput) (override : Option String) : String :=
  override.getD (env.contextualize input)

def commitFact (env : Env) (store : Store) (fact : Fact) (indexText : String) :
    Except Failure Store :=
  let index := if indexText ≠ fact.text then some indexText else none
  match env.embedder with
  | none => store.rememberWithEmbedding env.registry fact ⟨none, index⟩
  | some embedder =>
    match embedder.embed indexText with
    | .error failure => .error failure
    | .ok none => store.rememberWithEmbedding env.registry fact ⟨none, index⟩
    | .ok (some vector) =>
      store.rememberWithEmbedding env.registry fact ⟨some ⟨embedder.id, vector⟩, index⟩

/-- A failure of the resolver is swallowed: it links nothing. -/
def linkEntities (env : Env) (store : Store) (fact : Fact) : Store :=
  match env.resolved with
  | none => store
  | some entities =>
    if fact.details.subject.isNone && fact.details.object.isNone then store
    else { store with links := store.links ++ entities.map fun entity => (fact.id, entity) }

def decide (env : Env) (store : Store) (fact : Fact) (options : FactRememberOptions) :
    Except Failure ConflictDecision :=
  match env.pipeline with
  | some pipeline =>
    if options.pipelineOff then .ok (.admitted .exactDedup (some "pipeline-skipped"))
    else pipeline.run env.engine env.registry store env.embedder fact env.now
  | none => .ok (.admitted .exactDedup (some "pipeline-skipped"))

def rememberWithDecision (env : Env) (scope : Scope) (input : FactInput)
    (options : FactRememberOptions) (store : Store) : Outcome RememberOutcome :=
  let fact := newFact detectMemoryInjection env scope input options
  let reason := deriveReason detectMemoryInjection env input options
  let indexText := resolveIndexText env input options.indexText
  match decide env store fact options with
  | .error failure => (.error failure, store)
  | .ok decision =>
    match decision with
    | .admitted .. | .pending .. =>
      match commitFact env store fact indexText with
      | .error failure => (.error failure, store)
      | .ok saved => (.ok ⟨fact, decision, reason⟩, linkEntities env saved fact)
    | .dedup _ existingId _ _ =>
      (.ok ⟨(store.get existingId).getD fact, decision, none⟩, store)
    | .supersede _ existingId _ =>
      match commitFact env store fact indexText with
      | .error failure => (.error failure, store)
      | .ok saved =>
        match saved.supersede existingId fact env.later with
        | .error failure => (.error failure, saved)
        | .ok closed =>
          (.ok ⟨fact, decision, reason⟩, linkEntities env closed fact)

/-- The explicit call: no pipeline, and the old fact is closed only in favour of
an active successor. -/
def supersede (env : Env) (scope : Scope) (oldId : String) (input : FactInput)
    (autoPromoteSynthesized : Bool) (store : Store) : Outcome Fact :=
  match rememberWithDecision detectMemoryInjection env scope
      { input with supersedes := some oldId }
      { pipelineOff := true, autoPromoteSynthesized := autoPromoteSynthesized } store with
  | (.error failure, saved) => (.error failure, saved)
  | (.ok outcome, saved) =>
    if outcome.fact.status = some .quarantined then (.ok outcome.fact, saved)
    else
      match saved.supersede oldId outcome.fact env.later with
      | .error failure => (.error failure, saved)
      | .ok closed => (.ok outcome.fact, closed)

/-- The last part of `validate`: a supersede that waited for its successor. -/
def completePending (existing : Fact) (now : Int) (store : Store) : Outcome Unit :=
  match existing.supersedes with
  | none => (.ok (), store)
  | some oldId =>
    match store.get oldId with
    | none => (.ok (), store)
    | some oldFact =>
      if oldFact.supersededBy.isNone && oldFact.validTo.isNone then
        match store.supersede oldId { existing with status := some .active } now with
        | .error failure => (.error failure, store)
        | .ok closed => (.ok (), closed)
      else (.ok (), store)

def validate (scope : Scope) (factId : String) (reason : Option String) (force : Bool)
    (now : Int) (store : Store) : Outcome Unit :=
  match store.get factId with
  | none => (.ok (), store.setStatus scope factId .active reason now)
  | some existing =>
    if !force && detectMemoryInjection existing.text then
      (.error (.promotionRefused factId), store)
    else
      completePending existing now (store.setStatus scope factId .active reason now)

structure ResolvedPromotionPolicy where
  minSalience : Rat := 0
  minRecalls : Nat := 3
  minUniqueQueries : Nat := 2
  minAgeMs : Int := 24 * 60 * 60 * 1000
  allowedProvenance : List MemoryProvenance := [.extraction, .reflection, .induction]
  maxPerRun : Nat := 10

def shouldPromote (candidate : PromotionCandidate) (policy : ResolvedPromotionPolicy)
    (nowMs : Int) : Bool :=
  candidate.fact.status = some .quarantined &&
    policy.allowedProvenance.contains (candidate.fact.provenance.getD .extraction) &&
    policy.minSalience ≤ candidate.fact.details.importance.getD 0 &&
    policy.minRecalls ≤ candidate.accessCount &&
    policy.minUniqueQueries ≤ candidate.uniqueQueryCount &&
    match candidate.fact.createdAt with
    | .instant createdAtMs => policy.minAgeMs ≤ nowMs - createdAtMs
    | _ => false

def promoteEach (scope : Scope) (policy : ResolvedPromotionPolicy) (now : Int) :
    List PromotionCandidate → Nat → Store → Nat × Store
  | [], promoted, store => (promoted, store)
  | candidate :: rest, promoted, store =>
    if policy.maxPerRun ≤ promoted then (promoted, store)
    else if shouldPromote candidate policy now then
      match validate detectMemoryInjection scope candidate.fact.id
          (some "promotion-policy") false now store with
      | (.ok _, next) => promoteEach scope policy now rest (promoted + 1) next
      | (.error _, next) => promoteEach scope policy now rest promoted next
    else promoteEach scope policy now rest promoted store

def runPromotionStep (scope : Scope) (policy : ResolvedPromotionPolicy) (now : Int)
    (store : Store) : Nat × Store :=
  promoteEach detectMemoryInjection scope policy now
    (store.listPromotionCandidates scope 200) 0 store

end Graphorin.Memory
