import Graphorin.Memory.Retrieval

namespace Graphorin.Memory

/-! The conflict pipeline: five stages look at a candidate and at the facts close
to it, and none of them at the candidate's status. -/

inductive ConflictStage
  | exactDedup
  | embeddingThreeZone
  | heuristicRegex
  | subjectPredicate
  | deferToDeep
  deriving DecidableEq

inductive StageOutcome
  | continue
  | admitted (reason : Option String)
  | dedup (existingId : String) (similarity : Option Rat) (reason : Option String)
  | supersede (existingId : String) (reason : String)
  | pending (conflictingIds : List String) (similarity : Option Rat) (reason : Option String)
  deriving DecidableEq

inductive ConflictDecision
  | admitted (stage : ConflictStage) (reason : Option String)
  | dedup (stage : ConflictStage) (existingId : String) (similarity : Option Rat)
      (reason : Option String)
  | supersede (stage : ConflictStage) (existingId : String) (reason : String)
  | pending (stage : ConflictStage) (candidateId : String) (conflictingIds : List String)
      (similarity : Option Rat) (reason : Option String)
  deriving DecidableEq

structure Triple where
  subject : String
  predicate : String
  object : String
  deriving DecidableEq

/-- What the stages read off a text: its canonical hash, the marker of the locale
pack it carries (as a formatted reason), and its subject, predicate and object. -/
structure LocalePack where
  hash : String → String
  supersedeMarker : String → Option String
  negationMarker : String → Option String
  splitSubjectPredicateObject : String → Option Triple

structure ConflictThresholds where
  hot : Rat
  nearDup : Rat
  cold : Rat

structure StageContext where
  candidate : Fact
  existing : List Hit
  localePack : LocalePack
  thresholds : ConflictThresholds

def rawCosineFromStoreScore (score : Rat) : Rat :=
  min 1 (max (-1) (2 * score - 1))

def stage1ExactDedup (ctx : StageContext) : StageOutcome :=
  match ctx.existing.find? fun hit =>
      ctx.localePack.hash hit.fact.text = ctx.localePack.hash ctx.candidate.text with
  | some hit => .dedup hit.id (some 1) (some "exact-hash-match")
  | none => .continue

def stage2EmbeddingThreeZone (ctx : StageContext) : StageOutcome :=
  match ctx.existing with
  | [] => .admitted (some "no-existing-candidates")
  | top :: _ =>
    let similarity := rawCosineFromStoreScore top.score
    if ctx.thresholds.hot ≤ similarity then
      .dedup top.id (some similarity) (some "embedding-hot-zone")
    else if ctx.thresholds.nearDup ≤ similarity then
      .dedup top.id (some similarity) (some "embedding-near-dup-zone")
    else if ctx.thresholds.cold < similarity then .continue
    else .admitted (some "embedding-cold-zone")

def stage3HeuristicRegex (ctx : StageContext) : StageOutcome :=
  match ctx.existing with
  | [] => .continue
  | top :: _ =>
    match ctx.localePack.supersedeMarker ctx.candidate.text with
    | some marker => .supersede top.id ("regex-supersede-marker" ++ marker)
    | none =>
      match ctx.localePack.negationMarker ctx.candidate.text with
      | some marker => .supersede top.id ("regex-negation" ++ marker)
      | none => .continue

def stage4SubjectPredicate (ctx : StageContext) : StageOutcome :=
  match ctx.localePack.splitSubjectPredicateObject ctx.candidate.text with
  | none => .continue
  | some candidate =>
    let matched := ctx.existing.findSome? fun hit =>
      match ctx.localePack.splitSubjectPredicateObject hit.fact.text with
      | some existing =>
        if candidate.subject = existing.subject ∧
            candidate.predicate = existing.predicate then
          some (hit, existing)
        else none
      | none => none
    match matched with
    | none => .continue
    | some (hit, existing) =>
      if candidate.object = existing.object then
        .dedup hit.id none (some "subject-predicate-match-same-object")
      else
        .supersede hit.id
          ("subject-predicate-match; subject=" ++ candidate.subject ++
            "; predicate=" ++ candidate.predicate)

def stage5DeferToDeep (ctx : StageContext) : StageOutcome :=
  match ctx.existing with
  | [] => .admitted (some "stage5-no-candidates")
  | top :: _ =>
    .pending (ctx.existing.map (·.id)) (some (rawCosineFromStoreScore top.score))
      (some "awaiting-deep-llm-judge")

def mapOutcomeToDecision (stage : ConflictStage) (outcome : StageOutcome)
    (candidate : Fact) : ConflictDecision :=
  match outcome with
  | .continue => .admitted stage (some "continue-fallthrough")
  | .admitted reason => .admitted stage reason
  | .dedup existingId similarity reason => .dedup stage existingId similarity reason
  | .supersede existingId reason => .supersede stage existingId reason
  | .pending conflictingIds similarity reason =>
    .pending stage candidate.id conflictingIds similarity reason

def hotZone : StageOutcome → Bool
  | .dedup _ _ reason => reason == some "embedding-hot-zone"
  | _ => false

def orchestrate (ctx : StageContext) : ConflictDecision :=
  let stage1 := stage1ExactDedup ctx
  if stage1 ≠ .continue then mapOutcomeToDecision .exactDedup stage1 ctx.candidate
  else
    let stage2 := stage2EmbeddingThreeZone ctx
    if hotZone stage2 then mapOutcomeToDecision .embeddingThreeZone stage2 ctx.candidate
    else
      let stage3 := if ctx.existing.isEmpty then .continue else stage3HeuristicRegex ctx
      let stage4 := if ctx.existing.isEmpty then .continue else stage4SubjectPredicate ctx
      if stage3 ≠ .continue then
        mapOutcomeToDecision .heuristicRegex stage3 ctx.candidate
      else if stage4 ≠ .continue then
        mapOutcomeToDecision .subjectPredicate stage4 ctx.candidate
      else
        match stage2 with
        | .dedup .. | .admitted _ =>
          mapOutcomeToDecision .embeddingThreeZone stage2 ctx.candidate
        | _ => mapOutcomeToDecision .deferToDeep (stage5DeferToDeep ctx) ctx.candidate

structure Embedder where
  id : String
  embed : String → Except Failure (Option Embedding)

structure ConflictPipeline where
  off : Bool
  localePack : LocalePack
  thresholds : ConflictThresholds
  stage2TopK : Nat

def collectVectorCandidates (engine : Engine) (registry : Store.Registry) (store : Store)
    (embedder : Option Embedder) (candidate : Fact) (topK : Nat) (now : Int) :
    Except Failure (List Hit) :=
  match embedder with
  | none => .ok []
  | some embedder =>
    match embedder.embed candidate.text with
    | .error failure => .error failure
    | .ok none => .ok []
    | .ok (some vector) =>
      match store.searchVector engine registry ⟨candidate.userId, none, none⟩ vector
          embedder.id topK {} now with
      | .ok hits => .ok (hits.filter fun hit => hit.id ≠ candidate.id)
      | .error _ => .ok []

def collectExactTextCandidates (engine : Engine) (store : Store) (candidate : Fact)
    (topK : Nat) (now : Int) : List Hit :=
  if candidate.text.isEmpty then []
  else
    match store.search engine ⟨candidate.userId, none, none⟩ candidate.text topK
        { includeQuarantined := true } now with
    | .ok hits => hits.filter fun hit => hit.id ≠ candidate.id
    | .error _ => []

def ConflictPipeline.run (pipeline : ConflictPipeline) (engine : Engine)
    (registry : Store.Registry) (store : Store) (embedder : Option Embedder)
    (candidate : Fact) (now : Int) : Except Failure ConflictDecision :=
  if pipeline.off then .ok (.admitted .exactDedup (some "pipeline-mode-off"))
  else
    match collectVectorCandidates engine registry store embedder candidate
        pipeline.stage2TopK now with
    | .error failure => .error failure
    | .ok close =>
      let existing :=
        if close.isEmpty then
          collectExactTextCandidates engine store candidate pipeline.stage2TopK now
        else close
      .ok (orchestrate ⟨candidate, existing, pipeline.localePack, pipeline.thresholds⟩)

end Graphorin.Memory
