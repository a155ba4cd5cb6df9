import Graphorin.Memory.Semantic
import Mathlib.Algebra.GroupWithZero.Nat

namespace Graphorin.Memory

open Lib

/-! Hybrid search: the legs gather hits, a reranker fuses them, and what follows
only weighs, drops and cuts. -/

/-- A reranker orders the hits it is given; it makes none of its own. -/
structure ReRanker where
  rerank : String → List (List Hit) → Nat → List Hit
  gathered : ∀ query lists topK, ∀ hit ∈ rerank query lists topK,
    ∃ list ∈ lists, ∃ given ∈ list, given.id = hit.id ∧ given.fact = hit.fact

def byScore (hits : List Hit) : List Hit :=
  hits.mergeSort fun left right => right.score ≤ left.score

def contribute (aggregates : OrderedMap String Hit) (hit : Hit) (contribution : Rat) :
    OrderedMap String Hit :=
  match aggregates.get hit.id with
  | none => aggregates.set hit.id { hit with score := contribution }
  | some existing =>
    aggregates.set hit.id { existing with score := existing.score + contribution }

def contributeList (k weight : Rat) (aggregates : OrderedMap String Hit)
    (list : List Hit) : OrderedMap String Hit :=
  list.zipIdx.foldl
    (fun aggregates (hit, place) => contribute aggregates hit (weight / (k + (place + 1))))
    aggregates

def fuseWeighted (lists : List (List Hit)) (weights : List Rat) (k : Rat) : List Hit :=
  byScore <|
    (lists.zipIdx.foldl
      (fun aggregates (list, place) =>
        contributeList k (weights[place]?.getD 1) aggregates list)
      OrderedMap.empty).entries.map Prod.snd

structure Fusion where
  fts : Rat := 1
  vector : Rat := 1
  graph : Rat := 1
  entity : Rat := 1
  k : Rat := 60

structure Decay where
  /-- The retention of a fact with this last access, at this time. -/
  retention : (reference now : Int) → Rat

structure FactSearchOptions where
  topK : Nat := 10
  candidateTopK : Nat := 60
  read : ReadOptions := {}
  hyde : Bool := false
  expandHops : Nat := 0
  ppr : Bool := false
  entityMatch : Bool := false
  decay : Option Decay := none
  trustWeighting : Bool := true
  fusion : Option Fusion := none

structure SearchEnv where
  now : Int
  embedder : Option Embedder
  registry : Store.Registry
  engine : Engine
  reranker : ReRanker
  /-- The reworded variants the transformer gave, without the query. -/
  variants : List String
  /-- The hypothetical answer, when it gave one. -/
  hypothetical : Option String
  /-- The candidate names of a query. -/
  entityNames : String → List String
  hashRecallQuery : String → String
  quarantineWeight : Rat
  foreignWeight : Rat

def tryVectorSearch (env : SearchEnv) (store : Store) (scope : Scope) (query : String)
    (topK : Nat) (options : ReadOptions) : Except Failure (List Hit) :=
  match env.embedder with
  | none => .ok []
  | some embedder =>
    match embedder.embed query with
    | .error failure => .error failure
    | .ok none => .ok []
    | .ok (some vector) =>
      store.searchVector env.engine env.registry scope vector embedder.id topK
        { options with tags := [] } env.now

def wordingLegs (env : SearchEnv) (store : Store) (scope : Scope)
    (options : FactSearchOptions) (fusion : Fusion) (query : String) :
    Except Failure (List (List Hit × Rat)) :=
  match store.search env.engine scope query options.candidateTopK options.read env.now with
  | .error failure => .error failure
  | .ok ftsHits =>
    match tryVectorSearch env store scope query options.candidateTopK options.read with
    | .error failure => .error failure
    | .ok vectorHits =>
      .ok ((ftsHits, fusion.fts) ::
        if vectorHits.isEmpty then [] else [(vectorHits, fusion.vector)])

def fanOut (env : SearchEnv) (store : Store) (scope : Scope) (options : FactSearchOptions)
    (fusion : Fusion) : List String → Except Failure (List (List Hit × Rat))
  | [] => .ok []
  | query :: rest =>
    match wordingLegs env store scope options fusion query with
    | .error failure => .error failure
    | .ok legs => (fanOut env store scope options fusion rest).map (legs ++ ·)

def softLeg (weight : Rat) : Except Failure (List Hit) → List (List Hit × Rat)
  | .ok [] | .error _ => []
  | .ok hits => [(hits, weight)]

def tryHyde (env : SearchEnv) (store : Store) (scope : Scope)
    (options : FactSearchOptions) : Except Failure (List Hit) :=
  match options.hyde, env.hypothetical with
  | true, some pseudo =>
    tryVectorSearch env store scope pseudo options.candidateTopK options.read
  | _, _ => .ok []

def tryExpandHops (env : SearchEnv) (store : Store) (scope : Scope)
    (lists : List (List Hit)) (options : FactSearchOptions) : Except Failure (List Hit) :=
  if options.expandHops < 1 then .ok []
  else
    let seedIds := (lists.flatten.map (·.id)).dedup
    if options.ppr then
      (store.expandActivation scope seedIds options.expandHops options.candidateTopK
        options.read env.now).map fun graded =>
          graded.map fun (hit, depth) => { hit with score := (1 / 2) ^ max 1 depth }
    else
      store.expandOneHop scope seedIds options.expandHops options.candidateTopK
        options.read env.now

def entityHits (env : SearchEnv) (store : Store) (scope : Scope)
    (options : FactSearchOptions) : List String → List Hit → Except Failure (List Hit)
  | [], out => .ok out
  | name :: rest, out =>
    match store.factsForEntityName scope name options.candidateTopK options.read env.now with
    | .error failure => .error failure
    | .ok facts =>
      entityHits env store scope options rest
        (facts.foldl
          (fun out hit => if out.any (·.id = hit.id) then out else out ++ [hit]) out)

def tryEntityMatch (env : SearchEnv) (store : Store) (scope : Scope) (query : String)
    (options : FactSearchOptions) : Except Failure (List Hit) :=
  if options.entityMatch then
    entityHits env store scope options (env.entityNames query) []
  else .ok []

def gather (env : SearchEnv) (store : Store) (scope : Scope) (query : String)
    (options : FactSearchOptions) : Except Failure (List (List Hit × Rat)) :=
  let fusion := options.fusion.getD {}
  match fanOut env store scope options fusion (query :: env.variants) with
  | .error failure => .error failure
  | .ok direct =>
    let lists := direct ++ softLeg fusion.vector (tryHyde env store scope options)
    let lists := lists ++
      softLeg fusion.graph (tryExpandHops env store scope (lists.map Prod.fst) options)
    .ok (lists ++ softLeg fusion.entity (tryEntityMatch env store scope query options))

def applyDecay (store : Store) (hits : List Hit) (decay : Option Decay) (now : Int) :
    List Hit :=
  match decay with
  | none => hits
  | some decay =>
    byScore <| hits.map fun hit =>
      match store.facts.get hit.id with
      | none => hit
      | some row =>
        { hit with
          score := hit.score *
            decay.retention (row.lastAccessedAt.getD row.createdAt) now }

def isForeignProvenance : Option MemoryProvenance → Bool
  | none | some .user | some .extraction => false
  | _ => true

def trustDiscount (env : SearchEnv) (fact : Fact) : Rat :=
  if fact.status = some .quarantined then max 0 (1 - env.quarantineWeight)
  else if isForeignProvenance fact.provenance then max 0 (1 - env.foreignWeight)
  else 1

def applyTrustDiscount (env : SearchEnv) (hits : List Hit) : List Hit :=
  if hits.all fun hit => 1 ≤ trustDiscount env hit.fact then hits
  else
    byScore <| hits.map fun hit =>
      let factor := trustDiscount env hit.fact
      if 1 ≤ factor then hit else { hit with score := hit.score * factor }

def Hit.wanted (options : FactSearchOptions) (hit : Hit) : Bool :=
  (options.read.tags.isEmpty ||
      options.read.tags.any fun tag => (hit.fact.details.tags.getD []).contains tag) &&
    match options.read.owner with
    | none => true
    | some owners => owners.contains (hit.fact.details.owner.getD .user)

def fusedTopK (options : FactSearchOptions) (lists : List (List Hit)) : Nat :=
  if options.decay.isSome || !options.read.tags.isEmpty || options.read.owner.isSome ||
      0 < options.expandHops || options.entityMatch || options.trustWeighting ||
      options.read.includeQuarantined then
    max options.topK (lists.map List.length).sum
  else options.topK

def searchHits (env : SearchEnv) (store : Store) (scope : Scope) (query : String)
    (options : FactSearchOptions) : Except Failure (List Hit) :=
  (gather env store scope query options).map fun legs =>
    let lists := legs.map Prod.fst
    let topK := fusedTopK options lists
    let fused :=
      match options.fusion with
      | some fusion => (fuseWeighted lists (legs.map Prod.snd) fusion.k).take topK
      | none => env.reranker.rerank query lists topK
    let decayed := applyDecay store fused options.decay env.now
    let filtered := decayed.filter (Hit.wanted options)
    let trusted :=
      if options.trustWeighting then applyTrustDiscount env filtered else filtered
    trusted.take options.topK

def search (env : SearchEnv) (scope : Scope) (query : String)
    (options : FactSearchOptions) (store : Store) : Outcome (List Hit) :=
  match searchHits env store scope query options with
  | .error failure => (.error failure, store)
  | .ok ranked =>
    (.ok ranked,
      if ranked.isEmpty then store
      else
        store.markAccessed scope (ranked.map (·.id)) (env.hashRecallQuery query) env.now)

end Graphorin.Memory
