import Graphorin.Memory.Facts

namespace Graphorin.Memory

open Lib

/-! What the store returns to a reader: every query ends in the same predicate
on the row. -/

structure Hit where
  id : String
  fact : Fact
  score : Rat

structure ReadOptions where
  asOf : Option Stamp := none
  includeQuarantined : Bool := false
  includeSuperseded : Bool := false
  tags : List String := []
  owner : Option (List MemoryOwner) := none

/-- `none` stands for no filter on the validity interval. -/
def resolveFactValidityEpoch (options : ReadOptions) (now : Int) :
    Except Failure (Option Int) :=
  match options.asOf with
  | some stamp => (toEpoch stamp).map some
  | none => .ok (if options.includeSuperseded then none else some now)

/-- `FACT_VALIDITY_CLAUSE`. -/
def Row.validAt (row : Row) (epoch : Int) : Bool :=
  row.validFrom.all (· ≤ epoch) && row.validTo.all (epoch < ·)

/-- The part of the predicate that every query has. -/
def Row.admitted (row : Row) (userId : String) (includeQuarantined : Bool)
    (epoch : Option Int) : Bool :=
  row.userId = userId && row.deletedAt.isNone && !row.archived &&
    (includeQuarantined || row.status ≠ .quarantined) && epoch.all row.validAt

/-- `factTagsPredicate`. -/
def Row.tagged (row : Row) (tags : List String) : Bool :=
  tags.isEmpty || tags.any fun tag => (row.details.tags.getD []).contains tag

/-- `ownerPredicate`; an empty list is no predicate. -/
def Row.ownedBy (row : Row) (owner : Option (List MemoryOwner)) : Bool :=
  match owner with
  | none | some [] => true
  | some owners => owners.contains (row.details.owner.getD .user)

/-- What SQLite's extensions answer: which rows match, best first. -/
structure Engine where
  bm25 : List (String × String) → String → List (String × Rat)
  /-- Every row of one embedder's table, nearest first. -/
  nearest : List (String × Embedding) → Embedding → List (String × Rat)
  linearFallback : Bool
  scoreFromDistance : Rat → Rat

structure PromotionCandidate where
  fact : Fact
  accessCount : Nat
  uniqueQueryCount : Nat

namespace Store

/-- The rows a ranking names, by a join on the id. -/
def ranked (store : Store) (ranking : List (String × Rat)) (keep : Row → Bool) :
    List Hit :=
  ranking.filterMap fun (id, score) =>
    match store.facts.get id with
    | some row => if keep row then some ⟨id, rowToFact id row, score⟩ else none
    | none => none

def search (engine : Engine) (store : Store) (scope : Scope) (query : String) (topK : Nat)
    (options : ReadOptions) (now : Int) : Except Failure (List Hit) :=
  (resolveFactValidityEpoch options now).map fun epoch =>
    (store.ranked (engine.bm25 store.index.entries query) fun row =>
      row.admitted scope.userId options.includeQuarantined epoch &&
        row.tagged options.tags && row.ownedBy options.owner).take topK

/-- The nearest `k` of the table, then the filters of the query. -/
def runKnn (store : Store) (ranking : List (String × Rat)) (keep : Row → Bool) (k : Nat) :
    List Hit :=
  store.ranked (ranking.take k) keep

/-- `widenKnn`, with one turn of the loop for each unit of `fuel`. -/
def widen (run : Nat → List Hit) (topK total : Nat) : Nat → Nat → List Hit
  | 0, k => run k
  | fuel + 1, k =>
    let rows := run k
    if rows.length < topK ∧ k < total then
      widen run topK total fuel (min (k * 2) total)
    else rows

/-- `k` at least doubles below `total`, so `total` turns are enough. -/
def widenKnn (run : Nat → List Hit) (topK total : Nat) : List Hit :=
  if total = 0 then []
  else (widen run topK total total (min (max (topK * 4) (topK + 16)) total)).take topK

/-- One embedder's vector table. -/
def table (store : Store) (embedderId : String) : List (String × Embedding) :=
  store.vectors.entries.filterMap fun ((embedder, id), vector) =>
    if embedder = embedderId then some (id, vector) else none

def searchVector (engine : Engine) (registry : Registry) (store : Store) (scope : Scope)
    (embedding : Embedding) (embedderId : String) (topK : Nat) (options : ReadOptions)
    (now : Int) : Except Failure (List Hit) :=
  match registry embedderId with
  | none => .ok []
  | some dim =>
    if embedding.length ≠ dim then .error .dimensionMismatch
    else
      (resolveFactValidityEpoch options now).map fun epoch =>
        let table := store.table embedderId
        let ranking := engine.nearest table embedding
        let keep := fun row : Row =>
          row.admitted scope.userId options.includeQuarantined epoch &&
            row.embedderId = some embedderId && row.ownedBy options.owner
        let rows :=
          if engine.linearFallback then
            (store.ranked (ranking.take (max (topK * 4) 64)) keep).take topK
          else widenKnn (store.runKnn ranking keep) topK table.length
        rows.map fun hit => { hit with score := engine.scoreFromDistance hit.score }

/-- `COALESCE(merged_into, id)`. -/
def canonical (store : Store) (entityId : String) : String :=
  ((store.entities.get entityId).bind (·.mergedInto)).getD entityId

/-- One step of the recursive query: through a fact the reader may see, to every
fact that shares an entity with it. -/
def bridge (store : Store) (keep : Row → Bool) (level : List String) : List String :=
  level.flatMap fun id =>
    if (store.facts.get id).any keep then
      store.links.flatMap fun link =>
        if link.1 = id then
          (store.links.filter fun other =>
            store.canonical other.2 = store.canonical link.2).map Prod.fst
        else []
    else []

/-- The facts reached after each number of hops. -/
def walk (store : Store) (keep : Row → Bool) (seeds : List String) : Nat → List String
  | 0 => seeds
  | depth + 1 => store.bridge keep (store.walk keep seeds depth)

/-- The rows of `facts` by falling `created_at`. -/
def newestFirst (hits : List (Hit × Int)) : List (Hit × Int) :=
  hits.mergeSort fun left right => right.2 ≤ left.2

/-- `expandOneHop` and `expandActivation`: both end in this selection, the second
orders it by depth first. -/
def expandActivation (store : Store) (scope : Scope) (seedFactIds : List String)
    (maxHops limit : Nat) (options : ReadOptions) (now : Int) :
    Except Failure (List (Hit × Nat)) :=
  if seedFactIds.isEmpty then .ok []
  else
    (resolveFactValidityEpoch options now).map fun epoch =>
      let keep := fun row : Row =>
        row.admitted scope.userId options.includeQuarantined epoch
      let seeds := seedFactIds.filter fun id => store.owns scope id
      let depth := fun id : String => (List.range maxHops).find? fun hops =>
        (store.walk keep seeds (hops + 1)).contains id
      let reached := store.facts.entries.filterMap fun (id, row) =>
        match depth id with
        | some hops =>
          if !seeds.contains id && keep row then
            some ((⟨id, rowToFact id row, 1⟩, hops + 1), row.createdAt)
          else none
        | none => none
      (((reached.mergeSort fun left right => right.2 ≤ left.2).mergeSort
        fun left right => left.1.2 ≤ right.1.2).take limit).map Prod.fst

def expandOneHop (store : Store) (scope : Scope) (seedFactIds : List String)
    (maxHops limit : Nat) (options : ReadOptions) (now : Int) :
    Except Failure (List Hit) :=
  if seedFactIds.isEmpty then .ok []
  else
    (resolveFactValidityEpoch options now).map fun epoch =>
      let keep := fun row : Row =>
        row.admitted scope.userId options.includeQuarantined epoch
      let seeds := seedFactIds.filter fun id => store.owns scope id
      let reached := store.facts.entries.filterMap fun (id, row) =>
        if ((List.range maxHops).any fun hops =>
            (store.walk keep seeds (hops + 1)).contains id) &&
          !seeds.contains id && keep row then
            some ((⟨id, rowToFact id row, 1⟩ : Hit), row.createdAt)
        else none
      ((newestFirst reached).take limit).map Prod.fst

def factsForEntityName (store : Store) (scope : Scope) (normalizedName : String)
    (limit : Nat) (options : ReadOptions) (now : Int) : Except Failure (List Hit) :=
  (resolveFactValidityEpoch options now).map fun epoch =>
    let named := store.entities.entries.filterMap fun (id, entity) =>
      if entity.userId = scope.userId ∧ entity.normalizedName = normalizedName then
        some (store.canonical id)
      else none
    let linked := store.facts.entries.filterMap fun (id, row) =>
      if (store.links.any fun link =>
          link.1 = id && named.contains (store.canonical link.2)) &&
        row.admitted scope.userId options.includeQuarantined epoch then
          some ((⟨id, rowToFact id row, 1⟩ : Hit), row.createdAt)
      else none
    ((newestFirst linked).take limit).map Prod.fst

/-- The rows of `facts` by rising `created_at`, then id. -/
def oldestFirst (entries : List (String × Row)) : List (String × Row) :=
  entries.mergeSort fun left right =>
    left.2.createdAt < right.2.createdAt ||
      (left.2.createdAt = right.2.createdAt && left.1 ≤ right.1)

def listActive (store : Store) (scope : Scope) (limit : Nat)
    (excludePendingSupersede : Bool) (now : Int) : List Fact :=
  ((oldestFirst (store.facts.entries.filter fun (id, row) =>
    row.admitted scope.userId false (some now) &&
      !(excludePendingSupersede && store.facts.entries.any fun (_, successor) =>
        successor.supersedes = some id && successor.deletedAt.isNone &&
          successor.status = .quarantined))).take limit).map fun (id, row) => rowToFact id row

def listPromotionCandidates (store : Store) (scope : Scope) (limit : Nat) :
    List PromotionCandidate :=
  ((oldestFirst (store.facts.entries.filter fun (_, row) =>
    row.userId = scope.userId && row.deletedAt.isNone && !row.archived &&
      row.status = .quarantined)).take limit).map fun (id, row) =>
    ⟨rowToFact id row, row.accessCount,
      (store.queries.filter fun query => query.factId = id).length⟩

/-- The queue of `historyOf`: every id is looked at once. -/
def historyFrom (store : Store) (scope : Scope) :
    Nat → List String → List String → List (String × Row) → List (String × Row)
  | 0, _, _, rows => rows
  | _ + 1, [], _, rows => rows
  | fuel + 1, id :: queue, seen, rows =>
    if seen.contains id then store.historyFrom scope fuel queue seen rows
    else
      match store.facts.get id with
      | some row =>
        if row.userId = scope.userId then
          let inbound := store.facts.entries.filterMap fun (other, link) =>
            if link.userId = scope.userId ∧
                (link.supersedes = some id ∨ link.supersededBy = some id) then
              some other
            else none
          store.historyFrom scope fuel
            (queue ++ row.supersedes.toList ++ row.supersededBy.toList ++ inbound)
            (id :: seen) (rows ++ [(id, row)])
        else store.historyFrom scope fuel queue (id :: seen) rows
      | none => store.historyFrom scope fuel queue (id :: seen) rows

def historyFuel (store : Store) : Nat :=
  1 + store.facts.entries.length * (store.facts.entries.length + 2) + 1

def historyOf (store : Store) (scope : Scope) (factId : String) : List Fact :=
  let since := fun row : Row => row.validFrom.getD row.createdAt
  ((store.historyFrom scope store.historyFuel [factId] [] []).mergeSort
    fun left right =>
      since left.2 < since right.2 ||
        (since left.2 = since right.2 && left.2.createdAt ≤ right.2.createdAt)).map
    fun (id, row) => rowToFact id row

end Store

end Graphorin.Memory
