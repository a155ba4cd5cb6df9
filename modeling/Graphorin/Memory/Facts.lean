import Graphorin.Lib.OrderedMap
import Mathlib.Data.Rat.Defs
import Mathlib.Algebra.Order.Ring.Rat

namespace Graphorin.Memory

open Lib

/-! Facts, the rows that hold them, and the statements of the SQLite store. -/

inductive MemoryStatus
  | active
  | quarantined
  deriving DecidableEq

inductive MemoryProvenance
  | user
  | tool
  | extraction
  | reflection
  | induction
  | imported
  deriving DecidableEq

inductive MemoryOwner
  | user
  | agent
  | shared
  deriving DecidableEq

/-- A timestamp text by what `Date.parse` makes of it; the empty text is falsy. -/
inductive Stamp
  | empty
  | invalid
  | instant (epoch : Int)
  deriving DecidableEq

structure Scope where
  userId : String
  sessionId : Option String := none
  agentId : Option String := none
  deriving DecidableEq

structure Details where
  sensitivity : String := "internal"
  subject : Option String := none
  predicate : Option String := none
  object : Option String := none
  confidence : Option Rat := none
  tags : Option (List String) := none
  owner : Option MemoryOwner := none
  importance : Option Rat := none
  deriving DecidableEq

structure Fact where
  id : String
  userId : String
  sessionId : Option String
  agentId : Option String
  text : String
  details : Details
  validFrom : Option Stamp
  validTo : Option Stamp
  supersedes : Option String
  supersededBy : Option String
  provenance : Option MemoryProvenance
  status : Option MemoryStatus
  createdAt : Stamp
  updatedAt : Option Stamp
  deriving DecidableEq

/-- A row of `facts`; its id is the key it is stored under. -/
structure Row where
  userId : String
  sessionId : Option String
  agentId : Option String
  text : String
  details : Details
  embedderId : Option String
  validFrom : Option Int
  validTo : Option Int
  supersedes : Option String
  supersededBy : Option String
  provenance : Option MemoryProvenance
  status : MemoryStatus
  lastAccessedAt : Option Int
  accessCount : Nat
  createdAt : Int
  updatedAt : Option Int
  archived : Bool
  deletedAt : Option Int
  sourceMessageIds : Option String := none
  strength : Rat := 1
  deriving DecidableEq

/-- The 32-bit words of a `Float32Array`. -/
abbrev Embedding := List UInt32

inductive HistoryEvent
  | supersede
  | validate
  | quarantine
  | purge
  deriving DecidableEq

/-- A row of `memory_history` of kind `fact`. -/
structure HistoryRow where
  memoryId : String
  prevValue : Option String
  newValue : Option String
  event : HistoryEvent
  createdAt : Int
  deriving DecidableEq

structure RecallQuery where
  factId : String
  queryHash : String
  firstSeen : Int
  deriving DecidableEq

structure Entity where
  userId : String
  normalizedName : String
  mergedInto : Option String
  deriving DecidableEq

structure Store where
  facts : OrderedMap String Row
  /-- `facts_fts`, by fact. -/
  index : OrderedMap String String
  /-- The `facts_vec_*` tables, by embedder and fact. -/
  vectors : OrderedMap (String × String) Embedding
  history : List HistoryRow
  queries : List RecallQuery
  entities : OrderedMap String Entity
  /-- `fact_entities`. -/
  links : List (String × String)

def Store.empty : Store :=
  ⟨.empty, .empty, .empty, [], [], .empty, []⟩

inductive Failure
  | invalidTimestamp
  | unknownEmbedder
  | dimensionMismatch
  | embedderFailed
  | promotionRefused (factId : String)
  deriving DecidableEq

def toEpoch : Stamp → Except Failure Int
  | .instant epoch => .ok epoch
  | .empty | .invalid => .error .invalidTimestamp

/-- `stamp ? toEpoch(stamp) : null`. -/
def epochColumn : Option Stamp → Except Failure (Option Int)
  | none | some .empty => .ok none
  | some stamp => (toEpoch stamp).map some

/-- The values bound to the `INSERT`. -/
def Fact.toRow (fact : Fact) (embedderId : Option String) : Except Failure Row :=
  match epochColumn fact.validFrom, epochColumn fact.validTo,
    toEpoch fact.createdAt, epochColumn fact.updatedAt with
  | .ok validFrom, .ok validTo, .ok createdAt, .ok updatedAt =>
    .ok
      { userId := fact.userId
        sessionId := fact.sessionId
        agentId := fact.agentId
        text := fact.text
        details := fact.details
        embedderId := embedderId
        validFrom := validFrom
        validTo := validTo
        supersedes := fact.supersedes
        supersededBy := fact.supersededBy
        provenance := fact.provenance
        status := fact.status.getD .active
        lastAccessedAt := none
        accessCount := 0
        createdAt := createdAt
        updatedAt := updatedAt
        archived := false
        deletedAt := none }
  | _, _, _, _ => .error .invalidTimestamp

/-- `ON CONFLICT(id) DO UPDATE SET`: the columns an upsert leaves are those of
the old row. -/
def Row.upsert (old excluded : Row) : Row :=
  { old with
    text := excluded.text
    details := excluded.details
    validFrom := excluded.validFrom
    validTo := excluded.validTo
    supersedes := excluded.supersedes
    supersededBy := excluded.supersededBy
    provenance := excluded.provenance
    status := excluded.status
    embedderId := excluded.embedderId.or old.embedderId
    updatedAt := excluded.updatedAt }

/-- `superseded_by = ?, valid_to = COALESCE(valid_to, ?), updated_at = ?`: an end
that is already there stays. -/
def Row.close (row : Row) (newId : String) (closeAt now : Int) : Row :=
  { row with
    supersededBy := some newId
    validTo := row.validTo.or (some closeAt)
    updatedAt := some now }

def Row.setStatus (row : Row) (status : MemoryStatus) (now : Int) : Row :=
  { row with status := status, updatedAt := some now }

def Row.access (row : Row) (userId : String) (now : Int) : Row :=
  if row.userId = userId then
    { row with
      lastAccessedAt := some now
      strength := min 2 (row.strength + 1 / 10)
      accessCount := row.accessCount + 1 }
  else row

def rowToFact (id : String) (row : Row) : Fact where
  id := id
  userId := row.userId
  sessionId := row.sessionId
  agentId := row.agentId
  text := row.text
  details := row.details
  validFrom := row.validFrom.map .instant
  validTo := row.validTo.map .instant
  supersedes := row.supersedes
  supersededBy := row.supersededBy
  provenance := row.provenance
  status := some row.status
  createdAt := .instant row.createdAt
  updatedAt := row.updatedAt.map .instant

structure EmbeddingPayload where
  embedderId : String
  vector : Embedding

structure WriteOptions where
  embedding : Option EmbeddingPayload := none
  indexText : Option String := none

def HistoryRow.scrub (id text : String) (row : HistoryRow) : HistoryRow :=
  if row.memoryId = id then { row with prevValue := none, newValue := none }
  else
    { row with
      prevValue := if row.prevValue = some text then none else row.prevValue
      newValue := if row.newValue = some text then none else row.newValue }

namespace Store

abbrev Registry := String → Option Nat

/-- The transaction of `rememberWithEmbedding`, once its values are bound. -/
def insert (store : Store) (id : String) (row : Row) (options : WriteOptions) : Store :=
  { store with
    facts := store.facts.set id <|
      match store.facts.get id with
      | some old => old.upsert row
      | none => row
    vectors :=
      match options.embedding with
      | some payload => store.vectors.set (payload.embedderId, id) payload.vector
      | none => store.vectors
    index := store.index.set id (options.indexText.getD row.text) }

/-- A throw rolls the transaction back. -/
def rememberWithEmbedding (registry : Registry) (store : Store) (fact : Fact)
    (options : WriteOptions) : Except Failure Store :=
  match options.embedding with
  | none => (fact.toRow none).map fun row => store.insert fact.id row options
  | some payload =>
    match registry payload.embedderId with
    | none => .error .unknownEmbedder
    | some dim =>
      match fact.toRow (some payload.embedderId) with
      | .error failure => .error failure
      | .ok row =>
        if payload.vector.length ≠ dim then .error .dimensionMismatch
        else .ok (store.insert fact.id row options)

def remember (store : Store) (fact : Fact) : Except Failure Store :=
  (fact.toRow none).map fun row => store.insert fact.id row {}

/-- The second transaction of `supersede`. -/
def close (store : Store) (oldId newId newText : String) (closeAt now : Int) : Store :=
  { store with
    facts := store.facts.modify oldId fun row => row.close newId closeAt now
    history := store.history ++ [⟨oldId, none, some newText, .supersede, now⟩] }

/-- `newFact.validFrom ? toEpoch(newFact.validFrom) : now`. -/
def closeAt (newFact : Fact) (now : Int) : Except Failure Int :=
  (epochColumn newFact.validFrom).map fun column => column.getD now

def supersede (store : Store) (oldId : String) (newFact : Fact) (now : Int) :
    Except Failure Store :=
  match closeAt newFact now with
  | .error failure => .error failure
  | .ok closeAt =>
    (store.remember newFact).map fun saved =>
      saved.close oldId newFact.id newFact.text closeAt now

def owns (store : Store) (scope : Scope) (id : String) : Bool :=
  (store.facts.get id).any fun row => row.userId = scope.userId

def setStatus (store : Store) (scope : Scope) (factId : String) (status : MemoryStatus)
    (reason : Option String) (now : Int) : Store :=
  if store.owns scope factId then
    { store with
      facts := store.facts.modify factId fun row => row.setStatus status now
      history := store.history ++
        [⟨factId, none,
          some (reason.getD (match status with
            | .active => "active"
            | .quarantined => "quarantined")),
          match status with
          | .active => .validate
          | .quarantined => .quarantine,
          now⟩] }
  else store

/-- `DELETE FROM … WHERE fact_id = ?` on every vector table. -/
def dropVectors (store : Store) (id : String) : Store :=
  { store with
    vectors := store.vectors.deleteAll
      (store.vectors.keys.filter fun key => key.2 = id) }

def forget (store : Store) (scope : Scope) (id : String) (now : Int) : Store :=
  if store.owns scope id then
    { store.dropVectors id with
      facts := store.facts.modify id fun row =>
        { row with deletedAt := some now, archived := true } }
  else store

def purge (store : Store) (scope : Scope) (id : String) (reason : Option String)
    (now : Int) : Store :=
  match store.facts.get id with
  | none => store
  | some row =>
    if row.userId = scope.userId then
      { store.dropVectors id with
        facts := store.facts.delete id
        index := store.index.delete id
        history := store.history.map (HistoryRow.scrub id row.text) ++
          [⟨id, none, reason, .purge, now⟩]
        queries := store.queries.filter fun query => query.factId ≠ id
        links := store.links.filter fun link => link.1 ≠ id }
    else store

/-- A lookup by id, whoever asks. -/
def get (store : Store) (id : String) : Option Fact :=
  match store.facts.get id with
  | some row => if row.deletedAt.isNone then some (rowToFact id row) else none
  | none => none

/-- `INSERT OR IGNORE` on the fact and the hash. -/
def noteQuery (store : Store) (scope : Scope) (queryHash : String) (now : Int)
    (id : String) : Store :=
  if store.owns scope id then
    if store.queries.any fun query => query.factId = id ∧ query.queryHash = queryHash then
      store
    else { store with queries := store.queries ++ [⟨id, queryHash, now⟩] }
  else store

def markAccessed (store : Store) (scope : Scope) (ids : List String) (queryHash : String)
    (now : Int) : Store :=
  let touched :=
    { store with
      facts := ids.dedup.foldl
        (fun facts id => facts.modify id fun row => row.access scope.userId now)
        store.facts }
  if queryHash.isEmpty then touched
  else ids.foldl (fun store id => store.noteQuery scope queryHash now id) touched

end Store

end Graphorin.Memory
