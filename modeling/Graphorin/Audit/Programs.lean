import Graphorin.Lib.Pool
import Graphorin.Audit.Chain
import Mathlib.Algebra.Order.Ring.Unbundled.Rat

namespace Graphorin.Audit

open Graphorin.Js Graphorin.Lib

/-! Appends and prunes on one handle, as programs of atomic statements. -/

/-- Who works on the handle: the chain of appends, or a call of `pruneAudit`. -/
inductive Party (κ : Type)
  | appends
  | prune (call : κ)
deriving DecidableEq

/-- A statement.  `BEGIN IMMEDIATE` also says whose it is, which only the model
looks at. -/
inductive Statement (κ : Type)
  | beginImmediate (party : Party κ)
  | commit
  | rollback
  | latest
  | insert (entry : StoredAuditEntry)
  | count
  | iterate (fromSeq : Option Int)
  | countUpTo (threshold : Int)
  | deleteUpTo (threshold : Int)
  | replaceEntry (entry : StoredAuditEntry)

inductive StatementError
  | withinTransaction
  | noTransaction
  | table (error : TableError)
deriving DecidableEq

def Statement.Result {κ : Type} : Statement κ → Type
  | .beginImmediate _ => Except StatementError Unit
  | .commit => Except StatementError Unit
  | .rollback => Unit
  | .latest => Option StoredAuditEntry
  | .insert _ => Except StatementError Unit
  | .count => Nat
  | .iterate _ => List StoredAuditEntry
  | .countUpTo _ => Nat
  | .deleteUpTo _ => Unit
  | .replaceEntry _ => Except StatementError Unit

abbrev handleInterface (κ : Type) : Interface := ⟨Statement κ, Statement.Result⟩

/-- The rows, and a note of every deletion: whose transaction it was in, and up
to which `seq`. -/
structure Contents (κ : Type) where
  table : AuditTable
  deletions : List (Option (Party κ) × Int)

/-- The connection.  `saved` is what a rollback goes back to. -/
structure Connection (κ : Type) where
  contents : Contents κ
  saved : Option (Contents κ)
  owner : Option (Party κ)

namespace Connection

variable {κ : Type}

def withTable (connection : Connection κ) (table : AuditTable) : Connection κ :=
  { connection with contents := { connection.contents with table := table } }

def change (connection : Connection κ) :
    Except TableError AuditTable → Except StatementError Unit × Connection κ
  | .ok table => (.ok (), connection.withTable table)
  | .error error => (.error (.table error), connection)

def execute : Handler (handleInterface κ) (Connection κ)
  | .beginImmediate party, connection =>
    match connection.saved with
    | some _ => (.error .withinTransaction, connection)
    | none =>
      (.ok (), ⟨connection.contents, some connection.contents, some party⟩)
  | .commit, connection =>
    match connection.saved with
    | some _ => (.ok (), ⟨connection.contents, none, none⟩)
    | none => (.error .noTransaction, connection)
  | .rollback, connection =>
    match connection.saved with
    | some saved => ((), ⟨saved, none, none⟩)
    | none => ((), connection)
  | .latest, connection => (connection.contents.table.latest, connection)
  | .insert entry, connection =>
    connection.change (connection.contents.table.insert entry)
  | .count, connection => (connection.contents.table.count, connection)
  | .iterate fromSeq, connection =>
    (connection.contents.table.iterate fromSeq none, connection)
  | .countUpTo threshold, connection =>
    ((connection.contents.table.rows.filter fun row => row.seq ≤ threshold).length,
      connection)
  | .deleteUpTo threshold, connection =>
    ((), { connection with
      contents := ⟨connection.contents.table.deleteUpTo threshold,
        connection.contents.deletions ++ [(connection.owner, threshold)]⟩ })
  | .replaceEntry entry, connection =>
    connection.change (connection.contents.table.replaceEntry entry)

end Connection

inductive AuditFailure
  | payload (reason : NotSerialisable)
  | statement (error : StatementError)
  | beforeNotFinite
deriving DecidableEq

structure PruneAuditResult where
  deleted : Nat
  firstSurvivingSeq : Option Nat
deriving DecidableEq

/-- How a call settles. -/
inductive Settled
  | appended (entry : StoredAuditEntry)
  | appendRejected (failure : AuditFailure)
  | pruned (result : PruneAuditResult)
  | pruneRejected (failure : AuditFailure)

abbrev AuditProgram (κ α : Type) :=
  Program (handleInterface κ) Settled AuditFailure α

section Calls

variable {κ : Type}

def perform (statement : Statement κ)
    (outcome : Statement.Result statement → Except StatementError Unit) :
    AuditProgram κ Unit :=
  .call statement fun answer =>
    match outcome answer with
    | .ok _ => .done ()
    | .error error => .fail (.statement error)

/-- `BEGIN IMMEDIATE` stands before the `try`: when it throws nothing is rolled
back. -/
def transact {α : Type} (party : Party κ) (fn : AuditProgram κ α) :
    AuditProgram κ α :=
  (perform (.beginImmediate party) id).bind fun _ =>
    (fn.bind fun result => (perform .commit id).bind fun _ => .done result).catchFail
      fun failure => .call .rollback fun _ => .fail failure

variable (js : Runtime)

def appendStatements (now : Rat) (input : AuditEntryInput) :
    AuditProgram κ StoredAuditEntry :=
  .call .latest fun last =>
    match sealEntry js last now input with
    | .error (.payload reason) => .fail (.payload reason)
    | .error (.table error) => .fail (.statement (.table error))
    | .ok stored => (perform (.insert stored) id).bind fun _ => .done stored

/-- `WRITE_CHAINS`: each append starts when the one before it has settled, either
way. -/
def writeChain : List (AuditEntryInput × Rat) → AuditProgram κ Unit
  | [] => .done ()
  | (input, now) :: rest =>
    (((transact .appends (appendStatements js now input)).bind fun stored =>
      .emit (.appended stored) (.done ())).catchFail fun failure =>
        .emit (.appendRejected failure) (.done ())).bind fun _ => writeChain rest

structure PruneAuditOptions where
  /-- `none` when it is not finite. -/
  before : Option Rat
  retain : Option Rat

def lastQualifying (beforeMs : Rat) (total : Nat) (retain : Rat) :
    List StoredAuditEntry → Nat → Option Nat → Option Nat
  | [], _, found => found
  | entry :: rest, walked, found =>
    if entry.ts ≥ beforeMs then found
    else if (total : Rat) - (walked + 1 : Nat) < retain then found
    else lastQualifying beforeMs total retain rest (walked + 1) (some entry.seq)

def withRehashedChain (entry : StoredAuditEntry) (prevHash : JsText) :
    Except NotSerialisable StoredAuditEntry := do
  let baseEntry := { entry.toBaseAuditEntry with prevHash := prevHash }
  let hash ← computeAuditHash js baseEntry
  pure ⟨baseEntry, hash⟩

def REWRITE_BATCH_SIZE : Nat := 500

/-- Rewrite one batch; `first` is the first entry rewritten so far. -/
def rewriteBatch : List StoredAuditEntry → JsText → Option StoredAuditEntry →
    AuditProgram κ (JsText × Option StoredAuditEntry)
  | [], prevHash, first => .done (prevHash, first)
  | entry :: rest, prevHash, first =>
    match withRehashedChain js entry prevHash with
    | .error reason => .fail (.payload reason)
    | .ok rewritten =>
      (perform (.replaceEntry rewritten) id).bind fun _ =>
        rewriteBatch rest rewritten.hash (first.orElse fun _ => some rewritten)

/-- The rewrite loop.  Each turn but the last rewrites a row, so there are fewer
turns than rows counted before. -/
def rewriteChain : Nat → Int → JsText → Option StoredAuditEntry →
    AuditProgram κ (Option StoredAuditEntry)
  | 0, _, _, first => .done first
  | turns + 1, fromSeq, prevHash, first =>
    .call (.iterate (some fromSeq)) fun entries =>
      let batch := List.take REWRITE_BATCH_SIZE entries
      match batch.getLast? with
      | none => .done first
      | some last =>
        (rewriteBatch js batch prevHash first).bind fun reached =>
          rewriteChain turns (last.seq + 1) reached.1 reached.2

def pruneStatements (beforeMs retain : Rat) : AuditProgram κ PruneAuditResult :=
  .call .count fun total =>
    let total : Nat := total
    if total = 0 then .done ⟨0, none⟩
    else
      .call (.iterate none) fun entries =>
        match lastQualifying beforeMs total retain entries 0 none with
        | none => .done ⟨0, none⟩
        | some lastQualifyingSeq =>
          .call (.countUpTo lastQualifyingSeq) fun removed =>
            .call (.deleteUpTo lastQualifyingSeq) fun _ =>
              (rewriteChain js (total + 1) 0 GENESIS_PREV_HASH none).bind
                fun first =>
                  .done ⟨removed, first.map fun entry => entry.seq⟩

def pruneAudit (call : κ) (options : PruneAuditOptions) :
    AuditProgram κ PruneAuditResult :=
  match options.before with
  | none => .fail .beforeNotFinite
  | some beforeMs =>
    transact (.prune call)
      (pruneStatements js beforeMs (max 1 (options.retain.getD 1)))

/-- The calls on one handle: what each party runs. -/
def handleCalls (appends : List (AuditEntryInput × Rat))
    (prunes : κ → PruneAuditOptions) : Party κ → AuditProgram κ Unit
  | .appends => writeChain js appends
  | .prune call =>
    ((pruneAudit js call (prunes call)).bind fun result =>
      .emit (.pruned result) (.done ())).catchFail fun failure =>
        .emit (.pruneRejected failure) (.done ())

end Calls

end Graphorin.Audit
