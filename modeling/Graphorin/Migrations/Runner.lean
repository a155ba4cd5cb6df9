import Graphorin.Audit.Canonical
import Graphorin.Lib.Results

namespace Graphorin.Migrations

open Lib Audit

/-! `runMigrations` as the statements and transactions it issues, and any number of
processes that run it on one database. -/

/-- `σ` is everything in the database but the bookkeeping table, `ε` what a statement can
fail with. -/
structure Migration (σ ε : Type) where
  version : String
  name : String
  sql : JsText
  owner : String := ""
  preflight : Option (σ → Except ε σ) := none

structure AppliedMigration where
  version : String
  name : String
  appliedAt : Int
  checksum : String
  deriving DecidableEq

/-- `schema_migrations` may not be there yet; its rows stand in the order they came. -/
structure Database (σ : Type) where
  table : Option (List AppliedMigration)
  contents : σ

def Database.rows {σ : Type} (db : Database σ) : List AppliedMigration := db.table.getD []

inductive RunError (ε : Type)
  /-- A migration was modified after being applied. -/
  | modified (version name : String)
  | statement (error : ε)

/-- FNV-1a over the code units. -/
def computeChecksum (sql : JsText) : String :=
  let hash : UInt32 := sql.foldl (fun hash unit => (hash ^^^ unit.toUInt32) * 0x01000193)
    0x811c9dc5
  let digits := Nat.toDigits 16 hash.toNat
  String.ofList (List.replicate (8 - digits.length) '0' ++ digits)

def ensureSchemaMigrationsTable {σ : Type} (db : Database σ) : Database σ :=
  { db with table := some db.rows }

/-- `localeCompare` of versions, and what the database does with a text of statements. -/
structure Platform (σ ε : Type) where
  localeCompare : String → String → Ordering
  execMany : JsText → σ → Except ε σ

section Run

variable {σ ε : Type} (platform : Platform σ ε)

/-- Not past `upTo`. -/
def within (upTo : Option String) (migration : Migration σ ε) : Bool :=
  match upTo with
  | some upTo => platform.localeCompare migration.version upTo != .gt
  | none => true

/-- The migrations that are not applied; one applied in another text stops the run. -/
def planPending (upTo : Option String) (applied : List AppliedMigration) :
    List (Migration σ ε) → Except (RunError ε) (List (Migration σ ε))
  | [] => .ok []
  | migration :: rest =>
    if within platform upTo migration then
      match applied.find? fun row => row.version == migration.version with
      | none => (planPending upTo applied rest).map (migration :: ·)
      | some prior =>
        if prior.checksum = computeChecksum migration.sql then
          planPending upTo applied rest
        else .error (.modified migration.version migration.name)
    else planPending upTo applied rest

/-- The data repair, then the statements. -/
def takeEffect (migration : Migration σ ε) (contents : σ) : Except ε σ :=
  (match migration.preflight with
    | some preflight => preflight contents
    | none => .ok contents).bind (platform.execMany migration.sql)

def record (migration : Migration σ ε) (now : Int) : AppliedMigration :=
  { version := migration.version
    name := migration.name
    appliedAt := now
    checksum := computeChecksum migration.sql }

/-- One transaction; the flag says whether the migration was there already. -/
def applyMigration (migration : Migration σ ε) (now : Int) (db : Database σ) :
    Except ε (Database σ × Bool) :=
  if db.rows.any fun row => row.version == migration.version then .ok (db, true)
  else
    (takeEffect platform migration db.contents).map fun contents =>
      ({ table := some (db.rows ++ [record migration now]), contents }, false)

inductive Stage (σ ε : Type)
  | begun
  | reading
  | applying (pending : List (Migration σ ε)) (newlyApplied : List AppliedMigration)
  | returned (newlyApplied : List AppliedMigration)
  | threw (error : RunError ε)
  | crashed

def Stage.finished {σ ε : Type} : Stage σ ε → Bool
  | .begun | .reading | .applying _ _ => false
  | .returned _ | .threw _ | .crashed => true

/-- `steps` is what the run's own steps did to the database, each as it was before and
after. -/
structure Run (σ ε : Type) where
  migrations : List (Migration σ ε)
  upTo : Option String := none
  stage : Stage σ ε := .begun
  steps : List (Database σ × Database σ) := []

def Run.moved {σ ε : Type} (run : Run σ ε) (stage : Stage σ ε) (before after : Database σ) :
    Run σ ε :=
  { run with stage, steps := run.steps ++ [(before, after)] }

/-- The next statement or transaction of a run; `none` where it has none. -/
def proceed (now : Int) (run : Run σ ε) (db : Database σ) :
    Option (Run σ ε × Database σ) :=
  match run.stage with
  | .begun =>
    let db' := ensureSchemaMigrationsTable db
    some (run.moved .reading db db', db')
  | .reading =>
    match planPending platform run.upTo db.rows run.migrations with
    | .error error => some (run.moved (.threw error) db db, db)
    | .ok pending => some (run.moved (.applying pending []) db db, db)
  | .applying [] newlyApplied => some (run.moved (.returned newlyApplied) db db, db)
  | .applying (migration :: pending) newlyApplied =>
    match applyMigration platform migration now db with
    | .error error => some (run.moved (.threw (.statement error)) db db, db)
    | .ok (db', skipped) =>
      let newlyApplied' :=
        if skipped then newlyApplied else newlyApplied ++ [record migration now]
      some (run.moved (.applying pending newlyApplied') db db', db')
  | .returned _ => none
  | .threw _ => none
  | .crashed => none

structure World (σ ε : Type) where
  db : Database σ
  runs : List (Run σ ε)

inductive Action (σ ε : Type)
  | start (migrations : List (Migration σ ε)) (upTo : Option String)
  | proceed (index : Nat) (now : Int)
  | crash (index : Nat)

def World.step (world : World σ ε) : Action σ ε → Option (World σ ε)
  | .start migrations upTo =>
    some { world with runs := world.runs ++ [{ migrations, upTo }] }
  | .proceed index now =>
    world.runs[index]?.bind fun run =>
      (Migrations.proceed platform now run world.db).map fun (run', db) =>
        { db, runs := world.runs.set index run' }
  | .crash index =>
    world.runs[index]?.bind fun run =>
      if run.stage.finished then none
      else some { world with runs := world.runs.set index { run with stage := .crashed } }

def Action.shares (common : List (Migration σ ε)) : Action σ ε → Prop
  | .start migrations _ => migrations <+: common
  | _ => True

inductive Reachable (common : List (Migration σ ε)) (initial : Database σ) :
    World σ ε → Prop
  | start : Reachable common initial { db := initial, runs := [] }
  | step {world world' : World σ ε} {action : Action σ ε} :
      Reachable common initial world → action.shares common →
        world.step platform action = some world' → Reachable common initial world'

end Run

end Graphorin.Migrations
