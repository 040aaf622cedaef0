import Mathlib.Logic.Function.Basic
import PgJobQ.Library.Runs
import PgJobQ.Migrations.Files
import PgJobQ.Schema.Types

/-!
# Migrating up and the startup gate

`migrateUp` reads the recorded migrations once.  It throws if a file has changed
since it was applied, and otherwise applies what is missing, each migration in a
transaction of its own together with its bookkeeping row.  Any number of calls,
of any builds, take their steps in any order.  An uncommitted bookkeeping row
keeps its key: a second insert of the version waits until the first transaction
has ended, and is refused when it has committed.

`assertSchemaCurrent` compares the newest recorded version with the latest of
the build.  The table is created by whoever reads it first, and is empty then.
-/

namespace PgJobQ

open Runs

structure AppliedMigration where
  version : Nat
  name : String
  checksum : String
  appliedAt : Timestamp
  deriving DecidableEq, Repr

def Migration.record (migration : Migration) (now : Timestamp) : AppliedMigration where
  version := migration.version
  name := migration.name
  checksum := migration.checksum
  appliedAt := now

/-- The versions that are recorded. -/
def recordedVersions (recorded : List AppliedMigration) : List Nat :=
  recorded.map AppliedMigration.version

/-- The first migration of the build whose recorded checksum is another. -/
def checkChecksums (recorded : List AppliedMigration) : List Migration -> Except MigrationError Unit
  | [] => .ok ()
  | migration :: rest =>
      match recorded.find? (fun previous => previous.version == migration.version) with
      | none => checkChecksums recorded rest
      | some previous =>
          if previous.checksum ≠ migration.checksum then
            .error ⟨"Migration " ++ toString migration.version ++ " (" ++ migration.filename ++
              ") has changed since it was applied (recorded " ++ previous.checksum ++ ", found " ++
              migration.checksum ++ "). Migrations are forward-only: " ++
              "add a new migration instead of editing this one."⟩
          else checkChecksums recorded rest

/-- The migrations of the build that are not recorded. -/
def pendingMigrations (build : Build) (recorded : List AppliedMigration) : List Migration :=
  build.migrations.filter (fun migration => !(recordedVersions recorded).contains migration.version)

structure MigrateResult where
  applied : List Nat
  alreadyCurrent : Bool
  currentVersion : Nat
  deriving DecidableEq, Repr

/-- Where a call of `migrateUp` stands.  From `executed` on its transaction is
open, with the SQL of the first migration run, and from `booked` on with the
bookkeeping row inserted. -/
inductive MigratePhase where
  | reading
  | applying (pending : List Migration) (applied : List Nat)
  | executed (migration : Migration) (rest : List Migration) (applied : List Nat)
  | booked (migration : Migration) (rest : List Migration) (applied : List Nat)
  | returned (result : MigrateResult)
  | threw (error : MigrationError)
  | failed
  deriving DecidableEq, Repr

structure MigrateCall where
  build : Build
  phase : MigratePhase

/-- The recorded migrations, the migrations whose SQL has committed, the
versions of uncommitted bookkeeping rows, and the calls under way. -/
structure MigrationSystem where
  recorded : List AppliedMigration
  committed : List Migration
  uncommitted : List Nat
  calls : Nat -> Option MigrateCall

/-- A step of a call.  `commit` may succeed without an answer, and a call may
fail or stop at any point. -/
inductive MigrationLabel where
  | call (index : Nat) (build : Build)
  | read (index : Nat)
  | execute (index : Nat)
  | book (index : Nat)
  | commit (index : Nat) (now : Timestamp) (answered : Bool)
  | fail (index : Nat)

/-- The call after its read: the checksums are compared and the pending
migrations collected. -/
def phaseAfterRead (build : Build) (recorded : List AppliedMigration) : MigratePhase :=
  match checkChecksums recorded build.migrations with
  | .error error => .threw error
  | .ok () =>
      match pendingMigrations build recorded with
      | [] => .returned ⟨[], true, latestVersion build⟩
      | migration :: rest => .applying (migration :: rest) []

/-- The call after a transaction. -/
def phaseAfterCommit (build : Build) (applied : List Nat) : List Migration -> MigratePhase
  | [] => .returned ⟨applied, false, latestVersion build⟩
  | migration :: rest => .applying (migration :: rest) applied

namespace MigrationSystem

/-- The column `version` is an `integer`. -/
def maxVersion : Nat := 2147483647

def empty : MigrationSystem := ⟨[], [], [], fun _ => none⟩

def put (system : MigrationSystem) (index : Nat) (build : Build) (phase : MigratePhase) :
    MigrationSystem :=
  { system with calls := Function.update system.calls index (some ⟨build, phase⟩) }

/-- Insert the bookkeeping row: it is refused, waits, or holds its key. -/
def book (system : MigrationSystem) (index : Nat) (build : Build) (migration : Migration)
    (rest : List Migration) (applied : List Nat) : MigrationSystem :=
  if maxVersion < migration.version ∨ migration.version ∈ recordedVersions system.recorded then
    system.put index build .failed
  else if migration.version ∈ system.uncommitted then system
  else { system with uncommitted := migration.version :: system.uncommitted }.put index build
    (.booked migration rest applied)

/-- Release the key of the bookkeeping row. -/
def release (system : MigrationSystem) (migration : Migration) : MigrationSystem :=
  { system with uncommitted := system.uncommitted.erase migration.version }

/-- Make the SQL and the bookkeeping row visible, both at once. -/
def publish (system : MigrationSystem) (migration : Migration) (now : Timestamp) :
    MigrationSystem :=
  { system with
    recorded := system.recorded ++ [migration.record now]
    committed := system.committed ++ [migration] }

def step (system : MigrationSystem) : MigrationLabel -> MigrationSystem
  | .call index build =>
      match system.calls index with
      | none => system.put index build .reading
      | some _ => system
  | .read index =>
      match system.calls index with
      | some ⟨build, .reading⟩ => system.put index build (phaseAfterRead build system.recorded)
      | _ => system
  | .execute index =>
      match system.calls index with
      | some ⟨build, .applying (migration :: rest) applied⟩ =>
          system.put index build (.executed migration rest applied)
      | _ => system
  | .book index =>
      match system.calls index with
      | some ⟨build, .executed migration rest applied⟩ =>
          system.book index build migration rest applied
      | _ => system
  | .commit index now answered =>
      match system.calls index with
      | some ⟨build, .booked migration rest applied⟩ =>
          ((system.publish migration now).release migration).put index build
            (if answered then phaseAfterCommit build (applied ++ [migration.version]) rest
              else .failed)
      | _ => system
  | .fail index =>
      match system.calls index with
      | some ⟨build, .booked migration _ _⟩ => (system.release migration).put index build .failed
      | some ⟨_, .returned _⟩ => system
      | some ⟨_, .threw _⟩ => system
      | some ⟨build, _⟩ => system.put index build .failed
      | none => system

end MigrationSystem

/-! ## The startup gate -/

/-- `Math.max` of the recorded versions, or 0. -/
def newestRecorded (recorded : List AppliedMigration) : Nat :=
  (recordedVersions recorded).foldr max 0

/-- The gate, once the files are loaded.  Without rows the read has failed. -/
def checkVersion (build : Build) : Option (List AppliedMigration) -> Except MigrationError Nat
  | none => .error ⟨"Cannot read migration state. Has the database been initialized? " ++
      "Run: npm run migrate:up"⟩
  | some recorded =>
      if newestRecorded recorded ≠ latestVersion build then
        let missing := ", ".intercalate ((pendingMigrations build recorded).map Migration.filename)
        .error ⟨"Database schema is at version " ++ toString (newestRecorded recorded) ++
          ", expected " ++ toString (latestVersion build) ++ ". Refusing to serve. Pending: " ++
          (if missing = "" then "(none — database is ahead of this build)" else missing) ++
          ". Run: npm run migrate:up"⟩
      else .ok (newestRecorded recorded)

def assertSchemaCurrent (checksum : String -> String) (dir : MigrationsDir)
    (recorded : Option (List AppliedMigration)) : Except MigrationError Nat :=
  match loadMigrations checksum dir with
  | .error error => .error error
  | .ok build => checkVersion build recorded

end PgJobQ
