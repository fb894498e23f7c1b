import DocAccess.Store.Error
import DocAccess.Store.Schema
import DocAccess.Time.Timestamp

/-!
# Migrations

A database records which versions of the definitions it has. Migrating brings it
to the current version or fails; a migration that fails leaves the record as it
was and none of the tables it was to make. A database that is newer than this
library is refused.
-/

set_option autoImplicit false

namespace DocAccess.Migration

open Relational (Cell Column Database DatabaseError Row)

/-- The version of the definitions that this library puts in place. -/
def currentVersion : Nat := 1

/-- The greatest version that can be told from others. -/
def maxVersion : Int := 4294967295

/-- The cells of all recorded versions. It is an error if the table of that name has no
versions. -/
def versions (database : Database) : Except DatabaseError (List Cell) :=
  match database.table Schema.migrations.name with
  | .error error => .error error
  | .ok table =>
      match table.schema.position? "version" with
      | none => .error (.rejected "no such column: version")
      | some position =>
          .ok ((table.rows.map fun row => row.cell position).filter fun cell => !cell.isNull)

/-- The greatest recorded version, zero if there is none. If it is no integer or outside
the range of versions, that is an error. -/
def recordedVersion (database : Database) : Except DatabaseError Nat :=
  match versions database with
  | .error error => .error error
  | .ok cells =>
      match Cell.greatest? cells with
      | none => .ok 0
      | some (.integer version) =>
          if 0 ≤ version ∧ version ≤ maxVersion then .ok version.toNat
          else .error (.integerOutOfRange 0 version)
      | some cell => .error (.columnClass 0 "MAX(version)" cell.cellClass)

/-- The record of a version. -/
def versionRow (version : Nat) (appliedAt : Timestamp) : Row :=
  [.integer version, .integer appliedAt.micros]

/-- The record of a version by the names of its columns, which a table of that name may
have in another order. -/
def versionCells (version : Nat) (appliedAt : Timestamp) : List (String × Cell) :=
  (Schema.migrations.columns.map Column.name).zip (versionRow version appliedAt)

/-- Puts the definitions in place and records their version, or does neither. -/
def apply (clock : Clock) (database : Database) : Outcome Database :=
  match Schema.create database with
  | .error error => .error (.ofDatabase "apply migration v1" error)
  | .ok created =>
      match clock.now? with
      | none => .aborted
      | some now =>
          match created.insertNamed {} Schema.migrations.name
              (versionCells currentVersion now) with
          | .error error => .error (.ofDatabase "record migration" error)
          | .ok recorded => .ok recorded

/-- The refusal of a database that is newer than this library. -/
def tooNew (version : Nat) : StoreError :=
  .repository "migrate" (.migration ("database schema version " ++ Numeral.text version ++
    " is newer than supported version " ++ Numeral.text currentVersion))

/-- Brings a database to the current version. -/
def migrate (clock : Clock) (database : Database) : Outcome Unit × Database :=
  match database.ensureTable Schema.migrations with
  | .error error => (.error (.ofDatabase "create schema_migrations" error), database)
  | .ok database =>
      match recordedVersion database with
      | .error error => (.error (.ofDatabase "read schema version" error), database)
      | .ok version =>
          if currentVersion < version then (.error (tooNew version), database)
          else if version = currentVersion then (.ok (), database)
          else
            match apply clock database with
            | .ok migrated => (.ok (), migrated)
            | .error failure => (.error failure, database)
            | .aborted => (.aborted, database)

end DocAccess.Migration
