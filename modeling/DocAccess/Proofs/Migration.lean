import DocAccess.Proofs.Failure
import DocAccess.Proofs.Tables.Simulation
import DocAccess.Proofs.Tables.Versions

/-!
# Migrating and opening again

A migrated database records its version, and no operation touches the record. So a store on a
file can be closed and opened again at any time, and nobody notices. A database with a record of
a later version is left alone, and one without a record is migrated whole or not at all.
-/

set_option autoImplicit false

namespace DocAccess

open Relational (Cell Database Table)

namespace Migration

variable {database after : Database} {clock : Clock}

private theorem recordedVersion_congr
    (same : after.table? Schema.migrations.name = database.table? Schema.migrations.name) :
    recordedVersion after = recordedVersion database := by
  simp only [recordedVersion, versions, Database.table, same]

theorem ensureTable_of_versions {cells : List Cell} (recorded : versions database = .ok cells) :
    database.ensureTable Schema.migrations = .ok database := by
  unfold versions Database.table at recorded
  rw [Database.ensureTable]
  cases found : database.table? Schema.migrations.name with
  | none =>
      rw [found] at recorded
      cases recorded
  | some table => rfl

theorem migrate_of_current (current : recordedVersion database = .ok currentVersion)
    (clock : Clock) : migrate clock database = (.ok (), database) := by
  have recorded : ∃ cells, versions database = .ok cells := by
    unfold recordedVersion at current
    cases recorded : versions database with
    | error error =>
        rw [recorded] at current
        cases current
    | ok cells => exact ⟨cells, rfl⟩
  obtain ⟨cells, recorded⟩ := recorded
  rw [migrate, ensureTable_of_versions recorded]
  simp only [current]
  rfl

theorem migrate_of_newer {cells : List Cell} {version : Int}
    (recorded : versions database = .ok cells) (member : .integer version ∈ cells)
    (newer : (currentVersion : Int) < version) (clock : Clock) :
    ∃ failure, migrate clock database = (.error failure, database) ∧
      failure.kind = .repository := by
  rw [migrate, ensureTable_of_versions recorded]
  simp only [recordedVersion, recorded]
  cases greatest : Cell.greatest? cells with
  | none =>
      rw [Cell.greatest?_eq_none_iff.1 greatest] at member
      cases member
  | some found =>
      have above := Cell.not_before_of_greatest? greatest member
      cases found with
      | integer last =>
          rw [Cell.before_integer, decide_eq_false_iff_not] at above
          by_cases readable : 0 ≤ last ∧ last ≤ maxVersion
          · have later : currentVersion < last.toNat := by omega
            simp only [readable, and_self, if_true, later]
            exact ⟨_, rfl, rfl⟩
          · simp only [readable, if_false]
            exact ⟨_, rfl, rfl⟩
      | _ => exact ⟨_, rfl, rfl⟩

/-! ## A first migration -/

theorem create_eq_ok (done : Schema.create database = .ok after) :
    after.indexes = database.indexes ++ Schema.indexes ∧
      (∀ schema ∈ [Schema.documents, Schema.permissions, Schema.guests],
        after.table? schema.name = some { schema := schema }) ∧
      ∀ name table, database.table? name = some table → after.table? name = some table := by
  obtain ⟨first, documents, done⟩ := except_bind_eq_ok_iff.1 done
  obtain ⟨second, permissions, done⟩ := except_bind_eq_ok_iff.1 done
  obtain ⟨third, guests, done⟩ := except_bind_eq_ok_iff.1 done
  have indexed := Database.createIndexes_eq_ok done
  have same (name : String) : after.table? name = third.table? name := by
    rw [indexed]
    rfl
  refine ⟨?_, ?_, ?_⟩
  · obtain ⟨-, rfl⟩ := Database.createTable_eq_ok documents
    obtain ⟨-, rfl⟩ := Database.createTable_eq_ok permissions
    obtain ⟨-, rfl⟩ := Database.createTable_eq_ok guests
    rw [indexed]
  · intro schema member
    rw [same]
    simp only [List.mem_cons, List.not_mem_nil, or_false] at member
    rcases member with rfl | rfl | rfl
    · apply Database.table?_kept guests
      apply Database.table?_kept permissions
      exact Database.table?_created documents
    · apply Database.table?_kept guests
      exact Database.table?_created permissions
    · exact Database.table?_created guests
  · intro name table found
    rw [same]
    apply Database.table?_kept guests
    apply Database.table?_kept permissions
    exact Database.table?_kept documents found

/-- How the migration of a database without a record of versions can end: with all tables and
indexes and one record, or with none of them. A table for the record may be left, without rows. -/
inductive FirstEnds (clock : Clock) (database : Database) : Outcome Unit → Database → Prop where
  | whole {after : Database} (indexes : after.indexes = database.indexes ++ Schema.indexes)
      (tables : ∀ schema ∈ [Schema.documents, Schema.permissions, Schema.guests],
        after.table? schema.name = some { schema := schema })
      (recorded : ∃ cell, IsCurrent cell ∧ versions after = .ok [cell]) :
      FirstEnds clock database (.ok ()) after
  | nothing {outcome : Outcome Unit} {after : Database}
      (fails : (∃ failure, outcome = .error failure ∧ failure.kind = .repository) ∨
        outcome = .aborted ∧ clock.now? = none)
      (left : after = database ∨ database.table? Schema.migrations.name = none ∧
        after = { database with tables := database.tables ++ [{ schema := Schema.migrations }] }) :
      FirstEnds clock database outcome after

theorem ensureTable_eq_ok (done : database.ensureTable Schema.migrations = .ok after) :
    after = database ∨ database.table? Schema.migrations.name = none ∧
      after = { database with tables := database.tables ++ [{ schema := Schema.migrations }] } := by
  unfold Database.ensureTable at done
  split at done
  · cases done
    exact .inl rfl
  · next absent =>
    obtain ⟨-, rfl⟩ := Database.createTable_eq_ok done
    exact .inr ⟨by simpa using absent, rfl⟩

private theorem unrecorded_of_ensureTable
    (done : database.ensureTable Schema.migrations = .ok after)
    (unrecorded : ∀ cells, versions database = .ok cells → cells = []) {cells : List Cell}
    (recorded : versions after = .ok cells) : cells = [] := by
  unfold Database.ensureTable at done
  split at done
  · cases done
    exact unrecorded cells recorded
  · have placed : Schema.migrations.position? "version" = some 0 := by decide
    rw [versions_of_table? (Database.table?_created done) placed] at recorded
    cases recorded
    rfl

private theorem recordedVersion_of_unrecorded {version : Nat}
    (unrecorded : ∀ cells, versions database = .ok cells → cells = [])
    (read : recordedVersion database = .ok version) :
    version = 0 ∧ versions database = .ok [] := by
  unfold recordedVersion at read
  cases recorded : versions database with
  | error error =>
      rw [recorded] at read
      cases read
  | ok cells =>
      rw [recorded, unrecorded cells recorded] at read
      cases read
      exact ⟨rfl, congrArg Except.ok (unrecorded cells recorded)⟩

private theorem apply_cases (clock : Clock) (database : Database) :
    (∃ created now after, Schema.create database = .ok created ∧
        created.insertNamed {} Schema.migrations.name (versionCells currentVersion now) =
          .ok after ∧ apply clock database = .ok after) ∨
      (∃ failure, apply clock database = .error failure ∧ failure.kind = .repository) ∨
      apply clock database = .aborted ∧ clock.now? = none := by
  rw [apply]
  cases made : Schema.create database with
  | error error => exact .inr (.inl ⟨_, rfl, rfl⟩)
  | ok created =>
      cases read : clock.now? with
      | none => exact .inr (.inr ⟨rfl, rfl⟩)
      | some now =>
          cases inserted : created.insertNamed {} Schema.migrations.name
              (versionCells currentVersion now) with
          | error error =>
              refine .inr (.inl ⟨.ofDatabase "record migration" error, ?_, rfl⟩)
              simp only [inserted]
          | ok after => exact .inl ⟨created, now, after, rfl, inserted, by simp only [inserted]⟩

private theorem FirstEnds.of_apply {started : Database} (unrecorded : versions started = .ok [])
    (left : started = database ∨ database.table? Schema.migrations.name = none ∧
      started = { database with tables := database.tables ++ [{ schema := Schema.migrations }] }) :
    let (outcome, after) := match apply clock started with
      | .ok migrated => (.ok (), migrated)
      | .error failure => (.error failure, started)
      | .aborted => (.aborted, started)
    FirstEnds clock database outcome after := by
  have indexes : started.indexes = database.indexes := by
    rcases left with rfl | ⟨-, rfl⟩
    · rfl
    · rfl
  rcases apply_cases clock started with
    ⟨created, now, after, made, inserted, applied⟩ | ⟨failure, failed, kind⟩ | ⟨broken, unread⟩
  · obtain ⟨added, tables, kept⟩ := create_eq_ok made
    obtain ⟨table, position, found, placed, rows⟩ := versions_eq_ok unrecorded
    have unversioned : versions created = .ok [] := by
      rw [versions_of_table? (kept _ _ found) placed, ← rows]
    have writes := Database.writes_insertNamed inserted
    rw [applied]
    refine .whole ?_ ?_ (insertNamed_version unversioned inserted)
    · rw [writes.indexes_eq, added, indexes]
    · intro schema member
      have apart : Relational.sameName Schema.migrations.name schema.name = false := by
        simp only [List.mem_cons, List.not_mem_nil, or_false] at member
        rcases member with rfl | rfl | rfl
        · decide
        · decide
        · decide
      rw [writes.table?_eq apart, tables schema member]
  · rw [failed]
    exact .nothing (.inl ⟨failure, rfl, kind⟩) left
  · rw [broken]
    exact .nothing (.inr ⟨rfl, unread⟩) left

private theorem firstEnds_of_unrecorded
    (unrecorded : ∀ cells, versions database = .ok cells → cells = []) (clock : Clock) :
    FirstEnds clock database (migrate clock database).1 (migrate clock database).2 := by
  rw [migrate]
  cases ensured : database.ensureTable Schema.migrations with
  | error error => exact .nothing (.inl ⟨_, rfl, rfl⟩) (.inl rfl)
  | ok started =>
      have left := ensureTable_eq_ok ensured
      dsimp only
      cases read : recordedVersion started with
      | error error => exact .nothing (.inl ⟨_, rfl, rfl⟩) left
      | ok version =>
          obtain ⟨rfl, none⟩ := recordedVersion_of_unrecorded
            (fun _ => unrecorded_of_ensureTable ensured unrecorded) read
          dsimp only
          rw [if_neg (by decide), if_neg (by decide)]
          exact FirstEnds.of_apply none left

end Migration

/-! ## Opening again -/

/-- What happens to a store on a file, which is closed before it is opened again. -/
inductive FileStep where
  | reopened (clock : Clock)
  | asked (cancellation : Cancellation) (asked : Asked)

def FileStep.isAsked : FileStep → Bool
  | .reopened _ => false
  | .asked _ _ => true

namespace TableStore

/-- What a store on a file answers, and the store in the end, if it can be opened every time. -/
def serve : TableStore → List FileStep → Option (List Answered × TableStore)
  | store, [] => some ([], store)
  | store, .reopened clock :: later =>
      match TableStore.open clock store.database with
      | (.ok (), reopened) => serve reopened later
      | _ => none
  | store, .asked cancellation asked :: later =>
      let (outcome, after) := store.stepUnder cancellation asked.moment asked.operation
      (serve after later).map fun (answers, last) => (⟨asked.Answer, outcome⟩ :: answers, last)

theorem serve_asked (store : TableStore) (cancellation : Cancellation) (asked : Asked)
    (later : List FileStep) : store.serve (.asked cancellation asked :: later) =
      let (outcome, after) := store.stepUnder cancellation asked.moment asked.operation
      (after.serve later).map fun served => (⟨asked.Answer, outcome⟩ :: served.1, served.2) := rfl

/-- A store that is as opening it would leave it. -/
structure IsSettled (store : TableStore) : Prop where
  lock : store.writeLocked = false
  current : Migration.recordedVersion store.database = .ok Migration.currentVersion

private theorem foreign_migrations : Schema.Foreign Schema.migrations.name := by
  constructor
  · decide
  · decide
  · decide

private theorem isSettled_open {clock : Clock} {store : TableStore}
    (opened : TableStore.open clock .empty = (.ok (), store)) : store.IsSettled := by
  cases read : clock.now? with
  | none =>
      rw [TableStore.open, migrate_empty, read] at opened
      cases opened
  | some now =>
      cases (open_empty read).symm.trans opened
      refine ⟨rfl, ?_⟩
      have recorded : Migration.versions (newTables now).database =
          .ok [.integer Migration.currentVersion] := by
        have placed : (newTables now).versions.schema.position? "version" = some 0 := by
          rw [(newTables now).versions_schema]
          decide
        rw [Migration.versions_of_table? (newTables now).table?_versions placed]
        obtain ⟨others, beside, none⟩ := Table.rows_put { schema := Schema.migrations }
          ⟨1, Migration.versionRow Migration.currentVersion now⟩
        obtain rfl : others = [] := List.subset_nil.1 none
        have rows : (newTables now).versions.rows =
          [Migration.versionRow Migration.currentVersion now] := List.perm_singleton.1 beside
        rw [rows]
        rfl
      rw [Migration.recordedVersion, recorded]
      rfl

namespace IsSettled

variable {store : TableStore}

theorem reopen (settled : store.IsSettled) (clock : Clock) :
    TableStore.open clock store.database = (.ok (), store) := by
  obtain ⟨database, writeLocked⟩ := store
  obtain ⟨rfl, current⟩ := settled
  rw [TableStore.open, Migration.migrate_of_current current]

theorem stepUnder (settled : store.IsSettled) (cancellation : Cancellation) (asked : Asked) :
    (store.stepUnder cancellation asked.moment asked.operation).2.IsSettled := by
  have keeps := keeps_stepUnder foreign_migrations store cancellation asked.moment asked.operation
  constructor
  · exact keeps.lock.trans settled.lock
  · exact (Migration.recordedVersion_congr keeps.table).trans settled.current

private theorem serve_eq (settled : store.IsSettled) (steps : List FileStep) :
    ∃ answers last, last.IsSettled ∧ store.serve steps = some (answers, last) ∧
      store.serve (steps.filter FileStep.isAsked) = some (answers, last) := by
  induction steps generalizing store with
  | nil => exact ⟨[], store, settled, rfl, rfl⟩
  | cons step later ih =>
      cases step with
      | reopened clock =>
          obtain ⟨answers, last, settled', served, plain⟩ := ih settled
          refine ⟨answers, last, settled', ?_, plain⟩
          rw [serve, settled.reopen clock]
          exact served
      | asked cancellation asked =>
          obtain ⟨answers, last, settled', served, plain⟩ :=
            ih (settled.stepUnder cancellation asked)
          cases ends : store.stepUnder cancellation asked.moment asked.operation with
          | mk outcome after =>
              rw [ends] at served plain
              refine ⟨⟨asked.Answer, outcome⟩ :: answers, last, settled', ?_, ?_⟩
              · simp only [serve_asked, ends, served, Option.map_some]
              · rw [List.filter_cons_of_pos rfl]
                simp only [serve_asked, ends, plain, Option.map_some]

end IsSettled
end TableStore

/-- A store on a new file can be closed and opened again at any points of any run, at any times:
each opening succeeds and leaves it as it is, and the answers are those of the run without. A
database with the record of a version beyond the current one is refused and left as it is. One
without a record of any is migrated whole or, with a failure, not at all. -/
theorem migration_safe :
    (∀ (clock : Clock) (store : TableStore), TableStore.open clock .empty = (.ok (), store) →
      ∀ steps, ∃ answers last, store.serve steps = some (answers, last) ∧
        store.serve (steps.filter FileStep.isAsked) = some (answers, last) ∧
        ∀ later, Migration.migrate later last.database = (.ok (), last.database)) ∧
    (∀ (clock : Clock) (database : Database) (cells : List Cell) (version : Int),
      Migration.versions database = .ok cells → .integer version ∈ cells →
      (Migration.currentVersion : Int) < version →
      ∃ failure, Migration.migrate clock database = (.error failure, database) ∧
        failure.kind = .repository) ∧
    ∀ (clock : Clock) (database : Database),
      (∀ cells, Migration.versions database = .ok cells → cells = []) →
      Migration.FirstEnds clock database (Migration.migrate clock database).1
        (Migration.migrate clock database).2 := by
  refine ⟨?_, ?_, ?_⟩
  · intro clock store opened steps
    obtain ⟨answers, last, settled, served, plain⟩ :=
      (TableStore.isSettled_open opened).serve_eq steps
    exact ⟨answers, last, served, plain, Migration.migrate_of_current settled.current⟩
  · intro clock database cells version recorded member newer
    exact Migration.migrate_of_newer recorded member newer clock
  · intro clock database unrecorded
    exact Migration.firstEnds_of_unrecorded unrecorded clock

/-- A store that is opened again while a deletion is given up, a database that is too new, and
one where the last index of a first migration finds its name taken. -/
theorem migration_safe_at_conflict :
    let fresh : TableStore := ⟨(TableStore.newTables default).database, false⟩
    let steps : List FileStep := [
      .asked .never ⟨DocumentId, .ofNumbers 1 1, .createDocument ⟨.ofNat 7⟩ {}⟩,
      .reopened ⟨2, 0⟩,
      .asked ⟨some 4⟩ ⟨Unit, .ofNumbers 3 3, .deleteDocument ⟨.ofNat 1⟩⟩,
      .reopened ⟨4, 0⟩, .reopened ⟨-1, 0⟩,
      .asked .never ⟨Document, .ofNumbers 5 5, .getDocument ⟨.ofNat 1⟩⟩]
    let newer : Database := ⟨[Table.put { schema := Schema.migrations }
      ⟨2, [.integer 2, .integer 0]⟩], []⟩
    let taken : Database := ⟨[{ schema := { name := "idx_guests_document", columns := [] } }], []⟩
    (∃ answers last, fresh.serve steps = some (answers, last) ∧
      fresh.serve (steps.filter FileStep.isAsked) = some (answers, last)) ∧
    (∃ failure, Migration.migrate ⟨0, 0⟩ newer = (.error failure, newer)) ∧
    ∃ failure, (Migration.migrate ⟨0, 0⟩ taken).1 = .error failure ∧
      (Migration.migrate ⟨0, 0⟩ taken).2.indexes = [] := by
  intro fresh steps newer taken
  obtain ⟨reopening, refusing, starting⟩ := migration_safe
  refine ⟨?_, ?_, ?_⟩
  · have opened : TableStore.open ⟨0, 0⟩ .empty = (.ok (), fresh) := TableStore.open_empty rfl
    obtain ⟨answers, last, served, plain, -⟩ := reopening ⟨0, 0⟩ fresh opened steps
    exact ⟨answers, last, served, plain⟩
  · have recorded : Migration.versions newer = .ok [.integer 2] := by decide +kernel
    obtain ⟨failure, refused, -⟩ := refusing ⟨0, 0⟩ newer _ 2 recorded
      (List.mem_singleton_self _) (by decide)
    exact ⟨failure, refused⟩
  · have unrecorded (cells : List Cell) (recorded : Migration.versions taken = .ok cells) :
        cells = [] := by
      have missing : (Migration.versions taken).toOption = none := by decide +kernel
      rw [recorded] at missing
      cases missing
    have fails : (Migration.migrate ⟨0, 0⟩ taken).1.errorKind? = some .repository := by
      decide +kernel
    have ends := starting ⟨0, 0⟩ taken unrecorded
    generalize Migration.migrate ⟨0, 0⟩ taken = ended at fails ends ⊢
    obtain ⟨outcome, after⟩ := ended
    cases ends with
    | whole indexes tables recorded => cases fails
    | nothing broken left =>
        rcases broken with ⟨failure, rfl, -⟩ | ⟨rfl, -⟩
        · refine ⟨failure, rfl, ?_⟩
          rcases left with rfl | ⟨-, rfl⟩
          · rfl
          · rfl
        · cases fails

end DocAccess
