import DocAccess.Proofs.Tables.Mirror
import DocAccess.Store.Memory
import DocAccess.Store.Tables

/-!
# The tables behind a store in memory

A migrated database has four tables. When the rows of three of them are the values of the
maps of a store in memory, every statement of the store comes to a change of one map, or
to a failure that a look at the maps tells.
-/

set_option autoImplicit false

namespace DocAccess

namespace Relational

/-- A row that a table keeps as it is given, by its key. -/
structure TableSchema.Fits (schema : TableSchema) (row : Row) : Prop where
  kept : schema.columns.zipWith (fun column cell => column.affinity.apply cell) row = row
  sound : schema.fault? true row = none
  keyed : schema.isKey (schema.keyOf row) = true
  unnumbered : schema.numberColumn? = none

namespace Database

variable {database : Database} {name : String} {table : Table}

/-- Only the key and the references of a fitting row decide whether it can be added. -/
theorem insert_of_fits {schema : TableSchema} (found : database.table name = .ok table)
    (formed : table.schema = schema) (checkable : database.canCheck schema = true) {row : Row}
    (fits : schema.Fits row) :
    database.insert {} name row =
      if table.keyed.contains (schema.keyOf row) then
        .error (.duplicateKey schema.name schema.keyNames)
      else if (database.setTable (table.put ⟨table.nextNumber, row⟩)).refersWell schema row then
        .ok (database.setTable (table.put ⟨table.nextNumber, row⟩))
      else .error .danglingReference := by
  subst formed
  have prepared : table.prepare row .null = .ok ⟨table.nextNumber, row⟩ := by
    simp only [Table.prepare, fits.unnumbered, fits.kept]
    rfl
  simp only [insert, found, checkable, prepared, fits.sound, Table.hasHiddenNumber_nextNumber,
    Table.hasKey, fits.keyed]
  cases table.keyed.contains (table.schema.keyOf row) with
  | true => rfl
  | false =>
      cases (database.setTable (table.put ⟨table.nextNumber, row⟩)).refersWell table.schema row with
      | true => simp
      | false => simp

end Database
end Relational

open Relational (Cell Database DatabaseError Encoding Row Table)

/-! ## Records as rows -/

private theorem Id.toCell_injective {kind : IdKind} {a b : Id kind} (same : a.toCell = b.toCell) :
    a = b := by
  rcases a with ⟨⟨bytes, _⟩⟩
  rcases b with ⟨⟨bytes', _⟩⟩
  cases same
  rfl

theorem Id.toCell_inj {kind : IdKind} {a b : Id kind} : a.toCell = b.toCell ↔ a = b :=
  ⟨toCell_injective, congrArg toCell⟩

theorem Id.compare_toCell {kind : IdKind} (a b : Id kind) :
    compare a.toCell b.toCell = compare a b := by
  show ((compare a.uuid.bytes b.uuid.bytes).then .eq) = compare a.uuid.bytes b.uuid.bytes
  cases compare a.uuid.bytes b.uuid.bytes <;> rfl

/-- Documents by identifier. -/
def documentRows : Encoding DocumentId Document where
  cells id := [id.toCell]
  row := Document.toRow
  compare_cells a b := by
    rw [List.compare_eq_compareLex, List.compareLex_cons_cons, Id.compare_toCell]
    cases compare a b <;> rfl

/-- Permissions by recipient and document. -/
def permissionRows : Encoding PermissionKey Permission where
  cells key := [key.recipient.toCell, key.document.toCell]
  row := Permission.toRow
  compare_cells a b := by
    rw [List.compare_eq_compareLex, List.compareLex_cons_cons, List.compareLex_cons_cons,
      Id.compare_toCell, Id.compare_toCell]
    show _ = (compare a.recipient b.recipient).then (compare a.document b.document)
    cases compare a.recipient b.recipient <;> cases compare a.document b.document <;> rfl

/-- Guests by identifier. -/
def guestRows : Encoding GuestId Guest where
  cells id := [id.toCell]
  row := Guest.toRow
  compare_cells a b := by
    rw [List.compare_eq_compareLex, List.compareLex_cons_cons, Id.compare_toCell]
    cases compare a b <;> rfl

theorem Document.fits (document : Document) : Schema.documents.Fits document.toRow where
  kept := by
    rcases document with ⟨id, name, description, createdAt, lastModifiedAt⟩
    cases name <;> cases description <;> rfl
  sound := by
    rcases document with ⟨id, name, description, createdAt, lastModifiedAt⟩
    cases name <;> cases description <;> rfl
  keyed := rfl
  unnumbered := rfl

theorem Permission.fits (permission : Permission) : Schema.permissions.Fits permission.toRow where
  kept := rfl
  sound := by
    rcases permission with ⟨document, recipient, type, level, creator, createdAt, lastModifiedAt⟩
    cases type <;> cases level <;> rfl
  keyed := rfl
  unnumbered := rfl

theorem Guest.fits (guest : Guest) : Schema.guests.Fits guest.toRow where
  kept := rfl
  sound := rfl
  keyed := rfl
  unnumbered := rfl

theorem Document.setFields_toRow (document : Document) (fields : DocumentFields) (now : Timestamp) :
    Document.setFields fields now document.toRow =
      toRow { document.withFields fields with lastModifiedAt := now } := by
  rcases fields with ⟨name, description⟩
  cases name <;> cases description <;> rfl

theorem Permission.isHeldBy_toRow (permission : Permission) (type : RecipientType) :
    TableStore.isHeldBy type permission.toRow = decide (permission.recipientType = type) := by
  rcases permission with ⟨document, recipient, held, level, creator, createdAt, lastModifiedAt⟩
  cases held <;> cases type <;> rfl

theorem Permission.cell_of_reference {permission : Permission} {column : Relational.Column}
    {cell : Cell} (zipped : (column, cell) ∈ Schema.permissions.columns.zip permission.toRow)
    {target : String × String} (refers : column.references = some target) :
    cell = permission.documentId.toCell := by
  simp only [Schema.permissions, Permission.toRow, List.zip_cons_cons, List.zip_nil_left,
    List.mem_cons, List.not_mem_nil, or_false, Prod.mk.injEq] at zipped
  rcases zipped with ⟨rfl, -⟩ | ⟨rfl, -⟩ | ⟨-, rfl⟩ | ⟨rfl, -⟩ | ⟨rfl, -⟩ | ⟨rfl, -⟩ | ⟨rfl, -⟩
  case inr.inr.inl => rfl
  all_goals cases refers

theorem Guest.cell_of_reference {guest : Guest} {column : Relational.Column} {cell : Cell}
    (zipped : (column, cell) ∈ Schema.guests.columns.zip guest.toRow)
    {target : String × String} (refers : column.references = some target) :
    cell = guest.documentId.toCell := by
  simp only [Schema.guests, Guest.toRow, List.zip_cons_cons, List.zip_nil_left,
    List.mem_cons, List.not_mem_nil, or_false, Prod.mk.injEq] at zipped
  rcases zipped with ⟨rfl, -⟩ | ⟨-, rfl⟩ | ⟨rfl, -⟩ | ⟨rfl, -⟩
  case inr.inl => rfl
  all_goals cases refers

/-! ## The tables -/

/-- The tables of a migrated database, each in the form that the schema gives it. -/
structure StoreTables where
  versions : Table
  documents : Table
  permissions : Table
  guests : Table
  indexes : List (String × String)
  versions_schema : versions.schema = Schema.migrations
  documents_schema : documents.schema = Schema.documents
  permissions_schema : permissions.schema = Schema.permissions
  guests_schema : guests.schema = Schema.guests

namespace StoreTables

/-- The database that consists of the tables. -/
def database (tables : StoreTables) : Database :=
  ⟨[tables.versions, tables.documents, tables.permissions, tables.guests], tables.indexes⟩

variable (tables : StoreTables)

theorem table?_versions :
    tables.database.table? Schema.migrations.name = some tables.versions := by
  simp [Database.table?, database, tables.versions_schema, Relational.sameName_self]

theorem table?_documents : tables.database.table? "documents" = some tables.documents := by
  have versions : Relational.sameName "schema_migrations" "documents" = false := by decide
  simp [Database.table?, database, tables.versions_schema, tables.documents_schema,
    Schema.migrations, Schema.documents, versions, Relational.sameName_self]

theorem table?_permissions : tables.database.table? "permissions" = some tables.permissions := by
  have versions : Relational.sameName "schema_migrations" "permissions" = false := by decide
  have documents : Relational.sameName "documents" "permissions" = false := by decide
  simp [Database.table?, database, tables.versions_schema, tables.documents_schema,
    tables.permissions_schema, Schema.migrations, Schema.documents, Schema.permissions, versions,
    documents, Relational.sameName_self]

theorem table?_guests : tables.database.table? "guests" = some tables.guests := by
  have versions : Relational.sameName "schema_migrations" "guests" = false := by decide
  have documents : Relational.sameName "documents" "guests" = false := by decide
  have permissions : Relational.sameName "permissions" "guests" = false := by decide
  simp [Database.table?, database, tables.versions_schema, tables.documents_schema,
    tables.permissions_schema, tables.guests_schema, Schema.migrations, Schema.documents,
    Schema.permissions, Schema.guests, versions, documents, permissions, Relational.sameName_self]

theorem table_documents : tables.database.table "documents" = .ok tables.documents := by
  rw [Database.table, table?_documents]

theorem table_permissions : tables.database.table "permissions" = .ok tables.permissions := by
  rw [Database.table, table?_permissions]

theorem table_guests : tables.database.table "guests" = .ok tables.guests := by
  rw [Database.table, table?_guests]

theorem setTable_documents {changed : Table} (formed : changed.schema = Schema.documents) :
    tables.database.setTable changed =
      database { tables with documents := changed, documents_schema := formed } := by
  simp [Database.setTable, database, tables.versions_schema, tables.documents_schema,
    tables.permissions_schema, tables.guests_schema, formed, Schema.migrations, Schema.documents,
    Schema.permissions, Schema.guests]

theorem setTable_permissions {changed : Table} (formed : changed.schema = Schema.permissions) :
    tables.database.setTable changed =
      database { tables with permissions := changed, permissions_schema := formed } := by
  simp [Database.setTable, database, tables.versions_schema, tables.documents_schema,
    tables.permissions_schema, tables.guests_schema, formed, Schema.migrations, Schema.documents,
    Schema.permissions, Schema.guests]

theorem setTable_guests {changed : Table} (formed : changed.schema = Schema.guests) :
    tables.database.setTable changed =
      database { tables with guests := changed, guests_schema := formed } := by
  simp [Database.setTable, database, tables.versions_schema, tables.documents_schema,
    tables.permissions_schema, tables.guests_schema, formed, Schema.migrations, Schema.documents,
    Schema.permissions, Schema.guests]

/-! ## Insertions -/

theorem canCheck {schema : Relational.TableSchema}
    (named : schema = Schema.documents ∨ schema = Schema.permissions ∨ schema = Schema.guests) :
    tables.database.canCheck schema = true := by
  have target : tables.database.isWholeKey ("documents", "id") = true := by
    rw [Database.isWholeKey, table?_documents, Option.map_some, tables.documents_schema]
    decide
  rcases named with rfl | rfl | rfl
  · rfl
  · simp [Database.canCheck, Schema.permissions, Schema.documentReference, Schema.timeColumn,
      target]
  · simp [Database.canCheck, Schema.guests, Schema.documentReference, Schema.timeColumn, target]

theorem finds_document (id : DocumentId) :
    tables.database.finds "documents" id.toCell = tables.documents.keyed.contains [id.toCell] := by
  rw [Database.finds, table?_documents]
  rfl

theorem refersWell_permission (permission : Permission) :
    tables.database.refersWell Schema.permissions permission.toRow =
      tables.documents.keyed.contains [permission.documentId.toCell] := by
  rw [← finds_document]
  simp [Database.refersWell, Schema.permissions, Permission.toRow, Schema.documentReference,
    Schema.timeColumn]

theorem refersWell_guest (guest : Guest) :
    tables.database.refersWell Schema.guests guest.toRow =
      tables.documents.keyed.contains [guest.documentId.toCell] := by
  rw [← finds_document]
  simp [Database.refersWell, Schema.guests, Guest.toRow, Schema.documentReference,
    Schema.timeColumn]

/-- The tables with another document. -/
def addDocument (document : Document) : StoreTables :=
  { tables with
    documents := tables.documents.put ⟨tables.documents.nextNumber, document.toRow⟩
    documents_schema := (Table.schema_put _ _).trans tables.documents_schema }

/-- The tables with another permission. -/
def addPermission (permission : Permission) : StoreTables :=
  { tables with
    permissions := tables.permissions.put ⟨tables.permissions.nextNumber, permission.toRow⟩
    permissions_schema := (Table.schema_put _ _).trans tables.permissions_schema }

/-- The tables with another guest. -/
def addGuest (guest : Guest) : StoreTables :=
  { tables with
    guests := tables.guests.put ⟨tables.guests.nextNumber, guest.toRow⟩
    guests_schema := (Table.schema_put _ _).trans tables.guests_schema }

theorem insert_document (document : Document) :
    tables.database.insert {} "documents" document.toRow =
      if tables.documents.keyed.contains (documentRows.cells document.id) then
        .error (.duplicateKey "documents" ["id"])
      else .ok (tables.addDocument document).database := by
  rw [Database.insert_of_fits tables.table_documents tables.documents_schema
    (tables.canCheck (.inl rfl)) document.fits]
  have referring (database : Database) :
      database.refersWell Schema.documents document.toRow = true := rfl
  rw [referring, if_pos rfl, setTable_documents]
  rfl

theorem insert_permission (permission : Permission) :
    tables.database.insert {} "permissions" permission.toRow =
      if tables.permissions.keyed.contains (permissionRows.cells permission.key) then
        .error (.duplicateKey "permissions" ["recipient_id", "document_id"])
      else if tables.documents.keyed.contains (documentRows.cells permission.documentId) then
        .ok (tables.addPermission permission).database
      else .error .danglingReference := by
  rw [Database.insert_of_fits tables.table_permissions tables.permissions_schema
    (tables.canCheck (.inr (.inl rfl))) permission.fits, setTable_permissions,
    refersWell_permission]
  rfl

theorem insert_guest (guest : Guest) :
    tables.database.insert {} "guests" guest.toRow =
      if tables.guests.keyed.contains (guestRows.cells guest.id) then
        .error (.duplicateKey "guests" ["id"])
      else if tables.documents.keyed.contains (documentRows.cells guest.documentId) then
        .ok (tables.addGuest guest).database
      else .error .danglingReference := by
  rw [Database.insert_of_fits tables.table_guests tables.guests_schema
    (tables.canCheck (.inr (.inr rfl))) guest.fits, setTable_guests, refersWell_guest]
  rfl

/-! ## Changes -/

/-- The tables with a change of a document. -/
def changeDocument (id : DocumentId) (change : Row → Row) : StoreTables :=
  { tables with documents := tables.documents.modify (documentRows.cells id) change }

/-- The tables with a change of a permission. -/
def changePermission (key : PermissionKey) (change : Row → Row) : StoreTables :=
  { tables with permissions := tables.permissions.modify (permissionRows.cells key) change }

theorem update_document (id : DocumentId) (guard : Row → Bool) (change : Row → Row) :
    tables.database.update "documents" (documentRows.cells id) guard change =
      match tables.documents.row? (documentRows.cells id) with
      | some existing =>
          if guard existing then .ok (1, (tables.changeDocument id change).database)
          else .ok (0, tables.database)
      | none => .ok (0, tables.database) := by
  rw [Database.update, table_documents]
  dsimp only
  rw [setTable_documents]
  rfl

theorem update_permission (key : PermissionKey) (guard : Row → Bool) (change : Row → Row) :
    tables.database.update "permissions" (permissionRows.cells key) guard change =
      match tables.permissions.row? (permissionRows.cells key) with
      | some existing =>
          if guard existing then .ok (1, (tables.changePermission key change).database)
          else .ok (0, tables.database)
      | none => .ok (0, tables.database) := by
  rw [Database.update, table_permissions]
  dsimp only
  rw [setTable_permissions]
  rfl

theorem upsert_permission (permission : Permission) (guard : Row → Bool) (change : Row → Row) :
    tables.database.upsert {} "permissions" permission.toRow guard change =
      match tables.permissions.row? (permissionRows.cells permission.key) with
      | some existing =>
          if guard existing then .ok (1, (tables.changePermission permission.key change).database)
          else .ok (0, tables.database)
      | none =>
          (tables.database.insert {} "permissions" permission.toRow).map fun changed =>
            (1, changed) := by
  have key : tables.permissions.schema.keyOf permission.toRow =
      permissionRows.cells permission.key := by
    rw [tables.permissions_schema]
    rfl
  rw [Database.upsert, table_permissions]
  simp only [key]
  rw [setTable_permissions]
  rfl

/-! ## Deletions -/

/-- The tables without a document. -/
def dropDocument (id : DocumentId) : StoreTables :=
  { tables with documents := tables.documents.erase (documentRows.cells id) }

/-- The tables without a permission. -/
def dropPermission (key : PermissionKey) : StoreTables :=
  { tables with permissions := tables.permissions.erase (permissionRows.cells key) }

/-- The tables with only the permissions that do not satisfy a condition. -/
def dropPermissions (condition : Row → Bool) : StoreTables :=
  { tables with permissions := tables.permissions.filter fun row => !condition row }

/-- The tables with only the guests that do not satisfy a condition. -/
def dropGuests (condition : Row → Bool) : StoreTables :=
  { tables with guests := tables.guests.filter fun row => !condition row }

theorem deleteWhere_permissions (condition : Row → Bool) :
    tables.database.deleteWhere "permissions" condition =
      .ok (tables.dropPermissions condition).database := by
  rw [Database.deleteWhere, table_permissions]
  show Except.ok (tables.database.setTable _) = _
  rw [setTable_permissions]
  rfl

theorem deleteWhere_guests (condition : Row → Bool) :
    tables.database.deleteWhere "guests" condition =
      .ok (tables.dropGuests condition).database := by
  rw [Database.deleteWhere, table_guests]
  show Except.ok (tables.database.setTable _) = _
  rw [setTable_guests]
  rfl

theorem references {table : Table} (member : table ∈ tables.database.tables)
    {column : Relational.Column} (among : column ∈ table.schema.columns)
    {target : String × String} (refers : column.references = some target) :
    target = ("documents", "id") ∧
      (table = tables.permissions ∨ table = tables.guests) := by
  have free {schema : Relational.TableSchema} (formed : table.schema = schema)
      (none : ∀ column ∈ schema.columns, column.references = none) : False := by
    rw [formed] at among
    rw [none column among] at refers
    cases refers
  have named {schema : Relational.TableSchema} (formed : table.schema = schema)
      (one : ∀ column ∈ schema.columns,
        column.references = none ∨ column.references = some ("documents", "id")) :
      target = ("documents", "id") := by
    rw [formed] at among
    rcases one column among with none | one
    · rw [none] at refers
      cases refers
    · rw [one] at refers
      cases refers
      rfl
  simp only [database, List.mem_cons, List.not_mem_nil, or_false] at member
  rcases member with rfl | rfl | rfl | rfl
  · exact (free tables.versions_schema (by decide)).elim
  · exact (free tables.documents_schema (by decide)).elim
  · exact ⟨named tables.permissions_schema (by decide), .inl rfl⟩
  · exact ⟨named tables.guests_schema (by decide), .inr rfl⟩

private theorem isReferenced_permissions (cell : Cell) :
    tables.database.isReferenced "permissions" cell = false := by
  have apart : Relational.sameName "documents" "permissions" = false := by decide
  rw [Database.isReferenced, List.any_eq_false]
  intro table member
  rw [Bool.not_eq_true, List.any_eq_false]
  intro row _
  rw [Bool.not_eq_true, List.any_eq_false]
  rintro ⟨column, other⟩ zipped
  cases refers : column.references with
  | none => simp [refers]
  | some target =>
      obtain ⟨rfl, -⟩ := tables.references member (List.of_mem_zip zipped).1 refers
      simp [refers, apart]

theorem delete_permission (key : PermissionKey) :
    tables.database.delete {} "permissions" (permissionRows.cells key) =
      match tables.permissions.row? (permissionRows.cells key) with
      | none => .ok (0, tables.database)
      | some _ => .ok (1, (tables.dropPermission key).database) := by
  have changed : tables.database.setTable
      (tables.permissions.erase (permissionRows.cells key)) =
        (tables.dropPermission key).database := by
    rw [setTable_permissions]
    rfl
  have unreferenced (cells : List Cell) :
      cells.any ((tables.dropPermission key).database.isReferenced "permissions") = false := by
    rw [List.any_eq_false]
    intro cell _
    rw [isReferenced_permissions]
    exact Bool.false_ne_true
  rw [Database.delete, table_permissions]
  simp only [changed, unreferenced]
  rfl

theorem delete_document (id : DocumentId) :
    tables.database.delete {} "documents" (documentRows.cells id) =
      match tables.documents.row? (documentRows.cells id) with
      | none => .ok (0, tables.database)
      | some _ =>
          if (tables.dropDocument id).database.isReferenced "documents" id.toCell then
            .error .danglingReference
          else .ok (1, (tables.dropDocument id).database) := by
  have changed : tables.database.setTable (tables.documents.erase (documentRows.cells id)) =
      (tables.dropDocument id).database := by
    rw [setTable_documents]
    rfl
  rw [Database.delete, table_documents]
  dsimp only
  cases tables.documents.row? (documentRows.cells id) with
  | none => rfl
  | some row =>
      rw [changed]
      simp [documentRows]

end StoreTables
end DocAccess
