import DocAccess.Cursor
import DocAccess.Store.Schema

/-!
# Records as rows

How records are kept in tables and read back. Reading takes the columns that a
query selects, in their order, and reports the first that is not what a record
needs; whatever was written is read back as it was, to the microsecond.
-/

set_option autoImplicit false

namespace DocAccess

open Relational (Cell DatabaseError Row)

/-! ## Cells -/

def Uuid.toCell (id : Uuid) : Cell := .blob id.bytes

def Id.toCell {kind : IdKind} (id : Id kind) : Cell := id.uuid.toCell

/-- The cell of a time, rounded down to microseconds. -/
def Timestamp.toCell (time : Timestamp) : Cell := .integer time.micros

namespace ReadCell

def uuid (index : Nat) (name : String) : Cell → Except DatabaseError Uuid
  | .blob bytes =>
      match Uuid.ofBytes? bytes with
      | some id => .ok id
      | none =>
          .error (.conversion index .blob
            ("Cannot read 16 byte value out of " ++ Numeral.text bytes.length ++ " byte blob"))
  | cell => .error (.columnClass index name cell.cellClass)

def id {kind : IdKind} (index : Nat) (name : String) (cell : Cell) :
    Except DatabaseError (Id kind) :=
  (uuid index name cell).map Id.mk

def time (index : Nat) (name : String) : Cell → Except DatabaseError Timestamp
  | .integer micros =>
      (Timestamp.ofMicros micros).mapError fun error => .conversion index .integer error.message
  | cell => .error (.columnClass index name cell.cellClass)

def text (index : Nat) (name : String) : Cell → Except DatabaseError String
  | .text content => .ok content
  | cell => .error (.columnClass index name cell.cellClass)

def text? (index : Nat) (name : String) : Cell → Except DatabaseError (Option String)
  | .null => .ok none
  | cell => (text index name cell).map some

/-- Reads a text with a meaning. -/
def meaning {α : Type} (read : String → Except ValueError α) (index : Nat) (name : String)
    (cell : Cell) : Except DatabaseError α := do
  let content ← text index name cell
  (read content).mapError fun error => .conversion index .text error.message

@[simp]
theorem uuid_toCell (index : Nat) (name : String) (id : Uuid) :
    uuid index name id.toCell = .ok id := by
  simp [uuid, Uuid.toCell]

@[simp]
theorem id_toCell {kind : IdKind} (index : Nat) (name : String) (id : Id kind) :
    ReadCell.id index name id.toCell = .ok id := by
  simp [ReadCell.id, Id.toCell, Except.map]

@[simp]
theorem time_toCell (index : Nat) (name : String) (time : Timestamp) :
    ReadCell.time index name time.toCell = .ok time.truncate := by
  show (Timestamp.ofMicros time.micros).mapError _ = _
  rw [Timestamp.ofMicros_micros]
  rfl

/-- A text whose meaning is known is read as it. -/
theorem meaning_text {α : Type} {read : String → Except ValueError α} {content : String} {value : α}
    (means : read content = .ok value) (index : Nat) (name : String) :
    meaning read index name (.text content) = .ok value := by
  show (read content).mapError _ = _
  rw [means]
  rfl

@[simp]
theorem text?_ofText? (index : Nat) (name : String) (content : Option String) :
    text? index name (.ofText? content) = .ok content := by
  cases content <;> rfl

end ReadCell

/-! ## Documents -/

def Document.toRow (document : Document) : Row :=
  [document.id.toCell, .ofText? document.name, .ofText? document.description,
    document.createdAt.toCell, document.lastModifiedAt.toCell]

/-- Reads a document from identifier, name, description and times. -/
def Document.ofRow (row : Row) : Except DatabaseError Document := do
  let id ← ReadCell.id 0 "id" (row.cell 0)
  let name ← ReadCell.text? 1 "name" (row.cell 1)
  let description ← ReadCell.text? 2 "description" (row.cell 2)
  let createdAt ← ReadCell.time 3 "created_at" (row.cell 3)
  let lastModifiedAt ← ReadCell.time 4 "last_modified_at" (row.cell 4)
  return { id, name, description, createdAt, lastModifiedAt }

/-- A document is read back with its times rounded down. -/
theorem Document.ofRow_toRow (document : Document) :
    Document.ofRow document.toRow = .ok { document with
      createdAt := document.createdAt.truncate
      lastModifiedAt := document.lastModifiedAt.truncate } := by
  simp [Document.ofRow, Document.toRow, Relational.Row.cell, bind, Except.bind, pure, Except.pure]

/-- Sets the given fields and the time of change in the row of a document. -/
def Document.setFields (fields : DocumentFields) (now : Timestamp) (row : Row) : Row :=
  let overwrite (position : Nat) : Option String → Cell
    | some content => .text content
    | none => row.cell position
  [row.cell 0, overwrite 1 fields.name, overwrite 2 fields.description, row.cell 3, now.toCell]

/-- Reads a document and a level, which follows the document. -/
def DocumentPermission.ofRow (row : Row) : Except DatabaseError DocumentPermission := do
  let document ← Document.ofRow row
  let level ← ReadCell.meaning PermissionLevel.ofText 5 "permission_level" (row.cell 5)
  return { document, level }

/-! ## Permissions -/

def Permission.toRow (permission : Permission) : Row :=
  [permission.recipientId.toCell, .text permission.recipientType.text,
    permission.documentId.toCell, .text permission.level.text, permission.createdBy.toCell,
    permission.createdAt.toCell, permission.lastModifiedAt.toCell]

/-- The columns of a permission in the order in which they are selected. -/
def Permission.select (row : Row) : Row :=
  [2, 0, 1, 3, 4, 5, 6].map row.cell

/-- Reads a permission from its selected columns. -/
def Permission.ofRow (row : Row) : Except DatabaseError Permission := do
  let documentId ← ReadCell.id 0 "document_id" (row.cell 0)
  let recipientId ← ReadCell.id 1 "recipient_id" (row.cell 1)
  let recipientType ← ReadCell.meaning RecipientType.ofText 2 "recipient_type" (row.cell 2)
  let level ← ReadCell.meaning PermissionLevel.ofText 3 "permission_level" (row.cell 3)
  let createdBy ← ReadCell.id 4 "created_by" (row.cell 4)
  let createdAt ← ReadCell.time 5 "created_at" (row.cell 5)
  let lastModifiedAt ← ReadCell.time 6 "last_modified_at" (row.cell 6)
  return { documentId, recipientId, recipientType, level, createdBy, createdAt, lastModifiedAt }

/-- A permission is read back with its times rounded down. -/
theorem Permission.ofRow_select_toRow (permission : Permission) :
    Permission.ofRow (Permission.select permission.toRow) = .ok { permission with
      createdAt := permission.createdAt.truncate
      lastModifiedAt := permission.lastModifiedAt.truncate } := by
  simp [Permission.ofRow, Permission.select, Permission.toRow, Relational.Row.cell,
    ReadCell.meaning_text (PermissionLevel.ofText_text _),
    ReadCell.meaning_text (RecipientType.ofText_text _), bind, Except.bind, pure, Except.pure]

/-- Sets the level and the time of change in the row of a permission. -/
def Permission.setLevel (level : PermissionLevel) (now : Timestamp) (row : Row) : Row :=
  (row.set 3 (.text level.text)).set 6 now.toCell

/-! ## Guests -/

def Guest.toRow (guest : Guest) : Row :=
  [guest.id.toCell, guest.documentId.toCell, guest.createdBy.toCell, guest.createdAt.toCell]

def Guest.ofRow (row : Row) : Except DatabaseError Guest := do
  let id ← ReadCell.id 0 "id" (row.cell 0)
  let documentId ← ReadCell.id 1 "document_id" (row.cell 1)
  let createdBy ← ReadCell.id 2 "created_by" (row.cell 2)
  let createdAt ← ReadCell.time 3 "created_at" (row.cell 3)
  return { id, documentId, createdBy, createdAt }

/-- A guest is read back with its time rounded down. -/
theorem Guest.ofRow_toRow (guest : Guest) :
    Guest.ofRow guest.toRow = .ok { guest with createdAt := guest.createdAt.truncate } := by
  simp [Guest.ofRow, Guest.toRow, Relational.Row.cell, bind, Except.bind, pure, Except.pure]

end DocAccess
