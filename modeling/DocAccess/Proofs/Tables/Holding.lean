import DocAccess.Proofs.Memory.Integrity
import DocAccess.Proofs.Tables.Layout

/-!
# Tables that hold a store in memory

The rows of the tables are the values of the maps. Every change of the tables that the
store makes has its change of the maps.
-/

set_option autoImplicit false

namespace DocAccess

open Relational (Cell Database DatabaseError Row Table)

namespace StoreTables

/-- The rows of the tables are the values of the maps. -/
structure Holds (tables : StoreTables) (store : MemoryStore) : Prop where
  documents : tables.documents.Mirrors documentRows store.documents
  permissions : tables.permissions.Mirrors permissionRows store.permissions
  guests : tables.guests.Mirrors guestRows store.guests

namespace Holds

variable {tables : StoreTables} {store : MemoryStore}

theorem addDocument (holds : tables.Holds store) (document : Document) :
    (tables.addDocument document).Holds
      { store with documents := store.documents.insert document.id document } := by
  refine { holds with documents := holds.documents.put ?_ ?_ }
  · rw [tables.documents_schema]
    exact document.fits.keyed
  · rw [tables.documents_schema]
    rfl

theorem addPermission (holds : tables.Holds store) (permission : Permission) :
    (tables.addPermission permission).Holds
      { store with permissions := store.permissions.insert permission.key permission } := by
  refine { holds with permissions := holds.permissions.put ?_ ?_ }
  · rw [tables.permissions_schema]
    exact permission.fits.keyed
  · rw [tables.permissions_schema]
    rfl

theorem addGuest (holds : tables.Holds store) (guest : Guest) :
    (tables.addGuest guest).Holds
      { store with guests := store.guests.insert guest.id guest } := by
  refine { holds with guests := holds.guests.put ?_ ?_ }
  · rw [tables.guests_schema]
    exact guest.fits.keyed
  · rw [tables.guests_schema]
    rfl

theorem insert_document (holds : tables.Holds store) (document : Document)
    (fresh : store.documents.contains document.id = false) :
    tables.database.insert {} "documents" document.toRow =
      .ok (tables.addDocument document).database := by
  rw [tables.insert_document, holds.documents.contains_cells, fresh]
  rfl

theorem insert_document_taken (holds : tables.Holds store) (document : Document)
    (taken : store.documents.contains document.id = true) :
    tables.database.insert {} "documents" document.toRow =
      .error (.duplicateKey "documents" ["id"]) := by
  rw [tables.insert_document, holds.documents.contains_cells, taken]
  rfl

theorem insert_permission (holds : tables.Holds store) (permission : Permission)
    (fresh : store.permissions.contains permission.key = false)
    (present : store.documents.contains permission.documentId = true) :
    tables.database.insert {} "permissions" permission.toRow =
      .ok (tables.addPermission permission).database := by
  rw [tables.insert_permission, holds.permissions.contains_cells, fresh,
    holds.documents.contains_cells, present]
  rfl

theorem insert_permission_taken (holds : tables.Holds store) (permission : Permission)
    (taken : store.permissions.contains permission.key = true) :
    tables.database.insert {} "permissions" permission.toRow =
      .error (.duplicateKey "permissions" ["recipient_id", "document_id"]) := by
  rw [tables.insert_permission, holds.permissions.contains_cells, taken]
  rfl

theorem insert_permission_dangling (holds : tables.Holds store) (permission : Permission)
    (fresh : store.permissions.contains permission.key = false)
    (missing : store.documents.contains permission.documentId = false) :
    tables.database.insert {} "permissions" permission.toRow = .error .danglingReference := by
  rw [tables.insert_permission, holds.permissions.contains_cells, fresh,
    holds.documents.contains_cells, missing]
  rfl

theorem insert_guest (holds : tables.Holds store) (guest : Guest)
    (fresh : store.guests.contains guest.id = false)
    (present : store.documents.contains guest.documentId = true) :
    tables.database.insert {} "guests" guest.toRow = .ok (tables.addGuest guest).database := by
  rw [tables.insert_guest, holds.guests.contains_cells, fresh, holds.documents.contains_cells,
    present]
  rfl

theorem insert_guest_taken (holds : tables.Holds store) (guest : Guest)
    (taken : store.guests.contains guest.id = true) :
    tables.database.insert {} "guests" guest.toRow = .error (.duplicateKey "guests" ["id"]) := by
  rw [tables.insert_guest, holds.guests.contains_cells, taken]
  rfl

theorem insert_guest_dangling (holds : tables.Holds store) (guest : Guest)
    (fresh : store.guests.contains guest.id = false)
    (missing : store.documents.contains guest.documentId = false) :
    tables.database.insert {} "guests" guest.toRow = .error .danglingReference := by
  rw [tables.insert_guest, holds.guests.contains_cells, fresh, holds.documents.contains_cells,
    missing]
  rfl

/-! ## Look-ups -/

theorem row?_document (holds : tables.Holds store) (id : DocumentId) :
    tables.database.row? "documents" (documentRows.cells id) =
      .ok (store.documents[id]?.map Document.toRow) := by
  rw [Database.row?, tables.table_documents]
  exact congrArg Except.ok (holds.documents.row?_cells id)

theorem row?_permission (holds : tables.Holds store) (key : PermissionKey) :
    tables.database.row? "permissions" (permissionRows.cells key) =
      .ok (store.permissions[key]?.map Permission.toRow) := by
  rw [Database.row?, tables.table_permissions]
  exact congrArg Except.ok (holds.permissions.row?_cells key)

theorem row?_guest (holds : tables.Holds store) (id : GuestId) :
    tables.database.row? "guests" (guestRows.cells id) =
      .ok (store.guests[id]?.map Guest.toRow) := by
  rw [Database.row?, tables.table_guests]
  exact congrArg Except.ok (holds.guests.row?_cells id)

/-! ## Changes and deletions by key -/

theorem changeDocument (holds : tables.Holds store) {id : DocumentId} {old new : Document}
    (found : store.documents[id]? = some old) {change : Row → Row}
    (changed : change old.toRow = new.toRow) :
    (tables.changeDocument id change).Holds
      { store with documents := store.documents.insert id new } :=
  { holds with documents := holds.documents.modify found changed }

theorem changePermission (holds : tables.Holds store) {key : PermissionKey} {old new : Permission}
    (held : store.permissions[key]? = some old) {change : Row → Row}
    (changed : change old.toRow = new.toRow) :
    (tables.changePermission key change).Holds
      { store with permissions := store.permissions.insert key new } :=
  { holds with permissions := holds.permissions.modify held changed }

theorem dropPermission (holds : tables.Holds store) (key : PermissionKey) :
    (tables.dropPermission key).Holds
      { store with permissions := store.permissions.erase key } :=
  { holds with permissions := holds.permissions.erase key }

theorem update_document (holds : tables.Holds store) {id : DocumentId} {document : Document}
    (found : store.documents[id]? = some document) (change : Row → Row) :
    tables.database.update "documents" (documentRows.cells id) (fun _ => true) change =
      .ok (1, (tables.changeDocument id change).database) := by
  rw [tables.update_document, holds.documents.row?_cells, found]
  rfl

theorem update_document_missing (holds : tables.Holds store) {id : DocumentId}
    (missing : store.documents[id]? = none) (change : Row → Row) :
    tables.database.update "documents" (documentRows.cells id) (fun _ => true) change =
      .ok (0, tables.database) := by
  rw [tables.update_document, holds.documents.row?_cells, missing]
  rfl

/-- Only the level of a holder of the right type is changed. -/
theorem update_permission (holds : tables.Holds store) {key : PermissionKey}
    {permission : Permission} (held : store.permissions[key]? = some permission)
    (type : RecipientType) (change : Row → Row) :
    tables.database.update "permissions" (permissionRows.cells key)
        (TableStore.isHeldBy type) change =
      if permission.recipientType = type then
        .ok (1, (tables.changePermission key change).database)
      else .ok (0, tables.database) := by
  rw [tables.update_permission, holds.permissions.row?_cells, held]
  show (if TableStore.isHeldBy type permission.toRow = true then _ else _) = _
  rw [permission.isHeldBy_toRow]
  simp

theorem update_permission_missing (holds : tables.Holds store) {key : PermissionKey}
    (missing : store.permissions[key]? = none) (guard : Row → Bool) (change : Row → Row) :
    tables.database.update "permissions" (permissionRows.cells key) guard change =
      .ok (0, tables.database) := by
  rw [tables.update_permission, holds.permissions.row?_cells, missing]
  rfl

theorem upsert_permission (holds : tables.Holds store) {added permission : Permission}
    (held : store.permissions[added.key]? = some permission) (type : RecipientType)
    (change : Row → Row) :
    tables.database.upsert {} "permissions" added.toRow (TableStore.isHeldBy type) change =
      if permission.recipientType = type then
        .ok (1, (tables.changePermission added.key change).database)
      else .ok (0, tables.database) := by
  rw [tables.upsert_permission, holds.permissions.row?_cells, held]
  show (if TableStore.isHeldBy type permission.toRow = true then _ else _) = _
  rw [permission.isHeldBy_toRow]
  simp

theorem upsert_permission_missing (holds : tables.Holds store) {added : Permission}
    (missing : store.permissions.contains added.key = false) (guard : Row → Bool)
    (change : Row → Row) :
    tables.database.upsert {} "permissions" added.toRow guard change =
      (tables.database.insert {} "permissions" added.toRow).map fun changed => (1, changed) := by
  rw [tables.upsert_permission, holds.permissions.row?_cells, Map.contains_eq_false_iff.1 missing]
  rfl

theorem delete_permission (holds : tables.Holds store) {key : PermissionKey}
    {permission : Permission} (held : store.permissions[key]? = some permission) :
    tables.database.delete {} "permissions" (permissionRows.cells key) =
      .ok (1, (tables.dropPermission key).database) := by
  rw [tables.delete_permission, holds.permissions.row?_cells, held]
  rfl

theorem delete_permission_missing (holds : tables.Holds store) {key : PermissionKey}
    (missing : store.permissions[key]? = none) :
    tables.database.delete {} "permissions" (permissionRows.cells key) =
      .ok (0, tables.database) := by
  rw [tables.delete_permission, holds.permissions.row?_cells, missing]
  rfl

/-! ## A document with all that refers to it -/

/-- Whether a cell of a row is an identifier, in a column of documents. -/
def refersTo (id : DocumentId) (position : Nat) (row : Row) : Bool :=
  row.cell position = id.toCell

theorem dropReferences (holds : tables.Holds store) (intact : store.Integrity) (id : DocumentId) :
    ((tables.dropPermissions (refersTo id 2)).dropGuests (refersTo id 1)).Holds { store with
      permissions := store.permissions.filter fun key _ => key.document ≠ id
      guests := store.guests.filter fun _ guest => guest.documentId ≠ id } := by
  have permissions (key : PermissionKey) (permission : Permission)
      (held : store.permissions[key]? = some permission) :
      (!refersTo id 2 permission.toRow) = decide (key.document ≠ id) := by
    rw [← intact.permission_key key permission held, decide_not]
    exact congrArg (!·) (decide_eq_decide.2 Id.toCell_inj)
  have guests (guest : GuestId) (record : Guest) (_ : store.guests[guest]? = some record) :
      (!refersTo id 1 record.toRow) = decide (record.documentId ≠ id) := by
    rw [decide_not]
    exact congrArg (!·) (decide_eq_decide.2 Id.toCell_inj)
  refine ⟨holds.documents, ?_, ?_⟩
  · show (tables.permissions.filter fun row => !refersTo id 2 row).Mirrors permissionRows
      (store.permissions.filter fun key _ => key.document ≠ id)
    exact holds.permissions.filter permissions
  · show (tables.guests.filter fun row => !refersTo id 1 row).Mirrors guestRows
      (store.guests.filter fun _ guest => guest.documentId ≠ id)
    exact holds.guests.filter guests

theorem dropDocument (holds : tables.Holds store) (id : DocumentId) :
    (tables.dropDocument id).Holds
      { store with documents := store.documents.erase id } :=
  { holds with documents := holds.documents.erase id }

private theorem isReferenced_document (holds : tables.Holds store) {id : DocumentId}
    (permissions : ∀ (key : PermissionKey) (permission : Permission),
      store.permissions[key]? = some permission → permission.documentId ≠ id)
    (guests : ∀ (guest : GuestId) (record : Guest),
      store.guests[guest]? = some record → record.documentId ≠ id) :
    tables.database.isReferenced "documents" id.toCell = false := by
  rw [Database.isReferenced, List.any_eq_false]
  intro table member
  rw [Bool.not_eq_true, List.any_eq_false]
  intro row inTable
  rw [Bool.not_eq_true, List.any_eq_false]
  rintro ⟨column, cell⟩ zipped
  cases refers : column.references with
  | none => simp [refers]
  | some target =>
      obtain ⟨rfl, which⟩ := tables.references member (List.of_mem_zip zipped).1 refers
      have apart : cell ≠ id.toCell := by
        rcases which with rfl | rfl
        · rw [holds.permissions.rows_eq, List.mem_map] at inTable
          obtain ⟨permission, value, rfl⟩ := inTable
          obtain ⟨key, held⟩ := Map.mem_values.1 value
          rw [tables.permissions_schema] at zipped
          rw [permission.cell_of_reference zipped refers, Ne, Id.toCell_inj]
          exact permissions key permission held
        · rw [holds.guests.rows_eq, List.mem_map] at inTable
          obtain ⟨guest, value, rfl⟩ := inTable
          obtain ⟨key, found⟩ := Map.mem_values.1 value
          rw [tables.guests_schema] at zipped
          rw [guest.cell_of_reference zipped refers, Ne, Id.toCell_inj]
          exact guests key guest found
      simp [refers, apart]

/-- What a deletion of a document leaves behind, after its permissions and guests. -/
theorem delete_document (holds : tables.Holds store) (intact : store.Integrity)
    {id : DocumentId} {document : Document} (found : store.documents[id]? = some document) :
    let left := (tables.dropPermissions (refersTo id 2)).dropGuests (refersTo id 1)
    left.database.delete {} "documents" (documentRows.cells id) =
      .ok (1, (left.dropDocument id).database) := by
  intro left
  have kept := holds.dropReferences intact id
  have unreferenced :
      (left.dropDocument id).database.isReferenced "documents" id.toCell = false := by
    refine (kept.dropDocument id).isReferenced_document ?_ ?_
    · intro key permission held
      obtain ⟨unchanged, apart⟩ := Map.getElem?_filter_eq_some.1 held
      have named := intact.permission_key key permission unchanged
      rw [← named] at apart
      exact of_decide_eq_true apart
    · intro guest record member
      exact of_decide_eq_true (Map.getElem?_filter_eq_some.1 member).2
  rw [left.delete_document, kept.documents.row?_cells,
    show (store.documents[id]?).map documentRows.row = some document.toRow by rw [found]; rfl,
    unreferenced]
  rfl

theorem delete_document_missing (holds : tables.Holds store) {id : DocumentId}
    (missing : store.documents[id]? = none) :
    tables.database.delete {} "documents" (documentRows.cells id) = .ok (0, tables.database) := by
  rw [tables.delete_document, holds.documents.row?_cells, missing]
  rfl

end Holds
end StoreTables
end DocAccess
