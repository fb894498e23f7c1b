import DocAccess.Proofs.Memory.Listing
import DocAccess.Proofs.Tables.Reading
import DocAccess.Proofs.Tables.Writing
import Mathlib.Data.List.Basic

/-!
# What the tables answer

Look-ups give the records of the maps. A listing is answered from the rows of its scope,
as if its cursor stood at a whole microsecond.
-/

set_option autoImplicit false

namespace DocAccess

open Relational (Cell Database DatabaseError Row Table)

variable {α : Type}

/-! ## Look-ups -/

namespace TableStore

theorem read_eq {store : TableStore} {operation table : String} {key : List Cell}
    {missing : StoreError} {ofRow : Row → Except DatabaseError α} {row : α → Row}
    {value : Option α} (looked : store.database.row? table key = .ok (value.map row))
    (reads : ∀ record, value = some record → ofRow (row record) = .ok record) :
    store.read operation table key missing ofRow = MemoryStore.found missing value := by
  cases value with
  | none => simp [read, looked, MemoryStore.found]
  | some record => simp [read, looked, MemoryStore.found, reads record rfl]

private theorem snapshot_of_run {database changed : Database} {name : String} {body : Body α}
    {result : Except StoreError α} {last : Nat}
    (runs : body.run .never name 3 database = (result, changed, last)) :
    snapshot ⟨database, false⟩ .never name body = .ofExcept result := by
  show Outcome.ofExcept (finish .never {} name database (body.run .never name 3 database)).1 = _
  rw [runs]
  cases result with
  | ok value => rfl
  | error failure => rfl

end TableStore

namespace StoreTables.Holds

variable {tables : StoreTables} {memory : MemoryStore} {moment : Moment}

theorem finds {κ : Type} [Ord κ] [Std.TransOrd κ] (holds : tables.Holds memory)
    (map : Std.ExtTreeMap κ α) (key : κ) (missing : StoreError) :
    Tracks (if map.contains key then none else some missing)
      (MemoryStore.found missing map[key]?, ⟨tables.database, false⟩)
      (MemoryStore.found missing map[key]?, memory) := by
  cases looked : map[key]? with
  | none =>
      have absent := Map.contains_eq_false_iff.2 looked
      exact holds.refuses (if_neg (Bool.eq_false_iff.1 absent)) rfl
  | some value => exact holds.writes (if_pos (Map.contains_iff.2 ⟨value, looked⟩))

theorem getDocument (holds : tables.Holds memory) (whole : memory.contents.Whole)
    (live : memory.poisoned = false) (id : DocumentId) :
    Tracks (TableStore.refusal? memory moment.drawn (.getDocument id))
      (TableStore.step ⟨tables.database, false⟩ moment (.getDocument id))
      (memory.step moment (.getDocument id)) := by
  have answered : TableStore.step ⟨tables.database, false⟩ moment (.getDocument id) =
      (MemoryStore.found (.documentNotFound id) memory.documents[id]?,
        ⟨tables.database, false⟩) := by
    refine congrArg (·, _) (TableStore.read_eq (holds.row?_document id) fun document found => ?_)
    exact Document.ofRow_eq (whole.document (Map.mem_values.2 ⟨id, found⟩))
  have asked : memory.step moment (.getDocument id) =
      (MemoryStore.found (.documentNotFound id) memory.documents[id]?, memory) :=
    step_locked live _ _
  rw [answered, asked]
  exact holds.finds _ _ _

theorem getPermission (holds : tables.Holds memory) (whole : memory.contents.Whole)
    (live : memory.poisoned = false) (id : DocumentId) (principal : PrincipalId) :
    Tracks (TableStore.refusal? memory moment.drawn (.getPermission id principal))
      (TableStore.step ⟨tables.database, false⟩ moment (.getPermission id principal))
      (memory.step moment (.getPermission id principal)) := by
  let key : PermissionKey := ⟨principal, id⟩
  have answered : TableStore.step ⟨tables.database, false⟩ moment (.getPermission id principal) =
      (MemoryStore.found (.permissionNotFound principal id) memory.permissions[key]?,
        ⟨tables.database, false⟩) := by
    refine congrArg (·, _) (TableStore.read_eq (holds.row?_permission key) ?_)
    intro permission held
    exact Permission.ofRow_eq (whole.permission (Map.mem_values.2 ⟨key, held⟩))
  have asked : memory.step moment (.getPermission id principal) =
      (MemoryStore.found (.permissionNotFound principal id) memory.permissions[key]?, memory) :=
    step_locked live _ _
  rw [answered, asked]
  exact holds.finds _ _ _

theorem getGuest (holds : tables.Holds memory) (whole : memory.contents.Whole)
    (live : memory.poisoned = false) (id : GuestId) :
    Tracks (TableStore.refusal? memory moment.drawn (.getGuest id))
      (TableStore.step ⟨tables.database, false⟩ moment (.getGuest id))
      (memory.step moment (.getGuest id)) := by
  have answered : TableStore.step ⟨tables.database, false⟩ moment (.getGuest id) =
      (MemoryStore.found (.guestNotFound id) memory.guests[id]?, ⟨tables.database, false⟩) := by
    refine congrArg (·, _) (TableStore.read_eq (holds.row?_guest id) fun guest found => ?_)
    exact Guest.ofRow_eq (whole.guest (Map.mem_values.2 ⟨id, found⟩))
  have asked : memory.step moment (.getGuest id) =
      (MemoryStore.found (.guestNotFound id) memory.guests[id]?, memory) :=
    step_locked live _ _
  rw [answered, asked]
  exact holds.finds _ _ _

/-! ## Listings -/

theorem isLevelIn_text (filter : LevelFilter) (level : PermissionLevel) :
    TableStore.isLevelIn filter (.text level.text) = filter.contains level := by
  rcases filter with ⟨viewer, editor, owner, nonempty⟩
  cases viewer <;> cases editor <;> cases owner <;> cases level <;> rfl

variable {levels : List PermissionLevel} {filter : LevelFilter}

private theorem permissionsOn_eq (holds : tables.Holds memory)
    (read : LevelFilter.ofList levels = .ok filter) (id : DocumentId) :
    TableStore.permissionsOn tables.database id filter =
      .ok (((Scope.document id).listed levels memory.contents).map fun permission =>
        Permission.select permission.toRow) := by
  rw [TableStore.permissionsOn, holds.rows_permissions, Scope.listed_document]
  simp only [Except.map]
  rw [List.filter_map, List.map_map]
  refine congrArg (fun rows => Except.ok (List.map _ rows)) ?_
  refine List.filter_congr fun permission _ => ?_
  have sameDocument : decide (permission.documentId.toCell = id.toCell) =
      decide (permission.documentId = id) := decide_eq_decide.2 Id.toCell_inj
  rw [← LevelFilter.contains_of_ofList read, ← isLevelIn_text, ← sameDocument]
  rfl

/-- The row of a document, followed by the level. -/
def documentPermissionRow (row : DocumentPermission) : Row :=
  row.document.toRow ++ [.text row.level.text]

private theorem documentsOf_eq (holds : tables.Holds memory) (intact : memory.Integrity)
    (read : LevelFilter.ofList levels = .ok filter) (id : PrincipalId) :
    TableStore.documentsOf tables.database id filter =
      .ok (((Scope.principal id).listed levels memory.contents).map documentPermissionRow) := by
  rw [TableStore.documentsOf, tables.table_permissions, tables.table_documents]
  dsimp only
  rw [holds.permissions.rows_eq, Scope.listed_principal, List.map_filterMap, List.filterMap_map]
  refine congrArg Except.ok (List.filterMap_congr fun permission _ => ?_)
  have sameRecipient : decide (permission.recipientId.toCell = id.toCell) =
      decide (permission.recipientId = id) := decide_eq_decide.2 Id.toCell_inj
  have looked : tables.documents.row? [permission.documentId.toCell] =
      (memory.contents.documents.find? fun document => document.id = permission.documentId).map
        Document.toRow := by
    rw [show memory.contents.documents = memory.documents.toList.map (·.2) from rfl,
      Map.find?_values intact.document_id]
    exact holds.documents.row?_cells permission.documentId
  rw [← LevelFilter.contains_of_ofList read, ← isLevelIn_text, ← sameRecipient]
  show (if (decide (permission.recipientId.toCell = id.toCell) &&
      TableStore.isLevelIn filter (.text permission.level.text)) = true then
        (tables.documents.row? [permission.documentId.toCell]).map fun row =>
          row ++ [.text permission.level.text]
      else none) = _
  rw [looked]
  split
  · rw [Option.map_map, Option.map_map]
    rfl
  · rfl

/-! ## Pages -/

private theorem permissions_places {contents : Contents} (whole : contents.Whole)
    (field : SortField)
    {records : List Permission} (stored : ∀ record ∈ records, record ∈ contents.permissions) :
    (TableStore.permissionOrder field).Places (fun row => Permission.select row.toRow)
      (Keyed.orderKey field) records where
  time _ _ := by cases field <;> rfl
  id _ _ := by cases field <;> rfl
  whole record member := by
    have times := whole.permission (stored record member) field
    cases field <;> exact times

private theorem documents_places {contents : Contents} (whole : contents.Whole) (field : SortField)
    {records : List DocumentPermission}
    (stored : ∀ record ∈ records, record.document ∈ contents.documents) :
    (TableStore.documentOrder field).Places documentPermissionRow (Keyed.orderKey field)
      records where
  time _ _ := by cases field <;> rfl
  id _ _ := by cases field <;> rfl
  whole record member := by
    have times := whole.document (stored record member) field
    cases field <;> exact times

private theorem ofRow_documentPermissionRow {row : DocumentPermission}
    (whole : ∀ field, (row.document.time field).isWhole) :
    DocumentPermission.ofRow (documentPermissionRow row) = .ok row := by
  have document : Document.ofRow (documentPermissionRow row) = .ok row.document :=
    Document.ofRow_eq whole
  have level : ReadCell.meaning PermissionLevel.ofText 5 "permission_level"
      ((documentPermissionRow row).cell 5) = .ok row.level :=
    ReadCell.meaning_text (PermissionLevel.ofText_text _) 5 _
  simp only [DocumentPermission.ofRow, document, level, bind, Except.bind]
  rfl

private theorem mem_permissions_of_listed {id : DocumentId} {contents : Contents} {row : Permission}
    (listed : row ∈ (Scope.document id).listed levels contents) : row ∈ contents.permissions := by
  rw [Scope.listed_document] at listed
  exact (List.mem_filter.1 listed).1

private theorem mem_documents_of_listed {id : PrincipalId} {contents : Contents}
    {row : DocumentPermission} (listed : row ∈ (Scope.principal id).listed levels contents) :
    row.document ∈ contents.documents := by
  rw [Scope.listed_principal, List.mem_filterMap] at listed
  obtain ⟨permission, -, read⟩ := listed
  rw [Option.ite_none_right_eq_some, Option.map_eq_some_iff] at read
  obtain ⟨-, document, found, rfl⟩ := read
  exact List.mem_of_find?_eq_some found

/-- A page of rows that are read back is the page of their records. -/
theorem readPage_select [Keyed α] {columns : TableStore.OrderColumns} {write : α → Row}
    {cursor : Cursor} {records : List α} {ofRow : Row → Except DatabaseError α}
    (places : columns.Places write (Keyed.orderKey cursor.sortField) records)
    (reads : ∀ record ∈ records, ofRow (write record) = .ok record) (size : PageSize) :
    TableStore.readPage ofRow (columns.select (records.map write) cursor size) cursor =
      .ok (Page.ofItems ((rowsBelow (Keyed.orderKey cursor.sortField) records
        cursor.truncate.key).take size.rows) cursor) := by
  rw [places.select, TableStore.readPage, mapM_map_ok fun record member =>
    reads record (mem_rowsBelow.1 (List.mem_of_mem_take member)).1]
  rfl

private theorem readPage_permissions {contents : Contents} (whole : contents.Whole)
    (listing : Listing) {size : PageSize} (room : size.rows = listing.pageSize) (id : DocumentId) :
    TableStore.readPage Permission.ofRow ((TableStore.permissionOrder listing.cursor.sortField).select
        (((Scope.document id).listed listing.levels contents).map fun permission =>
          Permission.select permission.toRow) listing.cursor size) listing.cursor =
      .ok ((Scope.document id).page contents listing listing.cursor.truncate) := by
  have stored : ∀ row ∈ (Scope.document id).listed listing.levels contents,
      row ∈ contents.permissions := fun _ => mem_permissions_of_listed
  rw [readPage_select (permissions_places whole listing.cursor.sortField stored)
    fun row member => Permission.ofRow_eq (whole.permission (stored row member)), room]
  rfl

private theorem readPage_documents {contents : Contents} (whole : contents.Whole)
    (listing : Listing) {size : PageSize} (room : size.rows = listing.pageSize) (id : PrincipalId) :
    TableStore.readPage DocumentPermission.ofRow
        ((TableStore.documentOrder listing.cursor.sortField).select
          (((Scope.principal id).listed listing.levels contents).map documentPermissionRow)
          listing.cursor size) listing.cursor =
      .ok ((Scope.principal id).page contents listing listing.cursor.truncate) := by
  have stored : ∀ row ∈ (Scope.principal id).listed listing.levels contents,
      row.document ∈ contents.documents := fun _ => mem_documents_of_listed
  rw [readPage_select (documents_places whole listing.cursor.sortField stored)
    fun row member => ofRow_documentPermissionRow (whole.document (stored row member)), room]
  rfl

private theorem listPermissions (holds : tables.Holds memory) (intact : memory.Integrity)
    (whole : memory.contents.Whole) (listing : Listing) {size : PageSize}
    (valid : listing.validate = .ok (filter, size)) (id : DocumentId) :
    TableStore.snapshot ⟨tables.database, false⟩ .never "list permissions on document"
        (TableStore.listPermissions id filter listing.cursor size) =
      (Scope.document id).answer memory.contents listing listing.cursor.truncate := by
  obtain ⟨read, room⟩ := Listing.validate_ok_iff.1 valid
  have looked := holds.row?_document id
  rw [Scope.answer, valid, MemoryStore.missing?_eq intact]
  cases present : memory.documents.contains id with
  | false =>
      rw [Map.contains_eq_false_iff.1 present] at looked
      have runs : (TableStore.listPermissions id filter listing.cursor size).run .never
          "list permissions on document" 3 tables.database =
            (.error (.documentNotFound id), tables.database, 4) :=
        (Body.run_query_ok looked).trans rfl
      rw [TableStore.snapshot_of_run runs]
      rfl
  | true =>
      obtain ⟨document, found⟩ := Map.contains_iff.1 present
      rw [found] at looked
      have selected : ((TableStore.permissionsOn tables.database id filter).bind fun rows =>
          TableStore.readPage Permission.ofRow
            ((TableStore.permissionOrder listing.cursor.sortField).select rows listing.cursor size)
            listing.cursor) =
          .ok ((Scope.document id).page memory.contents listing listing.cursor.truncate) := by
        rw [permissionsOn_eq holds read]
        exact readPage_permissions whole listing room id
      have runs : (TableStore.listPermissions id filter listing.cursor size).run .never
          "list permissions on document" 3 tables.database =
            (.ok ((Scope.document id).page memory.contents listing listing.cursor.truncate),
              tables.database, 5) :=
        (Body.run_query_ok looked).trans ((Body.run_query_ok selected).trans rfl)
      rw [TableStore.snapshot_of_run runs]
      rfl

private theorem listDocuments (holds : tables.Holds memory) (intact : memory.Integrity)
    (whole : memory.contents.Whole) (listing : Listing) {size : PageSize}
    (valid : listing.validate = .ok (filter, size)) (id : PrincipalId) :
    TableStore.listDocuments ⟨tables.database, false⟩ id filter listing.cursor size =
      (Scope.principal id).answer memory.contents listing listing.cursor.truncate := by
  obtain ⟨read, room⟩ := Listing.validate_ok_iff.1 valid
  have selected : ((TableStore.documentsOf tables.database id filter).bind fun rows =>
      TableStore.readPage DocumentPermission.ofRow
        ((TableStore.documentOrder listing.cursor.sortField).select rows listing.cursor size)
        listing.cursor) =
      .ok ((Scope.principal id).page memory.contents listing listing.cursor.truncate) := by
    rw [documentsOf_eq holds intact read]
    exact readPage_documents whole listing room id
  rw [TableStore.listDocuments, Scope.answer, valid]
  simp only [selected]
  rfl

theorem step_list (holds : tables.Holds memory) (intact : memory.Integrity)
    (whole : memory.contents.Whole) (scope : Scope α) (listing : Listing) (moment : Moment) :
    TableStore.step ⟨tables.database, false⟩ moment (scope.list listing) =
      (scope.answer memory.contents listing listing.cursor.truncate, ⟨tables.database, false⟩) := by
  cases scope with
  | document id =>
      simp only [TableStore.step, TableStore.stepUnder, Scope.list]
      cases valid : listing.validate with
      | error failure => simp [Scope.answer, valid]
      | ok checked =>
          rw [← listPermissions holds intact whole listing valid id]
          rfl
  | principal id =>
      simp only [TableStore.step, TableStore.stepUnder, Scope.list]
      cases valid : listing.validate with
      | error failure => simp [Scope.answer, valid]
      | ok checked =>
          rw [← listDocuments holds intact whole listing valid id]
          rfl

end StoreTables.Holds
end DocAccess
