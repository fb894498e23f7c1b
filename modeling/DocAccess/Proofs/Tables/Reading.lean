import DocAccess.Proofs.Tables.Holding
import DocAccess.Proofs.Evolution

/-!
# What the tables tell

Rows are read back as the records that they were written from, since stored times are
whole, and are put in the order of the records.
-/

set_option autoImplicit false

namespace DocAccess

open Relational (Cell Database DatabaseError Row Table)

variable {α : Type}

/-! ## The order of cells -/

theorem Relational.Cell.before_integer (a b : Int) :
    (Cell.integer a).before (.integer b) = decide (a < b) := by
  have order : Cell.order (.integer a) (.integer b) = compare a b := by
    show ((compare a b).then .eq) = compare a b
    cases compare a b <;> rfl
  rw [Cell.before, order, Bool.eq_iff_iff, beq_iff_eq, decide_eq_true_iff]
  exact Std.compare_eq_lt

theorem Timestamp.before_toCell {a b : Timestamp} (whole : a.isWhole = true)
    (whole' : b.isWhole = true) : a.toCell.before b.toCell = a.before b := by
  have rest : a.subNanos.val = 0 := congrArg Fin.val (of_decide_eq_true whole)
  have rest' : b.subNanos.val = 0 := congrArg Fin.val (of_decide_eq_true whole')
  rw [toCell, toCell, Cell.before_integer, before, nanos, nanos, rest, rest']
  exact decide_eq_decide.2 (by omega)

private theorem Timestamp.toCell_inj {a b : Timestamp} (whole : a.isWhole = true)
    (whole' : b.isWhole = true) : a.toCell = b.toCell ↔ a = b := by
  constructor
  · intro same
    have micros : a.micros = b.micros := Cell.integer.inj same
    have rest : a.subNanos.val = 0 := congrArg Fin.val (of_decide_eq_true whole)
    have rest' : b.subNanos.val = 0 := congrArg Fin.val (of_decide_eq_true whole')
    exact eq_of_nanos (by rw [nanos, nanos, micros, rest, rest'])
  · rintro rfl
    rfl

theorem Uuid.before_toCell (a b : Uuid) : a.toCell.before b.toCell = a.before b := rfl

/-! ## The order of rows -/

/-- Rows that carry the positions of records in two of their columns. -/
structure TableStore.OrderColumns.Places (columns : TableStore.OrderColumns) (row : α → Row)
    (key : α → OrderKey) (records : List α) : Prop where
  time : ∀ record ∈ records, (row record).cell columns.time = (key record).time.toCell
  id : ∀ record ∈ records, (row record).cell columns.id = (key record).id.toCell
  whole : ∀ record ∈ records, (key record).time.isWhole = true

namespace TableStore.OrderColumns.Places

variable {columns : OrderColumns} {row : α → Row} {key : α → OrderKey} {records : List α}

private theorem before (places : columns.Places row key records) {a b : α} (first : a ∈ records)
    (second : b ∈ records) : columns.before (row a) (row b) = (key a).before (key b) := by
  have whole := places.whole a first
  have whole' := places.whole b second
  rw [OrderColumns.before, places.time a first, places.time b second, places.id a first,
    places.id b second, Timestamp.before_toCell whole whole', Timestamp.before_toCell whole' whole,
    Uuid.before_toCell, Bool.eq_iff_iff, OrderKey.before_iff]
  simp only [Bool.or_eq_true, Bool.and_eq_true, Bool.not_eq_true']
  constructor
  · intro either
    rcases either with earlier | ⟨notLater, ids⟩
    · exact .inl earlier
    · by_cases same : (key a).time = (key b).time
      · exact .inr ⟨same, ids⟩
      · rcases Timestamp.before_total same with earlier | later
        · exact .inl earlier
        · rw [later] at notLater
          cases notLater
  · intro either
    rcases either with earlier | ⟨same, ids⟩
    · exact .inl earlier
    · rw [same]
      exact .inr ⟨by simp [Timestamp.before], ids⟩

private theorem admits (places : columns.Places row key records) (cursor : Cursor) {record : α}
    (member : record ∈ records) :
    columns.admits cursor (row record) = (key record).before cursor.truncate.key := by
  have whole := places.whole record member
  have bound : cursor.lastSeenTime.toCell = cursor.truncate.lastSeenTime.toCell := rfl
  have whole' : cursor.truncate.lastSeenTime.isWhole = true := Timestamp.isWhole_truncate _
  rw [OrderColumns.admits, places.time record member, places.id record member, bound,
    Timestamp.before_toCell whole whole', Uuid.before_toCell,
    decide_eq_decide.2 (Timestamp.toCell_inj whole whole')]
  rfl

/-- A page of rows is the page of their records, from the cursor rounded down. -/
theorem select (places : columns.Places row key records) (cursor : Cursor) (size : PageSize) :
    columns.select (records.map row) cursor size =
      ((rowsBelow key records cursor.truncate.key).take size.rows).map row := by
  have below : (records.map row).filter (columns.admits cursor) =
      (records.filter fun record => (key record).before cursor.truncate.key).map row := by
    rw [List.filter_map]
    refine congrArg (List.map row) (List.filter_congr fun record member => ?_)
    exact places.admits cursor member
  rw [OrderColumns.select, below, rowsBelow, List.map_take,
    List.map_mergeSort (s := fun a b => !columns.before a b)]
  intro a first b second
  rw [precedes, places.before (List.mem_filter.1 first).1 (List.mem_filter.1 second).1]

end TableStore.OrderColumns.Places

/-! ## Records -/

theorem Document.ofRow_eq {document : Document} (whole : ∀ field, (document.time field).isWhole) :
    Document.ofRow document.toRow = .ok document := by
  have created : document.createdAt.truncate = document.createdAt :=
    (Timestamp.truncate_eq_self_iff _).2 (whole .createdAt)
  have modified : document.lastModifiedAt.truncate = document.lastModifiedAt :=
    (Timestamp.truncate_eq_self_iff _).2 (whole .lastModifiedAt)
  rw [Document.ofRow_toRow, created, modified]

theorem Permission.ofRow_eq {permission : Permission}
    (whole : ∀ field, (permission.time field).isWhole) :
    Permission.ofRow (Permission.select permission.toRow) = .ok permission := by
  have created : permission.createdAt.truncate = permission.createdAt :=
    (Timestamp.truncate_eq_self_iff _).2 (whole .createdAt)
  have modified : permission.lastModifiedAt.truncate = permission.lastModifiedAt :=
    (Timestamp.truncate_eq_self_iff _).2 (whole .lastModifiedAt)
  rw [Permission.ofRow_select_toRow, created, modified]

theorem Guest.ofRow_eq {guest : Guest} (whole : guest.createdAt.isWhole) :
    Guest.ofRow guest.toRow = .ok guest := by
  rw [Guest.ofRow_toRow, (Timestamp.truncate_eq_self_iff _).2 whole]

namespace Contents.Whole

variable {contents : Contents}

theorem document (whole : contents.Whole) {document : Document}
    (member : document ∈ contents.documents) (field : SortField) :
    (document.time field).isWhole = true :=
  whole _ (.inl ⟨document, member, field, rfl⟩)

theorem permission (whole : contents.Whole) {permission : Permission}
    (member : permission ∈ contents.permissions) (field : SortField) :
    (permission.time field).isWhole = true :=
  whole _ (.inr (.inl ⟨permission, member, field, rfl⟩))

theorem guest (whole : contents.Whole) {guest : Guest} (member : guest ∈ contents.guests) :
    guest.createdAt.isWhole = true :=
  whole _ (.inr (.inr ⟨guest, member, rfl⟩))

end Contents.Whole

theorem mapM_map_ok {β ε : Type} {write : α → β} {read : β → Except ε α} {records : List α}
    (reads : ∀ record ∈ records, read (write record) = .ok record) :
    (records.map write).mapM read = .ok records := by
  induction records with
  | nil => rfl
  | cons record records ih =>
      rw [List.map_cons, List.mapM_cons, reads record List.mem_cons_self,
        ih fun other member => reads other (List.mem_cons_of_mem record member)]
      rfl

namespace StoreTables.Holds

variable {tables : StoreTables} {memory : MemoryStore}

theorem rows_documents (holds : tables.Holds memory) :
    tables.database.rows "documents" = .ok (memory.contents.documents.map Document.toRow) := by
  rw [Database.rows, tables.table_documents]
  exact congrArg Except.ok holds.documents.rows_eq

theorem rows_permissions (holds : tables.Holds memory) :
    tables.database.rows "permissions" =
      .ok (memory.contents.permissions.map Permission.toRow) := by
  rw [Database.rows, tables.table_permissions]
  exact congrArg Except.ok holds.permissions.rows_eq

theorem rows_guests (holds : tables.Holds memory) :
    tables.database.rows "guests" = .ok (memory.contents.guests.map Guest.toRow) := by
  rw [Database.rows, tables.table_guests]
  exact congrArg Except.ok holds.guests.rows_eq

theorem contents_eq (holds : tables.Holds memory) (whole : memory.contents.Whole) :
    TableStore.contents ⟨tables.database, false⟩ = .ok memory.contents := by
  have documents : (memory.contents.documents.map Document.toRow).mapM Document.ofRow =
      .ok memory.contents.documents :=
    mapM_map_ok fun _ member => Document.ofRow_eq (whole.document member)
  have permissions : (memory.contents.permissions.map Permission.toRow).mapM
      (fun row => Permission.ofRow (Permission.select row)) = .ok memory.contents.permissions :=
    mapM_map_ok fun _ member => Permission.ofRow_eq (whole.permission member)
  have guests : (memory.contents.guests.map Guest.toRow).mapM Guest.ofRow =
      .ok memory.contents.guests :=
    mapM_map_ok fun _ member => Guest.ofRow_eq (whole.guest member)
  simp only [TableStore.contents, holds.rows_documents, holds.rows_permissions, holds.rows_guests,
    bind, Except.bind, documents, permissions, guests]
  rfl

end StoreTables.Holds
end DocAccess
