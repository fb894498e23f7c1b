import DocAccess.Proofs.History
import DocAccess.Proofs.Listing.Order
import DocAccess.Store.Memory
import DocAccess.Store.Tables

/-!
# What a store holds

The rows of a store as records, and the rows that a listing is about. Both kinds of
stores are looked at in this way from outside; neither has it as an operation.
-/

set_option autoImplicit false

namespace DocAccess

open Relational (DatabaseError)

/-- All rows of a store, as records. -/
structure Contents where
  documents : List Document
  permissions : List Permission
  guests : List Guest
  deriving DecidableEq

/-- A kind of store whose rows can be looked at. -/
class InspectedStore (σ : Type) extends Store σ where
  /-- Whether nothing has been asked of the store yet. -/
  isNew : σ → Prop
  /-- The rows, if they all can be read. -/
  contents : σ → Except DatabaseError Contents

/-- The values of the maps. -/
def MemoryStore.contents (store : MemoryStore) : Contents where
  documents := store.documents.toList.map (·.2)
  permissions := store.permissions.toList.map (·.2)
  guests := store.guests.toList.map (·.2)

/-- The rows of the tables, each read back. -/
def TableStore.contents (store : TableStore) : Except DatabaseError Contents := do
  let documents ← store.database.rows "documents"
  let permissions ← store.database.rows "permissions"
  let guests ← store.database.rows "guests"
  return {
    documents := ← documents.mapM Document.ofRow
    permissions := ← permissions.mapM fun row => Permission.ofRow (Permission.select row)
    guests := ← guests.mapM Guest.ofRow }

instance : InspectedStore MemoryStore where
  isNew store := store = .empty
  contents store := .ok store.contents

instance : InspectedStore TableStore where
  isNew store := ∃ clock, TableStore.open clock .empty = (.ok (), store)
  contents := TableStore.contents

/-! ## Listings -/

/-- What a listing goes through: the permissions on a document, or the documents of a
principal. The index is the type of its rows. -/
inductive Scope : Type → Type where
  | document (id : DocumentId) : Scope Permission
  | principal (id : PrincipalId) : Scope DocumentPermission

namespace Scope

variable {α : Type}

/-- The operation that gives a page. -/
def list : Scope α → Listing → Operation (Page α)
  | .document id, listing => .listPermissions id listing
  | .principal id, listing => .listDocuments id listing

/-- The position of a row. -/
def orderKey : Scope α → SortField → α → OrderKey
  | .document _ => Keyed.orderKey
  | .principal _ => Keyed.orderKey

/-- What tells the rows of a scope apart: the recipient or the document. -/
def rowId : Scope α → α → Uuid
  | .document _, row => row.recipientId.uuid
  | .principal _, row => row.document.id.uuid

/-- The level of a row. -/
def level : Scope α → α → PermissionLevel
  | .document _, row => row.level
  | .principal _, row => row.level

/-- All rows of a scope. -/
def rows : Scope α → Contents → List α
  | .document id, contents => contents.permissions.filter fun row => row.documentId = id
  | .principal id, contents => contents.permissions.filterMap fun row =>
      if row.recipientId = id then
        (contents.documents.find? fun document => document.id = row.documentId).map
          fun document => ⟨document, row.level⟩
      else none

/-- The rows of a scope with one of the given levels. -/
def listed (scope : Scope α) (levels : List PermissionLevel) (contents : Contents) : List α :=
  (scope.rows contents).filter fun row => levels.contains (scope.level row)

/-- The failure that there is no such scope. A principal need not be known. -/
def missing? : Scope α → Contents → Option StoreError
  | .document id, contents =>
      if contents.documents.any fun document => document.id = id then none
      else some (.documentNotFound id)
  | .principal _, _ => none

/-- The position after some items, that of the last. -/
def next (scope : Scope α) (cursor : Cursor) (items : List α) : Cursor :=
  match items.getLast? with
  | some last =>
      let key := scope.orderKey cursor.sortField last
      ⟨cursor.sortField, key.time, key.id⟩
  | none => cursor

theorem next_nil (scope : Scope α) (cursor : Cursor) : scope.next cursor [] = cursor := rfl

/-- The page of a listing whose cursor is taken for the given one in comparisons. -/
def page (scope : Scope α) (contents : Contents) (listing : Listing) (seen : Cursor) : Page α :=
  let below := rowsBelow (scope.orderKey seen.sortField) (scope.listed listing.levels contents)
    seen.key
  ⟨below.take listing.pageSize, scope.next listing.cursor (below.take listing.pageSize)⟩

/-- The answer to a listing whose cursor is taken for the given one in comparisons. -/
def answer (scope : Scope α) (contents : Contents) (listing : Listing) (seen : Cursor) :
    Outcome (Page α) :=
  match listing.validate with
  | .error failure => .error failure
  | .ok _ =>
      match scope.missing? contents with
      | some failure => .error failure
      | none => .ok (scope.page contents listing seen)

@[simp]
theorem id_orderKey (scope : Scope α) (sortField : SortField) (row : α) :
    (scope.orderKey sortField row).id = scope.rowId row := by
  cases scope <;> cases sortField <;> rfl

theorem listed_document (id : DocumentId) (levels : List PermissionLevel) (contents : Contents) :
    (document id).listed levels contents = contents.permissions.filter fun row =>
      row.documentId = id && levels.contains row.level := by
  rw [listed, rows, List.filter_filter]
  refine List.filter_congr fun row _ => ?_
  exact Bool.and_comm _ _

theorem listed_principal (id : PrincipalId) (levels : List PermissionLevel)
    (contents : Contents) :
    (principal id).listed levels contents = contents.permissions.filterMap fun row =>
      if row.recipientId = id && levels.contains row.level then
        (contents.documents.find? fun document => document.id = row.documentId).map
          fun document => ⟨document, row.level⟩
      else none := by
  rw [listed, rows, List.filter_filterMap]
  refine congrArg (contents.permissions.filterMap ·) (funext fun row => ?_)
  cases contents.documents.find? fun document => document.id = row.documentId with
  | none => simp
  | some document =>
      by_cases held : row.recipientId = id
      · by_cases admitted : row.level ∈ levels
        · simp [held, Option.filter, level, admitted]
        · simp [held, Option.filter, level, admitted]
      · simp [held]

end Scope

theorem Listing.validate_ok_iff {listing : Listing} {checked : LevelFilter × PageSize} :
    listing.validate = .ok checked ↔
      LevelFilter.ofList listing.levels = .ok checked.1 ∧ checked.2.rows = listing.pageSize := by
  obtain ⟨levels, size, positive⟩ := checked
  unfold validate
  cases read : LevelFilter.ofList listing.levels with
  | error error => simp
  | ok filter =>
      by_cases room : 0 < listing.pageSize
      · simp [PageSize.ofNat, room, eq_comm]
      · simp only [PageSize.ofNat, dif_neg room]
        constructor
        · intro accepted; cases accepted
        · rintro ⟨-, same⟩; exact absurd (same ▸ positive) room

/-- A listing is refused if and only if it names no level or leaves no room for a row. -/
theorem Listing.validate_cases (listing : Listing) :
    (listing.levels ≠ [] ∧ 0 < listing.pageSize ∧ ∃ checked, listing.validate = .ok checked) ∨
      (listing.levels = [] ∨ listing.pageSize = 0) ∧
        ∃ reason, listing.validate = .error (.invalidInput reason) := by
  unfold validate
  cases read : LevelFilter.ofList listing.levels with
  | error error => exact .inr ⟨.inl (LevelFilter.ofList_eq_error_iff.1 read).1, _, rfl⟩
  | ok filter =>
      have nonempty : listing.levels ≠ [] := by
        intro empty
        rw [empty] at read
        cases read
      by_cases room : 0 < listing.pageSize
      · rw [PageSize.ofNat, dif_pos room]
        exact .inl ⟨nonempty, room, _, rfl⟩
      · rw [PageSize.ofNat, dif_neg room]
        exact .inr ⟨.inr (Nat.eq_zero_of_not_pos room), _, rfl⟩

theorem Scope.answer_ne_aborted {α : Type} (scope : Scope α) (contents : Contents)
    (listing : Listing) (seen : Cursor) : scope.answer contents listing seen ≠ .aborted := by
  unfold answer
  cases listing.validate with
  | error failure => simp
  | ok checked => cases scope.missing? contents <;> simp

theorem Scope.answer_ok_iff {α : Type} {scope : Scope α} {contents : Contents} {listing : Listing}
    {seen : Cursor} {page : Page α} :
    scope.answer contents listing seen = .ok page ↔
      listing.levels ≠ [] ∧ 0 < listing.pageSize ∧ scope.missing? contents = none ∧
        page = scope.page contents listing seen := by
  unfold answer
  cases valid : listing.validate with
  | error failure =>
      constructor
      · intro answered
        cases answered
      · intro given
        obtain ⟨levels, size, -, -⟩ := given
        cases read : LevelFilter.ofList listing.levels with
        | error error => exact absurd (LevelFilter.ofList_eq_error_iff.1 read).1 levels
        | ok filter =>
            have accepted : listing.validate = .ok (filter, ⟨listing.pageSize, size⟩) :=
              Listing.validate_ok_iff.2 ⟨read, rfl⟩
            rw [valid] at accepted
            cases accepted
  | ok checked =>
      obtain ⟨read, room⟩ := Listing.validate_ok_iff.1 valid
      have nonempty : listing.levels ≠ [] := by
        intro empty
        rw [empty] at read
        cases read
      have positive : 0 < listing.pageSize := room ▸ checked.2.positive
      cases missing : scope.missing? contents with
      | some failure => simp
      | none => simp [nonempty, positive, eq_comm]

end DocAccess
