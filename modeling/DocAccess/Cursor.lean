import DocAccess.Record

/-!
# Cursors and pages

A listing is ordered by a time and then an identifier, both descending. A
cursor is the last position that a client has seen in that order; it lives with
the client and is frozen there, so a row that moves forward in time after the
cursor was handed out is passed over, and a row already passed does not come
again.
-/

set_option autoImplicit false

namespace DocAccess

/-- Which time of a row a listing is ordered by. -/
inductive SortField where
  | createdAt
  | lastModifiedAt
  deriving DecidableEq, Repr, Inhabited

namespace SortField

def code : SortField → Nat
  | .createdAt => 0
  | .lastModifiedAt => 1

def ofCode : Nat → Except ValueError SortField
  | 0 => .ok .createdAt
  | 1 => .ok .lastModifiedAt
  | given => .error (.unknownSortField given)

/-- The name of the case, which records use. -/
def name : SortField → String
  | .createdAt => "CreatedAt"
  | .lastModifiedAt => "LastModifiedAt"

end SortField

/-- The position of a row in a listing. -/
structure OrderKey where
  time : Timestamp
  id : Uuid
  deriving DecidableEq

namespace OrderKey

/-- Whether a key comes before another, by time and then by identifier. -/
def before (a b : OrderKey) : Bool :=
  a.time.before b.time || (a.time = b.time && a.id.before b.id)

end OrderKey

/-- Rows that have a position under either sort field. -/
class Keyed (α : Type) where
  orderKey : SortField → α → OrderKey

/-- Rows of a document listing are placed by the document. -/
instance : Keyed DocumentPermission where
  orderKey
    | .createdAt, row => ⟨row.document.createdAt, row.document.id.uuid⟩
    | .lastModifiedAt, row => ⟨row.document.lastModifiedAt, row.document.id.uuid⟩

/-- Rows of a permission listing are placed by the permission and its
recipient. -/
instance : Keyed Permission where
  orderKey
    | .createdAt, row => ⟨row.createdAt, row.recipientId.uuid⟩
    | .lastModifiedAt, row => ⟨row.lastModifiedAt, row.recipientId.uuid⟩

/-- A position from which a listing resumes. -/
structure Cursor (Time : Type := Timestamp) where
  sortField : SortField
  lastSeenTime : Time
  lastSeenId : Uuid
  deriving DecidableEq

namespace Cursor

def key (cursor : Cursor) : OrderKey :=
  ⟨cursor.lastSeenTime, cursor.lastSeenId⟩

/-- Whether a row with this key lies strictly after the cursor, that is, strictly
below it. -/
def admits (cursor : Cursor) (key : OrderKey) : Bool :=
  key.before cursor.key

/-- The same position with its time rounded down to whole microseconds. -/
def truncate (cursor : Cursor) : Cursor :=
  { cursor with lastSeenTime := cursor.lastSeenTime.truncate }

/-- The position before the newest row: now, with the greatest identifier.
There is none while the clock cannot be read. -/
def beginning? (clock : Clock) (sortField : SortField) : Option Cursor :=
  clock.now?.map fun now => ⟨sortField, now, Uuid.max⟩

/-- The position after a page: that of its last row, or unchanged if it has
none. -/
def advance {α : Type} [Keyed α] (cursor : Cursor) (page : List α) : Cursor :=
  match page.getLast? with
  | some last =>
      let key := Keyed.orderKey cursor.sortField last
      ⟨cursor.sortField, key.time, key.id⟩
  | none => cursor

end Cursor

/-- A number of rows with room for at least one. -/
structure PageSize where
  rows : Nat
  positive : 0 < rows
  deriving DecidableEq

def PageSize.ofNat (rows : Nat) : Except ValueError PageSize :=
  if positive : 0 < rows then .ok ⟨rows, positive⟩ else .error .zeroPageSize

/-- A part of a listing and the position after it. A page without items, not
a cursor that stands still, ends the listing. -/
structure Page (α : Type) where
  items : List α
  next : Cursor
  deriving DecidableEq

namespace Page

variable {α : Type}

/-- The page of some items, resumed from where they end. -/
def ofItems [Keyed α] (items : List α) (request : Cursor) : Page α :=
  ⟨items, request.advance items⟩

def isEmpty (page : Page α) : Bool :=
  page.items.isEmpty

/-- The first rows below a cursor, in descending order, as a page. -/
def select [Keyed α] (rows : List α) (cursor : Cursor) (size : PageSize) : Page α :=
  let key := Keyed.orderKey cursor.sortField
  let below := rows.filter fun row => cursor.admits (key row)
  let sorted := below.mergeSort fun a b => !(key a).before (key b)
  ofItems (sorted.take size.rows) cursor

end Page
end DocAccess
