import DocAccess.Store.Migration
import DocAccess.Store.Operation
import DocAccess.Store.Row
import DocAccess.Store.Transaction

/-!
# The store in tables

Each operation is one statement or one transaction on the database. Constraints
are left to the database: an operation writes what it means to write and reads
from the violation, or from the number of rows that were changed, why it could
not.

An operation runs on a worker. If the worker breaks off, the operation fails and
nothing has been written. A worker looks at the cancellation flag twice before it
starts. Who has asked waits for the worker until a deadline; after it the worker
goes on alone.
-/

set_option autoImplicit false

namespace DocAccess

open Relational (Cell Database DatabaseError Row)

/-- A store that keeps everything in the tables of a database. -/
structure TableStore where
  database : Database
  /-- Whether another connection holds the write lock. -/
  writeLocked : Bool := false

namespace TableStore

variable {α : Type}

/-- A store on a database, which is migrated first. -/
def «open» (clock : Clock) (database : Database) : Outcome Unit × TableStore :=
  let (outcome, migrated) := Migration.migrate clock database
  (outcome, ⟨migrated, false⟩)

/-! ## Running statements -/

/-- What a worker does, unless the operation is given up before it starts. -/
def worker (store : TableStore) (cancellation : Cancellation) (operation : String)
    (work : Outcome α × TableStore) : Outcome α × TableStore :=
  if cancellation.isRaised 0 || cancellation.isRaised 1 then
    (.error (.repository operation .deadlineExceeded), store)
  else work

/-- What a worker does with the time, which it reads before it writes. If the clock
cannot be read the worker breaks off. -/
def clocked (store : TableStore) (operation : String) (moment : Moment)
    (work : Timestamp → Outcome α × TableStore) : Outcome α × TableStore :=
  match moment.clock.now? with
  | some now => work now
  | none => (.error (.repository operation (.workerFailed "the clock cannot be read")), store)

/-- Runs a body in a transaction that may write. -/
def transaction (store : TableStore) (cancellation : Cancellation) (operation : String)
    (body : Body α) : Outcome α × TableStore :=
  let faults : TransactionFaults := { atBegin := if store.writeLocked then some .locked else none }
  let (result, database) := inTransaction cancellation faults operation 2 store.database body
  (.ofExcept result, { store with database := database })

/-- Runs a body on what the database holds, without writing. -/
def snapshot (store : TableStore) (cancellation : Cancellation) (operation : String)
    (body : Body α) : Outcome α :=
  .ofExcept (inTransaction cancellation {} operation 2 store.database body).1

/-- Runs a single statement that writes. If it changes no row, the failure says
what was not there. -/
def execute (store : TableStore) (report : DatabaseError → StoreError) (unchanged : StoreError)
    (statement : Database → Except DatabaseError (Nat × Database)) : Outcome Unit × TableStore :=
  if store.writeLocked then (.error (report .locked), store)
  else
    match statement store.database with
    | .error error => (.error (report error), store)
    | .ok (0, _) => (.error unchanged, store)
    | .ok (_, database) => (.ok (), { store with database := database })

/-- Reads the row of a key in a table as a record. -/
def read (store : TableStore) (operation : String) (table : String) (key : List Cell)
    (missing : StoreError) (ofRow : Row → Except DatabaseError α) : Outcome α :=
  match store.database.row? table key with
  | .error error => .error (.ofDatabase operation error)
  | .ok none => .error missing
  | .ok (some row) =>
      match ofRow row with
      | .error error => .error (.ofDatabase operation error)
      | .ok value => .ok value

/-! ## Documents -/

def createDocument (document : Document) (owner : Permission) : Body DocumentId :=
  let report := StoreError.ofDatabase "create document"
  .execute (fun database => database.insert {} "documents" document.toRow) report <|
    .execute (fun database => database.insert {} "permissions" owner.toRow) report <|
      .done (.ok document.id)

/-- Deletes the permissions and guests of a document, then the document. -/
def deleteDocument (id : DocumentId) : Body Unit :=
  let report := StoreError.ofDatabase "delete document"
  let refersTo (position : Nat) (row : Row) : Bool := row.cell position = id.toCell
  .execute (fun database => database.deleteWhere "permissions" (refersTo 2)) report <|
    .execute (fun database => database.deleteWhere "guests" (refersTo 1)) report <|
      .attempt (fun database => database.delete {} "documents" [id.toCell]) report
        fun deleted => .done (if deleted = 0 then .error (.documentNotFound id) else .ok ())

/-! ## Permissions -/

/-- Whether the row of a permission is held by a recipient of a type. -/
def isHeldBy (recipient : RecipientType) (row : Row) : Bool :=
  row.cell 1 = .text recipient.text

/-- Writes the permission of a user, or the level of the one that is there. -/
def upsertUser (permission : Permission) (database : Database) :
    Except DatabaseError (Nat × Database) :=
  database.upsert {} "permissions" permission.toRow (isHeldBy .user)
    (Permission.setLevel permission.level permission.lastModifiedAt)

/-- Writes the level of a guest on the document that its record names. -/
def updateGuest (guest : GuestId) (level : PermissionLevel) (now : Timestamp)
    (database : Database) : Except DatabaseError (Nat × Database) :=
  match database.row? "guests" [guest.toCell] with
  | .error error => .error error
  | .ok none => .ok (0, database)
  | .ok (some record) =>
      database.update "permissions" [guest.toCell, record.cell 1] (isHeldBy .guest)
        (Permission.setLevel level now)

/-! ## Guests -/

def createGuest (guest : Guest) (permission : Permission) : Body GuestId :=
  let report := StoreError.ofInsertion "create guest"
  .execute (fun database => database.insert {} "guests" guest.toRow) report <|
    .execute (fun database => database.insert {} "permissions" permission.toRow) report <|
      .done (.ok guest.id)

/-! ## Listings -/

/-- The positions, among the selected columns, of time and identifier by which a
listing is ordered. -/
structure OrderColumns where
  time : Nat
  id : Nat
  deriving DecidableEq, Repr

def documentOrder : SortField → OrderColumns
  | .createdAt => ⟨3, 0⟩
  | .lastModifiedAt => ⟨4, 0⟩

def permissionOrder : SortField → OrderColumns
  | .createdAt => ⟨5, 1⟩
  | .lastModifiedAt => ⟨6, 1⟩

namespace OrderColumns

def before (columns : OrderColumns) (a b : Row) : Bool :=
  (a.cell columns.time).before (b.cell columns.time) ||
    (!(b.cell columns.time).before (a.cell columns.time) &&
      (a.cell columns.id).before (b.cell columns.id))

/-- Whether a row lies below a cursor, whose time is rounded down to
microseconds. -/
def admits (columns : OrderColumns) (cursor : Cursor) (row : Row) : Bool :=
  let time := cursor.lastSeenTime.toCell
  (row.cell columns.time).before time ||
    (row.cell columns.time = time && (row.cell columns.id).before cursor.lastSeenId.toCell)

/-- The first selected rows below a cursor, in descending order. -/
def select (columns : OrderColumns) (rows : List Row) (cursor : Cursor) (size : PageSize) :
    List Row :=
  ((rows.filter (columns.admits cursor)).mergeSort fun a b => !columns.before a b).take size.rows

end OrderColumns

def isLevelIn (levels : LevelFilter) (cell : Cell) : Bool :=
  levels.levels.any fun level => cell = .text level.text

/-- The selected columns of the permissions on a document with a level in a set. -/
def permissionsOn (database : Database) (document : DocumentId) (levels : LevelFilter) :
    Except DatabaseError (List Row) :=
  (database.rows "permissions").map fun rows =>
    (rows.filter fun row =>
      row.cell 2 = document.toCell && isLevelIn levels (row.cell 3)).map Permission.select

/-- The rows of the documents on which a principal has a level in a set, each
followed by that level. -/
def documentsOf (database : Database) (principal : PrincipalId) (levels : LevelFilter) :
    Except DatabaseError (List Row) :=
  match database.table "permissions", database.table "documents" with
  | .ok permissions, .ok documents =>
      .ok (permissions.rows.filterMap fun row =>
        if row.cell 0 = principal.toCell && isLevelIn levels (row.cell 3) then
          (documents.row? [row.cell 2]).map fun document => document ++ [row.cell 3]
        else none)
  | .error error, _ => .error error
  | _, .error error => .error error

/-- Reads the rows of a page, the first that cannot be read being reported. -/
def readPage [Keyed α] (ofRow : Row → Except DatabaseError α) (rows : List Row) (cursor : Cursor) :
    Except DatabaseError (Page α) :=
  (rows.mapM ofRow).map fun items => Page.ofItems items cursor

/-- Looks for the document, then reads a page of its permissions. -/
def listPermissions (document : DocumentId) (levels : LevelFilter) (cursor : Cursor)
    (size : PageSize) : Body (Page Permission) :=
  let report := StoreError.ofDatabase "list permissions on document"
  .query (fun database => database.row? "documents" [document.toCell]) report fun row =>
    if row.isNone then .done (.error (.documentNotFound document))
    else
      .query
        (fun database => (permissionsOn database document levels).bind fun rows =>
          readPage Permission.ofRow
            ((permissionOrder cursor.sortField).select rows cursor size) cursor)
        report fun page => .done (.ok page)

def listDocuments (store : TableStore) (principal : PrincipalId) (levels : LevelFilter)
    (cursor : Cursor) (size : PageSize) : Outcome (Page DocumentPermission) :=
  let page := (documentsOf store.database principal levels).bind fun rows =>
    readPage DocumentPermission.ofRow
      ((documentOrder cursor.sortField).select rows cursor size) cursor
  .ofExcept (page.mapError (.ofDatabase "list documents by principal"))

/-! ## The store -/

/-- What the worker of an operation does, which may be given up. -/
def stepUnder (cancellation : Cancellation) (store : TableStore) (moment : Moment)
    (operation : Operation α) : Outcome α × TableStore :=
  let name := operation.name
  match operation with
  | .createDocument creator fields =>
      store.worker cancellation name <| store.clocked name moment fun now =>
        let document := Document.ofFields ⟨moment.drawn⟩ fields now
        store.transaction cancellation name
          (createDocument document (.ofOwner creator document.id now))
  | .getDocument id =>
      store.worker cancellation name
        (store.read name "documents" [id.toCell] (.documentNotFound id) Document.ofRow, store)
  | .updateDocument id fields =>
      if fields.isEmpty then (.ok (), store)
      else
        store.worker cancellation name <| store.clocked name moment fun now =>
          store.execute (.ofDatabase name) (.documentNotFound id) fun database =>
            database.update "documents" [id.toCell] (fun _ => true) (Document.setFields fields now)
  | .deleteDocument id =>
      store.worker cancellation name (store.transaction cancellation name (deleteDocument id))
  | .upsertUser user document level =>
      store.worker cancellation name <| store.clocked name moment fun now =>
        store.execute (.ofInsertion name) (.heldByGuest user document)
          (upsertUser (.ofUser user document level now))
  | .updateGuest guest level =>
      store.worker cancellation name <| store.clocked name moment fun now =>
        store.execute (.ofDatabase name) (.guestPermissionNotFound guest)
          (updateGuest guest level now)
  | .getPermission document principal =>
      store.worker cancellation name
        (store.read name "permissions" [principal.toCell, document.toCell]
          (.permissionNotFound principal document) fun row =>
            Permission.ofRow (Permission.select row), store)
  | .deletePermission principal document =>
      store.worker cancellation name <|
        store.execute (.ofDatabase name) (.permissionNotFound principal document) fun database =>
          database.delete {} "permissions" [principal.toCell, document.toCell]
  | .listPermissions document listing =>
      match listing.validate with
      | .error failure => (.error failure, store)
      | .ok (levels, size) =>
          store.worker cancellation name
            (store.snapshot cancellation name
              (listPermissions document levels listing.cursor size), store)
  | .listDocuments principal listing =>
      match listing.validate with
      | .error failure => (.error failure, store)
      | .ok (levels, size) =>
          store.worker cancellation name
            (store.listDocuments principal levels listing.cursor size, store)
  | .createGuest creator document level =>
      store.worker cancellation name <| store.clocked name moment fun now =>
        let guest : Guest := ⟨⟨moment.drawn⟩, document, creator, now⟩
        store.transaction cancellation name (createGuest guest (.ofGuest guest level))
  | .getGuest guest =>
      store.worker cancellation name
        (store.read name "guests" [guest.toCell] (.guestNotFound guest) Guest.ofRow, store)

def step (store : TableStore) (moment : Moment) (operation : Operation α) :
    Outcome α × TableStore :=
  store.stepUnder .never moment operation

/-- Runs an operation under a deadline. If it passes the flag goes up, and the answer says
so, whatever comes of the worker; the store is the one that the worker leaves. -/
def stepWithin (passed : Option Cancellation) (store : TableStore) (moment : Moment)
    (operation : Operation α) : Outcome α × TableStore :=
  match passed with
  | none => store.step moment operation
  | some cancellation =>
      let ends := store.stepUnder cancellation moment operation
      if operation.reachesStore then
        (.error (.repository operation.name .deadlineExceeded), ends.2)
      else ends

/-- Documents and guests get a new identifier before anything is looked at. -/
def draws (_ : TableStore) : Operation α → Bool
  | .createDocument _ _ => true
  | .createGuest _ _ _ => true
  | _ => false

instance : Store TableStore where
  step := step
  draws := draws

end TableStore
end DocAccess
