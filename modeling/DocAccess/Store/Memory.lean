import DocAccess.Store.Operation
import Std.Data.ExtTreeMap

/-!
# The store in memory

Three maps under one lock. Each operation holds the lock from its first look to
its last write, so none sees another half done. If an operation breaks off while
it holds the lock for writing, the lock is poisoned: what it wrote stays in the
maps, and every later operation that takes the lock fails.

What can be refused without a look at the maps is refused before the lock is
taken.
-/

set_option autoImplicit false

namespace DocAccess

/-- What names a permission: who holds it, and on what. -/
structure PermissionKey where
  recipient : PrincipalId
  document : DocumentId
  deriving DecidableEq

namespace PermissionKey

instance : Ord PermissionKey := ⟨compareLex (compareOn recipient) (compareOn document)⟩

instance : Std.TransOrd PermissionKey :=
  inferInstanceAs (Std.TransCmp (compareLex (compareOn recipient) (compareOn document)))

instance : Std.LawfulEqOrd PermissionKey :=
  lawfulEqCmp_compareLex recipient document fun a b recipients documents => by
    cases a; cases b; simp_all

end PermissionKey

def Permission.key (permission : Permission) : PermissionKey :=
  ⟨permission.recipientId, permission.documentId⟩

/-- A store that keeps everything in memory. -/
structure MemoryStore where
  documents : Std.ExtTreeMap DocumentId Document := ∅
  permissions : Std.ExtTreeMap PermissionKey Permission := ∅
  guests : Std.ExtTreeMap GuestId Guest := ∅
  /-- Whether an operation broke off while it held the lock. -/
  poisoned : Bool := false

namespace MemoryStore

variable {α : Type}

def empty : MemoryStore := {}

/-- The store after an operation broke off in the middle of its writes. -/
def poison (store : MemoryStore) : MemoryStore :=
  { store with poisoned := true }

/-- Runs the part of an operation that needs the lock. -/
def locked (store : MemoryStore) (operation : String) (body : Outcome α × MemoryStore) :
    Outcome α × MemoryStore :=
  if store.poisoned then (.error (.repository operation .poisoned), store) else body

/-- An answer that changes nothing. -/
def answer (store : MemoryStore) (outcome : Outcome α) : Outcome α × MemoryStore :=
  (outcome, store)

/-- The value of a look-up, or the failure that it is missing. -/
def found (missing : StoreError) : Option α → Outcome α
  | some value => .ok value
  | none => .error missing

/-! ## Operations under the lock -/

/-- A document whose identifier is not in use, and its owner's permission. -/
def createDocument (store : MemoryStore) (moment : Moment) (creator : UserId)
    (fields : DocumentFields) : Outcome DocumentId × MemoryStore :=
  let id : DocumentId := ⟨moment.drawn⟩
  if store.documents.contains id then
    (.error (.repository "create document"
      (.invalidData ("document id " ++ id.text ++ " already in use"))), store)
  else
    match moment.clock.now? with
    | none => (.aborted, store.poison)
    | some now =>
        let key : PermissionKey := ⟨.ofUser creator, id⟩
        (.ok id, { store with
          documents := store.documents.insert id (Document.ofFields id fields now)
          permissions := store.permissions.insert key (.ofOwner creator id now) })

/-- The fields are set before the clock is read. -/
def updateDocument (store : MemoryStore) (moment : Moment) (id : DocumentId)
    (fields : DocumentFields) : Outcome Unit × MemoryStore :=
  match store.documents[id]? with
  | none => (.error (.documentNotFound id), store)
  | some document =>
      let changed := document.withFields fields
      match moment.clock.now? with
      | none => (.aborted, { store with documents := store.documents.insert id changed }.poison)
      | some now =>
          (.ok (), { store with
            documents := store.documents.insert id { changed with lastModifiedAt := now } })

/-- The document goes with all its permissions and guests. -/
def deleteDocument (store : MemoryStore) (id : DocumentId) : Outcome Unit × MemoryStore :=
  if store.documents.contains id then
    (.ok (), { store with
      documents := store.documents.erase id
      permissions := store.permissions.filter fun key _ => key.document ≠ id
      guests := store.guests.filter fun _ guest => guest.documentId ≠ id })
  else (.error (.documentNotFound id), store)

/-- A permission of a guest is not given to a user of the same identifier. -/
def upsertUser (store : MemoryStore) (moment : Moment) (user : UserId) (document : DocumentId)
    (level : PermissionLevel) : Outcome Unit × MemoryStore :=
  if store.documents.contains document then
    match moment.clock.now? with
    | none => (.aborted, store.poison)
    | some now =>
        let key : PermissionKey := ⟨.ofUser user, document⟩
        match store.permissions[key]? with
        | none =>
            (.ok (), { store with
              permissions := store.permissions.insert key (.ofUser user document level now) })
        | some existing =>
            if existing.recipientType = .guest then (.error (.heldByGuest user document), store)
            else
              (.ok (), { store with
                permissions := store.permissions.insert key (existing.withLevel level now) })
  else (.error (.documentNotFound document), store)

/-- The permission of a guest on the document it was minted for, with its name. -/
def guestPermission? (store : MemoryStore) (guest : GuestId) :
    Option (PermissionKey × Permission) :=
  match store.guests[guest]? with
  | none => none
  | some record =>
      let key : PermissionKey := ⟨.ofGuest guest, record.documentId⟩
      match store.permissions[key]? with
      | none => none
      | some permission =>
          if permission.recipientType = .guest then some (key, permission) else none

/-- The level is set before the clock is read. -/
def updateGuest (store : MemoryStore) (moment : Moment) (guest : GuestId)
    (level : PermissionLevel) : Outcome Unit × MemoryStore :=
  match store.guestPermission? guest with
  | none => (.error (.guestPermissionNotFound guest), store)
  | some (key, permission) =>
      match moment.clock.now? with
      | none =>
          (.aborted, { store with
            permissions := store.permissions.insert key { permission with level := level } }.poison)
      | some now =>
          (.ok (), { store with
            permissions := store.permissions.insert key (permission.withLevel level now) })

def getPermission (store : MemoryStore) (document : DocumentId) (principal : PrincipalId) :
    Outcome Permission :=
  found (.permissionNotFound principal document)
    store.permissions[(⟨principal, document⟩ : PermissionKey)]?

/-- The record of a guest stays when its permission goes. -/
def deletePermission (store : MemoryStore) (principal : PrincipalId) (document : DocumentId) :
    Outcome Unit × MemoryStore :=
  let key : PermissionKey := ⟨principal, document⟩
  if store.permissions.contains key then
    (.ok (), { store with permissions := store.permissions.erase key })
  else (.error (.permissionNotFound principal document), store)

/-- The permissions on a document with a level in a set. -/
def permissionsOn (store : MemoryStore) (document : DocumentId) (levels : LevelFilter) :
    List Permission :=
  (store.permissions.toList.map (·.2)).filter fun permission =>
    permission.documentId = document && levels.contains permission.level

/-- The documents on which a principal has a level in a set, each with that
level. -/
def documentsOf (store : MemoryStore) (principal : PrincipalId) (levels : LevelFilter) :
    List DocumentPermission :=
  store.permissions.toList.filterMap fun (key, permission) =>
    if key.recipient = principal && levels.contains permission.level then
      (store.documents[key.document]?).map fun document => ⟨document, permission.level⟩
    else none

def listPermissions (store : MemoryStore) (document : DocumentId) (levels : LevelFilter)
    (cursor : Cursor) (size : PageSize) : Outcome (Page Permission) :=
  if store.documents.contains document then
    .ok (Page.select (store.permissionsOn document levels) cursor size)
  else .error (.documentNotFound document)

/-- A guest and its permission; neither may be there already. -/
def createGuest (store : MemoryStore) (moment : Moment) (creator : PrincipalId)
    (document : DocumentId) (level : PermissionLevel) : Outcome GuestId × MemoryStore :=
  if store.documents.contains document then
    let id : GuestId := ⟨moment.drawn⟩
    let key : PermissionKey := ⟨.ofGuest id, document⟩
    if store.guests.contains id || store.permissions.contains key then
      (.error (.uniqueConflict ("create guest: guest " ++ id.text ++ " already exists")), store)
    else
      match moment.clock.now? with
      | none => (.aborted, store.poison)
      | some now =>
          let guest : Guest := ⟨id, document, creator, now⟩
          (.ok id, { store with
            guests := store.guests.insert id guest
            permissions := store.permissions.insert key (.ofGuest guest level) })
  else (.error (.documentNotFound document), store)

/-! ## The store -/

def step (store : MemoryStore) (moment : Moment) (operation : Operation α) :
    Outcome α × MemoryStore :=
  match operation with
  | .createDocument creator fields =>
      store.locked operation.name (store.createDocument moment creator fields)
  | .getDocument id =>
      store.locked operation.name
        (store.answer (found (.documentNotFound id) store.documents[id]?))
  | .updateDocument id fields =>
      if fields.isEmpty then (.ok (), store)
      else store.locked operation.name (store.updateDocument moment id fields)
  | .deleteDocument id => store.locked operation.name (store.deleteDocument id)
  | .upsertUser user document level =>
      store.locked operation.name (store.upsertUser moment user document level)
  | .updateGuest guest level =>
      store.locked operation.name (store.updateGuest moment guest level)
  | .getPermission document principal =>
      store.locked operation.name (store.answer (store.getPermission document principal))
  | .deletePermission principal document =>
      store.locked operation.name (store.deletePermission principal document)
  | .listPermissions document listing =>
      match listing.validate with
      | .error failure => (.error failure, store)
      | .ok (levels, size) =>
          store.locked operation.name
            (store.answer (store.listPermissions document levels listing.cursor size))
  | .listDocuments principal listing =>
      match listing.validate with
      | .error failure => (.error failure, store)
      | .ok (levels, size) =>
          store.locked operation.name
            (store.answer (.ok (Page.select (store.documentsOf principal levels)
              listing.cursor size)))
  | .createGuest creator document level =>
      store.locked operation.name (store.createGuest moment creator document level)
  | .getGuest guest =>
      store.locked operation.name
        (store.answer (found (.guestNotFound guest) store.guests[guest]?))

/-- A document is always given a new identifier, a guest only once its document
has been found. -/
def draws (store : MemoryStore) : Operation α → Bool
  | .createDocument _ _ => !store.poisoned
  | .createGuest _ document _ => !store.poisoned && store.documents.contains document
  | _ => false

instance : Store MemoryStore where
  step := step
  draws := draws

end MemoryStore
end DocAccess
