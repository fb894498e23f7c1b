import DocAccess.Cursor
import DocAccess.Store.Error

/-!
# Operations

What can be asked of a store, with the type of its answer. A listing is asked
for with its levels, cursor and page size; a client may leave cursor and size
out, and the service fills them in.

An operation reads the clock at most once and draws at most one identifier, so
a moment (a reading and the next identifier) is all it can learn of the world.
-/

set_option autoImplicit false

namespace DocAccess

/-- The part of a listing beside its scope, as a store takes it. -/
structure Listing where
  levels : List PermissionLevel
  cursor : Cursor
  pageSize : Nat
  deriving DecidableEq

/-- The part of a listing beside its scope, as a client gives it. -/
structure ListingRequest where
  levels : List PermissionLevel
  cursor : Option Cursor
  pageSize : Option Nat
  deriving DecidableEq

/-- What can be asked about documents, permissions and guests. `Listed` is what a
listing is asked for with; the index is the type of the answer. -/
inductive Action (Listed : Type) : Type → Type where
  /-- Makes a document, whose creator becomes its owner. -/
  | createDocument (creator : UserId) (fields : DocumentFields) : Action Listed DocumentId
  | getDocument (id : DocumentId) : Action Listed Document
  /-- Sets the given fields; without any it does nothing. -/
  | updateDocument (id : DocumentId) (fields : DocumentFields) : Action Listed Unit
  /-- Removes a document with its permissions and guests. -/
  | deleteDocument (id : DocumentId) : Action Listed Unit
  /-- Gives a user a level, or changes the level of a user. -/
  | upsertUser (user : UserId) (document : DocumentId) (level : PermissionLevel) :
      Action Listed Unit
  /-- Changes the level of a guest on the document it was minted for. -/
  | updateGuest (guest : GuestId) (level : PermissionLevel) : Action Listed Unit
  | getPermission (document : DocumentId) (principal : PrincipalId) : Action Listed Permission
  /-- Takes a permission away; the record of a guest stays. -/
  | deletePermission (principal : PrincipalId) (document : DocumentId) : Action Listed Unit
  /-- The permissions on a document, by recipient. -/
  | listPermissions (document : DocumentId) (listed : Listed) : Action Listed (Page Permission)
  | listDocuments (principal : PrincipalId) (listed : Listed) :
      Action Listed (Page DocumentPermission)
  | createGuest (creator : PrincipalId) (document : DocumentId) (level : PermissionLevel) :
      Action Listed GuestId
  | getGuest (guest : GuestId) : Action Listed Guest

/-- What a store is asked. -/
abbrev Operation := Action Listing

/-- What a client asks the service. -/
abbrev Request := Action ListingRequest

namespace Action

variable {Listed Other α : Type}

/-- The name by which failures call an action. -/
def name : Action Listed α → String
  | .createDocument _ _ => "create document"
  | .getDocument _ => "get document"
  | .updateDocument _ _ => "update document"
  | .deleteDocument _ => "delete document"
  | .upsertUser _ _ _ => "upsert user permission"
  | .updateGuest _ _ => "update guest permission"
  | .getPermission _ _ => "get permission"
  | .deletePermission _ _ => "delete permission"
  | .listPermissions _ _ => "list permissions on document"
  | .listDocuments _ _ => "list documents by principal"
  | .createGuest _ _ _ => "create guest"
  | .getGuest _ => "get guest"

/-- The same action with the part of a listing beside its scope replaced, if it is
a listing. -/
def mapListed (complete : Listed → Outcome Other) : Action Listed α → Outcome (Action Other α)
  | .createDocument creator fields => .ok (.createDocument creator fields)
  | .getDocument id => .ok (.getDocument id)
  | .updateDocument id fields => .ok (.updateDocument id fields)
  | .deleteDocument id => .ok (.deleteDocument id)
  | .upsertUser user document level => .ok (.upsertUser user document level)
  | .updateGuest guest level => .ok (.updateGuest guest level)
  | .getPermission document principal => .ok (.getPermission document principal)
  | .deletePermission principal document => .ok (.deletePermission principal document)
  | .listPermissions document listed => (complete listed).bind fun listed =>
      .ok (.listPermissions document listed)
  | .listDocuments principal listed => (complete listed).bind fun listed =>
      .ok (.listDocuments principal listed)
  | .createGuest creator document level => .ok (.createGuest creator document level)
  | .getGuest guest => .ok (.getGuest guest)

end Action

/-- The levels and the size of a listing, or the first fault in them. What is
stored plays no part. -/
def Listing.validate (listing : Listing) : Except StoreError (LevelFilter × PageSize) :=
  match LevelFilter.ofList listing.levels with
  | .error error => .error (.ofValueError error)
  | .ok levels =>
      match PageSize.ofNat listing.pageSize with
      | .error error => .error (.ofValueError error)
      | .ok size => .ok (levels, size)

/-- Whether an operation gets as far as the store. The others are answered from their
arguments. -/
def Action.reachesStore {α : Type} : Operation α → Bool
  | .updateDocument _ fields => !fields.isEmpty
  | .listPermissions _ listing => listing.validate.toBool
  | .listDocuments _ listing => listing.validate.toBool
  | _ => true

/-- What an operation can learn of the world. -/
structure Moment where
  clock : Clock
  /-- The identifier it gets if it draws one. -/
  drawn : Uuid
  deriving DecidableEq

/-- A kind of store. -/
class Store (σ : Type) where
  /-- Runs an operation at a moment. -/
  step : {α : Type} → σ → Moment → Operation α → Outcome α × σ
  /-- Whether an operation draws an identifier. -/
  draws : {α : Type} → σ → Operation α → Bool

/-! ## Wordings that the stores share -/

namespace StoreError

def documentNotFound (id : DocumentId) : StoreError :=
  .notFound ("document " ++ id.text)

def permissionNotFound (principal : PrincipalId) (document : DocumentId) : StoreError :=
  .notFound ("permission of principal " ++ principal.text ++ " on document " ++ document.text)

/-- The guest has no permission that could be changed. -/
def guestPermissionNotFound (guest : GuestId) : StoreError :=
  .notFound ("permission of guest " ++ guest.text)

def guestNotFound (guest : GuestId) : StoreError :=
  .notFound ("guest " ++ guest.text)

/-- A user cannot take the place of a guest. -/
def heldByGuest (user : UserId) (document : DocumentId) : StoreError :=
  .uniqueConflict ("principal " ++ user.text ++ " holds a guest permission on document " ++
    document.text)

end StoreError
end DocAccess
