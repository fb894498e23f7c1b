import DocAccess.Level
import DocAccess.Principal
import DocAccess.Time.Timestamp

/-!
# Records

Documents, permissions and guests as callers see them. A document has no owner
field: its owner is the holder of a permission of level owner, written when the
document is created.

The times of a record are points in time, unless it is said otherwise: a record
that comes from outside may have civil times.
-/

set_option autoImplicit false

namespace DocAccess

structure Document (Time : Type := Timestamp) where
  id : DocumentId
  name : Option String
  description : Option String
  createdAt : Time
  lastModifiedAt : Time
  deriving DecidableEq

/-- A document and the level that some principal holds on it. -/
structure DocumentPermission (Time : Type := Timestamp) where
  document : Document Time
  level : PermissionLevel
  deriving DecidableEq

/-- The access of one principal to one document. -/
structure Permission (Time : Type := Timestamp) where
  documentId : DocumentId
  recipientId : PrincipalId
  recipientType : RecipientType
  level : PermissionLevel
  createdBy : PrincipalId
  createdAt : Time
  lastModifiedAt : Time
  deriving DecidableEq

/-- A principal minted for one document. -/
structure Guest (Time : Type := Timestamp) where
  id : GuestId
  documentId : DocumentId
  createdBy : PrincipalId
  createdAt : Time
  deriving DecidableEq

/-- The fields that a caller may set on a document; an absent one is left as
it is. -/
structure DocumentFields where
  name : Option String := none
  description : Option String := none
  deriving DecidableEq, Repr

namespace DocumentFields

def named (name : String) : DocumentFields := { name := some name }

def withDescription (fields : DocumentFields) (description : String) : DocumentFields :=
  { fields with description := some description }

def isEmpty (fields : DocumentFields) : Bool :=
  fields.name.isNone && fields.description.isNone

end DocumentFields

/-! ## Changes -/

def Document.ofFields (id : DocumentId) (fields : DocumentFields) (now : Timestamp) : Document where
  id := id
  name := fields.name
  description := fields.description
  createdAt := now
  lastModifiedAt := now

/-- A document with the given fields set; an absent field stays as it is. -/
def Document.withFields (document : Document) (fields : DocumentFields) : Document :=
  { document with
    name := fields.name.or document.name
    description := fields.description.or document.description }

/-- The permission of a new document's creator. -/
def Permission.ofOwner (creator : UserId) (document : DocumentId) (now : Timestamp) :
    Permission where
  documentId := document
  recipientId := .ofUser creator
  recipientType := .user
  level := .owner
  createdBy := .ofUser creator
  createdAt := now
  lastModifiedAt := now

/-- The permission of a user who had none. -/
def Permission.ofUser (user : UserId) (document : DocumentId) (level : PermissionLevel)
    (now : Timestamp) : Permission where
  documentId := document
  recipientId := .ofUser user
  recipientType := .user
  level := level
  createdBy := .ofUser user
  createdAt := now
  lastModifiedAt := now

def Permission.ofGuest (guest : Guest) (level : PermissionLevel) : Permission where
  documentId := guest.documentId
  recipientId := .ofGuest guest.id
  recipientType := .guest
  level := level
  createdBy := guest.createdBy
  createdAt := guest.createdAt
  lastModifiedAt := guest.createdAt

/-- A permission with another level, set now. -/
def Permission.withLevel (permission : Permission) (level : PermissionLevel) (now : Timestamp) :
    Permission :=
  { permission with level := level, lastModifiedAt := now }

end DocAccess
