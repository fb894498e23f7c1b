import DocAccess.Uuid.Text

/-!
# Identifiers by what they name

Documents, users, guests and principals are named by identifiers of different
types, so that none is passed for another. A principal is a user or a guest,
and its identifier forgets which.
-/

set_option autoImplicit false

namespace DocAccess

/-- What an identifier names. -/
inductive IdKind where
  | document
  | user
  | guest
  | principal
  deriving DecidableEq, Repr

/-- An identifier of a thing of the given kind. -/
structure Id (kind : IdKind) where
  uuid : Uuid
  deriving DecidableEq

abbrev DocumentId := Id .document
/-- Names a user, who is known to an identity service and not stored here. -/
abbrev UserId := Id .user
/-- Names a guest minted for one document. -/
abbrev GuestId := Id .guest
/-- Names any holder of a permission, user or guest. -/
abbrev PrincipalId := Id .principal

/-- The word that a diagnostic text uses for identifiers of a kind. -/
def IdKind.label : IdKind → String
  | .document => "DocumentId"
  | .user => "UserId"
  | .guest => "GuestId"
  | .principal => "PrincipalId"

namespace Id

variable {kind : IdKind}

def ofUser (id : UserId) : PrincipalId := ⟨id.uuid⟩

def ofGuest (id : GuestId) : PrincipalId := ⟨id.uuid⟩

def text (id : Id kind) : String := id.uuid.text

/-- The diagnostic form, which shows the kind. -/
def debugText (id : Id kind) : String :=
  kind.label ++ "(" ++ id.text ++ ")"

def ofText? (source : String) : Option (Id kind) :=
  (Uuid.ofText? source).map Id.mk

instance : Inhabited (Id kind) := ⟨⟨default⟩⟩

instance : Ord (Id kind) := ⟨compareOn uuid⟩

instance : Std.TransOrd (Id kind) := inferInstanceAs (Std.TransCmp (compareOn uuid))

instance : Std.LawfulEqOrd (Id kind) :=
  lawfulEqCmp_compareOn uuid fun a b same => by cases a; cases b; simp_all

end Id
end DocAccess
