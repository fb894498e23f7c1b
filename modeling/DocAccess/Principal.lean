import DocAccess.Id
import DocAccess.ValueError

/-!
# Principals

Who can hold a permission: a user of the identity service, or a guest minted
for a single document. A permission row stores the type beside the bare
identifier.
-/

set_option autoImplicit false

namespace DocAccess

/-- Whether a permission is held by a user or by a guest. -/
inductive RecipientType where
  | user
  | guest
  deriving DecidableEq, Repr, Inhabited

namespace RecipientType

/-- Both types, users first. -/
def all : List RecipientType := [.user, .guest]

def text : RecipientType → String
  | .user => "user"
  | .guest => "guest"

/-- The name of the case, which records and diagnostics use. -/
def name : RecipientType → String
  | .user => "User"
  | .guest => "Guest"

/-- The type that a stored text names, case included. -/
def ofText (given : String) : Except ValueError RecipientType :=
  match all.find? (·.text = given) with
  | some recipient => .ok recipient
  | none => .error (.unknownRecipientType given)

theorem ofText_text (recipient : RecipientType) : ofText recipient.text = .ok recipient := by
  cases recipient <;> rfl

end RecipientType

/-- A holder of permissions, with its type. -/
inductive Principal where
  | user (id : UserId)
  | guest (id : GuestId)
  deriving DecidableEq

namespace Principal

def id : Principal → PrincipalId
  | .user id => .ofUser id
  | .guest id => .ofGuest id

def recipientType : Principal → RecipientType
  | .user _ => .user
  | .guest _ => .guest

def debugText : Principal → String
  | .user id => "User(" ++ id.debugText ++ ")"
  | .guest id => "Guest(" ++ id.debugText ++ ")"

end Principal
end DocAccess
