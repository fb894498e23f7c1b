import DocAccess.Testing.Session

/-!
# Fixtures

A user who owns documents, and short ways to make what a check needs.
-/

set_option autoImplicit false

namespace DocAccess.Testing

/-- A user who owns the documents that are made through the fixture. -/
structure Fixture where
  owner : UserId
  deriving DecidableEq

namespace Fixture

variable {σ : Type}

def new : Run σ Fixture :=
  Run.draw >>= fun id => pure ⟨⟨id⟩⟩

variable [Store σ]

def document (fixture : Fixture) (name : String) : Run σ DocumentId :=
  Run.call (.createDocument fixture.owner (.named name))

def documents (fixture : Fixture) (count : Nat) : Run σ (List DocumentId) :=
  (List.range count).mapM fun index => fixture.document ("doc-" ++ Numeral.text index)

/-- Gives a level on a document to a number of new users. -/
def shareWithUsers (document : DocumentId) (count : Nat) (level : PermissionLevel) :
    Run σ (List UserId) :=
  (List.range count).mapM fun _ => do
    let user : UserId := ⟨← Run.draw⟩
    Run.call (.upsertUser user document level)
    return user

/-- Mints a guest on a document, on behalf of the owner. -/
def guest (fixture : Fixture) (document : DocumentId) (level : PermissionLevel) :
    Run σ GuestId :=
  Run.call (.createGuest (.ofUser fixture.owner) document level)

end Fixture
end DocAccess.Testing
