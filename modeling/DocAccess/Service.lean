import DocAccess.Cursor.Token
import DocAccess.Store.Operation

/-!
# The service

The rules between clients and a store. Nobody is made owner except by creating a
document, an update must set something, and a listing that a client asks for
without levels, cursor or a fitting page size gets defaults. These rules come
before anything that is stored is looked at.
-/

set_option autoImplicit false

namespace DocAccess

/-- The page sizes that a service allows. -/
structure ServiceConfig where
  /-- The size of a page if the client asks for none, or for one that is not
  allowed. -/
  defaultPageSize : Nat := 10
  /-- The largest size a client may ask for. -/
  maxPageSize : Nat := 100
  deriving DecidableEq, Repr

def ServiceConfig.pageSize (config : ServiceConfig) : Option Nat → Nat
  | some size =>
      if 0 < size ∧ size ≤ config.maxPageSize then size else config.defaultPageSize
  | none => config.defaultPageSize

namespace Service

variable {α σ : Type}

/-- Why a request is refused before the store is asked, if it is. -/
def refusal? (request : Request α) : Option StoreError :=
  let ownerRefused : StoreError :=
    .invalidInput (request.name ++ ": owner can only be granted by creating a document")
  match request with
  | .updateDocument _ fields =>
      if fields.isEmpty then some (.invalidInput "update document: no fields to update") else none
  | .upsertUser _ _ level => if level = .owner then some ownerRefused else none
  | .updateGuest _ level => if level = .owner then some ownerRefused else none
  | .createGuest _ _ level => if level = .owner then some ownerRefused else none
  | _ => none

/-- Fills in what a client has left out: all levels, the beginning by time of
creation, and the page size. -/
def complete (config : ServiceConfig) (clock : Clock) (listed : ListingRequest) :
    Outcome Listing :=
  let levels := if listed.levels.isEmpty then PermissionLevel.all else listed.levels
  let size := config.pageSize listed.pageSize
  match listed.cursor with
  | some cursor => .ok ⟨levels, cursor, size⟩
  | none =>
      match Cursor.beginning? clock .createdAt with
      | some cursor => .ok ⟨levels, cursor, size⟩
      | none => .aborted

/-- Fills in what has been left out of a listing that goes to the store without the
service's rules. -/
def completePlain (clock : Clock) (listed : ListingRequest) : Outcome Listing :=
  let size := listed.pageSize.getD 10
  match listed.cursor with
  | some cursor => .ok ⟨listed.levels, cursor, size⟩
  | none =>
      match Cursor.beginning? clock .createdAt with
      | some cursor => .ok ⟨listed.levels, cursor, size⟩
      | none => .aborted

/-- What the store is asked for a request. -/
def resolve (config : ServiceConfig) (clock : Clock) (request : Request α) :
    Outcome (Operation α) :=
  match refusal? request with
  | some failure => .error failure
  | none => request.mapListed (complete config clock)

def step [Store σ] (config : ServiceConfig) (store : σ) (moment : Moment) (request : Request α) :
    Outcome α × σ :=
  match resolve config moment.clock request with
  | .ok operation => Store.step store moment operation
  | .error failure => (.error failure, store)
  | .aborted => (.aborted, store)

/-- The cursor of a token that a client has sent, if it has sent one. -/
def decodeCursor : Option String → Except StoreError (Option Cursor)
  | none => .ok none
  | some token =>
      if token.isEmpty then .ok none
      else
        match Cursor.ofToken token with
        | .ok cursor => .ok (some cursor)
        | .error fault => .error (.ofValueError (Cursor.malformed fault))

end Service
end DocAccess
