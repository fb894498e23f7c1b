import DocAccess.Testing.Drain
import DocAccess.Testing.Fixture

/-!
# Conformance

Checks that any kind of store must pass, each on a store that holds nothing. A
check makes a few calls and breaks off at the first answer that is not as it
should be.
-/

set_option autoImplicit false

namespace DocAccess.Testing.Conformance

open Run (call draw ensure expect expectFailure beginning)

variable {σ : Type} [Store σ]

/-- The document as it must be found. -/
def getDocument (id : DocumentId) : Run σ Document :=
  expect (call (.getDocument id))

/-- The permission as it must be found. -/
def getPermission (document : DocumentId) (principal : PrincipalId) : Run σ Permission :=
  expect (call (.getPermission document principal))

/-- Creating a document makes its creator the owner. -/
def creatorIsOwner : Run σ Unit := do
  let fixture ← Fixture.new
  let id ← expect (fixture.document "owned")
  let permission ← getPermission id (.ofUser fixture.owner)
  ensure (permission.level = .owner)
  ensure (permission.recipientType = .user)
  ensure (permission.createdBy = .ofUser fixture.owner)
  let document ← getDocument id
  ensure (document.name = some "owned")
  ensure (document.createdAt = document.lastModifiedAt)
  ensure (permission.createdAt = document.createdAt)

/-- An update sets the given fields only and never moves the time of change
back. -/
def updateOverwritesPresentFields : Run σ Unit := do
  let fixture ← Fixture.new
  let fields := (DocumentFields.named "draft").withDescription "first"
  let id ← expect (call (.createDocument fixture.owner fields))
  let before ← getDocument id
  expect (call (.updateDocument id { description := some "second" }))
  let after ← getDocument id
  ensure (after.name = some "draft")
  ensure (after.description = some "second")
  ensure (!after.lastModifiedAt.before before.lastModifiedAt)
  ensure (after.createdAt = before.createdAt)
  let missing : DocumentId := ⟨← draw⟩
  expectFailure .notFound (call (.updateDocument missing (.named "x")))

/-- Giving a user a level sets it, whatever it was, and leaves a single
permission. -/
def upsertIsIdempotent : Run σ Unit := do
  let fixture ← Fixture.new
  let id ← expect (fixture.document "shared")
  let user : UserId := ⟨← draw⟩
  [PermissionLevel.viewer, .editor, .editor].forM fun level => do
    expect (call (.upsertUser user id level))
    let permission ← getPermission id (.ofUser user)
    ensure (permission.level = level)
    ensure (permission.createdBy = .ofUser user)
  let rows ← expect (drainPermissions id PermissionLevel.all .createdAt 10)
  ensure (rows.length = 2)
  ensure (rows.countP (fun row => row.recipientId = .ofUser user) = 1)
  let missing : DocumentId := ⟨← draw⟩
  expectFailure .notFound (call (.upsertUser user missing .viewer))

/-- A permission of a guest is never given to a user. -/
def upsertOntoGuestConflicts : Run σ Unit := do
  let fixture ← Fixture.new
  let id ← expect (fixture.document "guarded")
  let guest ← expect (fixture.guest id .viewer)
  expectFailure .uniqueConflict (call (.upsertUser ⟨guest.uuid⟩ id .editor))
  let permission ← getPermission id (.ofGuest guest)
  ensure (permission.recipientType = .guest)
  ensure (permission.level = .viewer)

/-- A guest belongs to one document and outlives its permission. -/
def guestLifecycle : Run σ Unit := do
  let fixture ← Fixture.new
  let id ← expect (fixture.document "linked")
  let guest ← expect (fixture.guest id .viewer)
  let record ← expect (call (.getGuest guest))
  ensure (record.documentId = id)
  ensure (record.createdBy = .ofUser fixture.owner)
  expect (call (.updateGuest guest .editor))
  let permission ← getPermission id (.ofGuest guest)
  ensure (permission.level = .editor)
  ensure (permission.createdBy = .ofUser fixture.owner)
  expect (call (.deletePermission (.ofGuest guest) id))
  expectFailure .notFound (call (.getPermission id (.ofGuest guest)))
  let _ ← expect (call (.getGuest guest))
  expectFailure .notFound (call (.updateGuest guest .viewer))
  expectFailure .notFound (call (.deletePermission (.ofGuest guest) id))
  let missing : DocumentId := ⟨← draw⟩
  expectFailure .notFound (call (.createGuest (.ofUser fixture.owner) missing .viewer))

/-- A document goes with its permissions and guests. -/
def deleteCascades : Run σ Unit := do
  let fixture ← Fixture.new
  let id ← expect (fixture.document "doomed")
  let users ← expect (Fixture.shareWithUsers id 2 .editor)
  let guest ← expect (fixture.guest id .viewer)
  expect (call (.deleteDocument id))
  expectFailure .notFound (call (.getDocument id))
  let cursor ← beginning .createdAt
  expectFailure .notFound (call (.listPermissions id ⟨PermissionLevel.all, cursor, 10⟩))
  expectFailure .notFound (call (.getGuest guest))
  users.forM fun user => do
    let remaining ← expect (drainDocuments (.ofUser user) PermissionLevel.all .createdAt 10)
    ensure remaining.isEmpty
  expectFailure .notFound (call (.deleteDocument id))

/-- Arguments of a listing are refused before anything is looked up. -/
def invalidListingArguments : Run σ Unit := do
  let fixture ← Fixture.new
  let cursor ← beginning .createdAt
  let owner : PrincipalId := .ofUser fixture.owner
  expectFailure .invalidInput (call (.listDocuments owner ⟨[], cursor, 10⟩))
  expectFailure .invalidInput (call (.listDocuments owner ⟨PermissionLevel.all, cursor, 0⟩))
  let missing : DocumentId := ⟨← draw⟩
  expectFailure .invalidInput (call (.listPermissions missing ⟨[], cursor, 10⟩))
  let stranger : UserId := ⟨← draw⟩
  let page ← expect (call (.listDocuments (.ofUser stranger) ⟨PermissionLevel.all, cursor, 10⟩))
  ensure page.isEmpty
  ensure (page.next = cursor)

/-- Whether keys follow one another in strictly descending order. -/
def isDescending : List OrderKey → Bool
  | first :: second :: rest => second.before first && isDescending (second :: rest)
  | _ => true

/-- Draining gives every row once, in descending order. -/
def paginationIsComplete (rows pageSize : Nat) (sortField : SortField) : Run σ Unit := do
  let fixture ← Fixture.new
  let created ← expect (fixture.documents rows)
  let listed ← expect
    (drainDocuments (.ofUser fixture.owner) PermissionLevel.all sortField pageSize)
  ensure (listed.length = rows)
  let ids := listed.map fun row => row.document.id
  ensure (ids.all created.contains && created.all ids.contains)
  ensure (isDescending (listed.map (Keyed.orderKey sortField)))

/-- A row that was made after a cursor was handed out is not returned on resuming
from it. -/
def paginationMissesForward : Run σ Unit := do
  let fixture ← Fixture.new
  let owner : PrincipalId := .ofUser fixture.owner
  let _ ← expect (fixture.documents 4)
  let cursor ← beginning .createdAt
  let first ← expect (call (.listDocuments owner ⟨PermissionLevel.all, cursor, 2⟩))
  ensure (first.items.length = 2)
  let late ← expect (fixture.document "late")
  let rest ← expect (call (.listDocuments owner ⟨PermissionLevel.all, first.next, 10⟩))
  ensure (rest.items.length = 2)
  ensure (rest.items.all fun row => row.document.id ≠ late)

/-- A set of levels restricts both listings. -/
def levelFilterApplies : Run σ Unit := do
  let fixture ← Fixture.new
  let id ← expect (fixture.document "mixed")
  let _ ← expect (Fixture.shareWithUsers id 3 .viewer)
  let _ ← expect (Fixture.shareWithUsers id 2 .editor)
  let viewers ← expect (drainPermissions id [.viewer] .lastModifiedAt 2)
  ensure (viewers.length = 3)
  ensure (viewers.all fun row => row.level = .viewer)
  let others ← expect (drainPermissions id [.owner, .editor] .createdAt 10)
  ensure (others.length = 3)
  let owned ← expect (drainDocuments (.ofUser fixture.owner) [.viewer] .createdAt 10)
  ensure owned.isEmpty

end DocAccess.Testing.Conformance

namespace DocAccess.Testing

/-- The checks, of which one can be made larger. -/
inductive Check where
  | creatorIsOwner
  | updateOverwritesPresentFields
  | upsertIsIdempotent
  | upsertOntoGuestConflicts
  | guestLifecycle
  | deleteCascades
  | invalidListingArguments
  | paginationIsComplete (rows pageSize : Nat) (sortField : SortField)
  | paginationMissesForward
  | levelFilterApplies
  deriving DecidableEq, Repr

namespace Check

/-- The name of a check. -/
def name : Check → String
  | .creatorIsOwner => "creator_is_owner"
  | .updateOverwritesPresentFields => "update_overwrites_present_fields"
  | .upsertIsIdempotent => "upsert_is_idempotent"
  | .upsertOntoGuestConflicts => "upsert_onto_guest_conflicts"
  | .guestLifecycle => "guest_lifecycle"
  | .deleteCascades => "delete_cascades"
  | .invalidListingArguments => "invalid_listing_arguments"
  | .paginationIsComplete _ _ _ => "pagination_is_complete"
  | .paginationMissesForward => "pagination_misses_forward"
  | .levelFilterApplies => "level_filter_applies"

/-- Every check, the one that can be made larger with the given numbers. -/
def all (rows pageSize : Nat) (sortField : SortField) : List Check := [
  .creatorIsOwner, .updateOverwritesPresentFields, .upsertIsIdempotent, .upsertOntoGuestConflicts,
  .guestLifecycle, .deleteCascades, .invalidListingArguments,
  .paginationIsComplete rows pageSize sortField, .paginationMissesForward, .levelFilterApplies]

/-- What a check does. -/
def run {σ : Type} [Store σ] : Check → Run σ Unit
  | .creatorIsOwner => Conformance.creatorIsOwner
  | .updateOverwritesPresentFields => Conformance.updateOverwritesPresentFields
  | .upsertIsIdempotent => Conformance.upsertIsIdempotent
  | .upsertOntoGuestConflicts => Conformance.upsertOntoGuestConflicts
  | .guestLifecycle => Conformance.guestLifecycle
  | .deleteCascades => Conformance.deleteCascades
  | .invalidListingArguments => Conformance.invalidListingArguments
  | .paginationIsComplete rows pageSize sortField =>
      Conformance.paginationIsComplete rows pageSize sortField
  | .paginationMissesForward => Conformance.paginationMissesForward
  | .levelFilterApplies => Conformance.levelFilterApplies

/-- The checks that every kind of store is put through, with two sizes of the one
that can be made larger. -/
def suite : List Check := [
  .creatorIsOwner, .updateOverwritesPresentFields, .upsertIsIdempotent, .upsertOntoGuestConflicts,
  .guestLifecycle, .deleteCascades, .invalidListingArguments,
  .paginationIsComplete 25 10 .createdAt, .paginationIsComplete 7 3 .lastModifiedAt,
  .paginationMissesForward, .levelFilterApplies]

end Check
end DocAccess.Testing
