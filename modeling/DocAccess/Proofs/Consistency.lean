import DocAccess.Proofs.Contents
import DocAccess.Proofs.Memory.Integrity
import Mathlib.Data.List.Nodup

/-!
# Rows that agree with one another

What holds between the rows of a store, whichever way it keeps them.
-/

set_option autoImplicit false

namespace DocAccess

/-- Rows are told apart by their names, what they refer to is there, and a permission
says who gave it: its holder, if that is a user, or else what the record of the guest says. -/
structure Contents.Consistent (contents : Contents) : Prop where
  documents_nodup : (contents.documents.map (·.id)).Nodup
  permissions_nodup : (contents.permissions.map Permission.key).Nodup
  guests_nodup : (contents.guests.map (·.id)).Nodup
  permission_document : ∀ permission ∈ contents.permissions,
    ∃ document ∈ contents.documents, document.id = permission.documentId
  guest_document : ∀ guest ∈ contents.guests,
    ∃ document ∈ contents.documents, document.id = guest.documentId
  user_creator : ∀ permission ∈ contents.permissions, permission.recipientType = .user →
    permission.createdBy = permission.recipientId
  guest_record : ∀ permission ∈ contents.permissions, permission.recipientType = .guest →
    ∃ guest ∈ contents.guests, Id.ofGuest guest.id = permission.recipientId ∧
      guest.documentId = permission.documentId ∧ guest.createdBy = permission.createdBy ∧
        guest.createdAt = permission.createdAt

/-- Whoever holds guests' permissions holds them on one document. -/
def Contents.GuestsSingle (contents : Contents) : Prop :=
  ∀ a ∈ contents.permissions, ∀ b ∈ contents.permissions, a.recipientType = .guest →
    b.recipientType = .guest → a.recipientId = b.recipientId → a.documentId = b.documentId

theorem Id.eq_of_uuid {kind : IdKind} {a b : Id kind} (same : a.uuid = b.uuid) : a = b := by
  cases a
  cases b
  cases same
  rfl

/-- Of rows that are told apart by their names, those of one name are one. -/
theorem filter_eq_singleton {α κ : Type} {name : α → κ} {rows : List α}
    (distinct : (rows.map name).Nodup) {row : α} (member : row ∈ rows) {keeps : α → Bool}
    (kept : keeps row = true)
    (named : ∀ other ∈ rows, keeps other = true → name other = name row) :
    rows.filter keeps = [row] := by
  refine List.perm_singleton.1 ((List.perm_ext_iff_of_nodup (distinct.of_map.filter keeps)
    (List.nodup_singleton row)).2 fun other => ?_)
  rw [List.mem_filter, List.mem_singleton]
  constructor
  · intro given
    exact List.inj_on_of_nodup_map distinct given.1 member (named other given.1 given.2)
  · rintro rfl
    exact ⟨member, kept⟩

theorem Permission.key_eq {a b : Permission} (recipients : a.recipientId = b.recipientId)
    (documents : a.documentId = b.documentId) : a.key = b.key := by
  rw [key, key, recipients, documents]

namespace Contents.Consistent

variable {contents : Contents}

/-- It is the document that the guest was minted for. -/
theorem guestsSingle (consistent : contents.Consistent) : contents.GuestsSingle := by
  intro a first b second byGuest byGuest' same
  obtain ⟨guest, member, named, document, -⟩ := consistent.guest_record a first byGuest
  obtain ⟨guest', member', named', document', -⟩ := consistent.guest_record b second byGuest'
  have sameId : Id.ofGuest guest.id = Id.ofGuest guest'.id :=
    named.trans (same.trans named'.symm)
  have one : guest = guest' :=
    List.inj_on_of_nodup_map consistent.guests_nodup member member'
      (Id.eq_of_uuid (Id.mk.inj sameId))
  rw [← document, ← document', one]

end Contents.Consistent

namespace MemoryStore

/-- Every map keeps its rows under the names that the rows give themselves. -/
structure KeysAgree (store : MemoryStore) : Prop where
  documents : ∀ (id : DocumentId) (document : Document),
    store.documents[id]? = some document → document.id = id
  permissions : ∀ (key : PermissionKey) (permission : Permission),
    store.permissions[key]? = some permission →
      permission.recipientId = key.recipient ∧ permission.documentId = key.document
  guests : ∀ (id : GuestId) (guest : Guest), store.guests[id]? = some guest → guest.id = id

theorem Integrity.keysAgree {store : MemoryStore} (intact : store.Integrity) : store.KeysAgree where
  documents := intact.document_id
  permissions := by
    intro key permission held
    have named := intact.permission_key key permission held
    exact ⟨congrArg PermissionKey.recipient named, congrArg PermissionKey.document named⟩
  guests := intact.guest_id

theorem Integrity.consistent {store : MemoryStore} (intact : store.Integrity) :
    store.contents.Consistent where
  documents_nodup := Map.nodup_map_values intact.document_id
  permissions_nodup := Map.nodup_map_values intact.permission_key
  guests_nodup := Map.nodup_map_values intact.guest_id
  permission_document := by
    intro permission member
    obtain ⟨key, held⟩ := Map.mem_values.1 member
    obtain ⟨document, found⟩ := intact.permission_document key permission held
    have named := intact.document_id _ document found
    rw [← intact.permission_key key permission held] at named found
    exact ⟨document, Map.mem_values.2 ⟨_, found⟩, named⟩
  guest_document := by
    intro guest member
    obtain ⟨id, held⟩ := Map.mem_values.1 member
    obtain ⟨document, found⟩ := intact.guest_document id guest held
    exact ⟨document, Map.mem_values.2 ⟨_, found⟩, intact.document_id _ document found⟩
  user_creator := by
    intro permission member byUser
    obtain ⟨key, held⟩ := Map.mem_values.1 member
    rw [intact.user_creator key permission held byUser, ← intact.permission_key key permission held]
    rfl
  guest_record := by
    intro permission member byGuest
    obtain ⟨key, held⟩ := Map.mem_values.1 member
    obtain ⟨guest, found, rest⟩ := intact.guest_record key permission held byGuest
    have named := intact.guest_id _ guest found
    have keyed := intact.permission_key key permission held
    subst keyed
    refine ⟨guest, Map.mem_values.2 ⟨_, found⟩, ?_, rest⟩
    rw [named]
    rfl

end MemoryStore
end DocAccess
