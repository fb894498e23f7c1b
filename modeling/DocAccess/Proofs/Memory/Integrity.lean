import DocAccess.Proofs.Memory.Change

/-!
# What holds of the maps at all times

The three maps refer to one another without being made to. That they agree is a property
of all states that operations lead to, however they end and whatever the clock shows:
what a break leaves half written is neither a key nor a reference.
-/

set_option autoImplicit false

namespace DocAccess

namespace MemoryStore

/-- The maps agree with one another. -/
structure Integrity (store : MemoryStore) : Prop where
  document_id (id : DocumentId) (document : Document) :
    store.documents[id]? = some document → document.id = id
  permission_key (key : PermissionKey) (permission : Permission) :
    store.permissions[key]? = some permission → permission.key = key
  guest_id (id : GuestId) (guest : Guest) : store.guests[id]? = some guest → guest.id = id
  permission_document (key : PermissionKey) (permission : Permission) :
    store.permissions[key]? = some permission →
      ∃ document, store.documents[key.document]? = some document
  guest_document (id : GuestId) (guest : Guest) : store.guests[id]? = some guest →
    ∃ document, store.documents[guest.documentId]? = some document
  user_creator (key : PermissionKey) (permission : Permission) :
    store.permissions[key]? = some permission → permission.recipientType = .user →
      permission.createdBy = key.recipient
  guest_record (key : PermissionKey) (permission : Permission) :
    store.permissions[key]? = some permission → permission.recipientType = .guest →
      ∃ guest, store.guests[(⟨key.recipient.uuid⟩ : GuestId)]? = some guest ∧
        guest.documentId = key.document ∧ guest.createdBy = permission.createdBy ∧
        guest.createdAt = permission.createdAt

theorem integrity_empty : Integrity empty := by
  constructor <;> intros <;> simp_all [empty]

namespace Integrity

variable {store : MemoryStore}

theorem unheld (intact : store.Integrity) {key : PermissionKey}
    (missing : store.documents.contains key.document = false) :
    store.permissions.contains key = false := by
  rw [Map.contains_eq_false_iff] at missing ⊢
  cases held : store.permissions[key]? with
  | none => rfl
  | some permission =>
      obtain ⟨document, found⟩ := intact.permission_document key permission held
      rw [missing] at found
      cases found

private theorem poison (intact : store.Integrity) : store.poison.Integrity :=
  ⟨intact.document_id, intact.permission_key, intact.guest_id, intact.permission_document,
    intact.guest_document, intact.user_creator, intact.guest_record⟩

/-- A document in place of another with the same identifier. -/
private theorem replaceDocument (intact : store.Integrity) {id : DocumentId}
    {document changed : Document}
    (found : store.documents[id]? = some document) (same : changed.id = document.id) :
    Integrity { store with documents := store.documents.insert id changed } := by
  have kept (other : DocumentId) (present : ∃ document, store.documents[other]? = some document) :
      ∃ document, (store.documents.insert id changed)[other]? = some document := by
    by_cases this : other = id
    · exact ⟨changed, this ▸ Std.ExtTreeMap.getElem?_insert_self⟩
    · rw [Map.getElem?_insert_of_ne this]
      exact present
  refine { intact with document_id := ?_, permission_document := ?_, guest_document := ?_ }
  · intro other result looked
    rcases Map.getElem?_insert_eq_some looked with ⟨rfl, rfl⟩ | ⟨_, unchanged⟩
    · exact same.trans (intact.document_id _ _ found)
    · exact intact.document_id _ _ unchanged
  · intro key permission looked
    exact kept _ (intact.permission_document key permission looked)
  · intro guest record looked
    exact kept _ (intact.guest_document guest record looked)

/-- A permission in place of another that says the same of who holds it and since when. -/
private theorem replacePermission (intact : store.Integrity) {key : PermissionKey}
    {permission changed : Permission} (held : store.permissions[key]? = some permission)
    (sameKey : changed.key = permission.key)
    (sameType : changed.recipientType = permission.recipientType)
    (sameCreator : changed.createdBy = permission.createdBy)
    (sameTime : changed.createdAt = permission.createdAt) :
    Integrity { store with permissions := store.permissions.insert key changed } := by
  refine { intact with
    permission_key := ?_, permission_document := ?_, user_creator := ?_, guest_record := ?_ }
  · intro other result looked
    rcases Map.getElem?_insert_eq_some looked with ⟨rfl, rfl⟩ | ⟨_, unchanged⟩
    · exact sameKey.trans (intact.permission_key _ _ held)
    · exact intact.permission_key _ _ unchanged
  · intro other result looked
    rcases Map.getElem?_insert_eq_some looked with ⟨rfl, rfl⟩ | ⟨_, unchanged⟩
    · exact intact.permission_document _ _ held
    · exact intact.permission_document _ _ unchanged
  · intro other result looked byUser
    rcases Map.getElem?_insert_eq_some looked with ⟨rfl, rfl⟩ | ⟨_, unchanged⟩
    · exact sameCreator.trans (intact.user_creator _ _ held (sameType.symm.trans byUser))
    · exact intact.user_creator _ _ unchanged byUser
  · intro other result looked byGuest
    rcases Map.getElem?_insert_eq_some looked with ⟨rfl, rfl⟩ | ⟨_, unchanged⟩
    · obtain ⟨guest, found, document, creator, time⟩ :=
        intact.guest_record _ _ held (sameType.symm.trans byGuest)
      exact ⟨guest, found, document, creator.trans sameCreator.symm, time.trans sameTime.symm⟩
    · exact intact.guest_record _ _ unchanged byGuest

/-- A permission that a user holds under its own name, on a document that there is. -/
private theorem addUser (intact : store.Integrity) {key : PermissionKey} {added : Permission}
    (named : added.key = key) (present : ∃ document, store.documents[key.document]? = some document)
    (byUser : added.recipientType = .user) (creator : added.createdBy = key.recipient) :
    Integrity { store with permissions := store.permissions.insert key added } := by
  refine { intact with
    permission_key := ?_, permission_document := ?_, user_creator := ?_, guest_record := ?_ }
  · intro other result looked
    rcases Map.getElem?_insert_eq_some looked with ⟨rfl, rfl⟩ | ⟨_, unchanged⟩
    · exact named
    · exact intact.permission_key _ _ unchanged
  · intro other result looked
    rcases Map.getElem?_insert_eq_some looked with ⟨rfl, rfl⟩ | ⟨_, unchanged⟩
    · exact present
    · exact intact.permission_document _ _ unchanged
  · intro other result looked held
    rcases Map.getElem?_insert_eq_some looked with ⟨rfl, rfl⟩ | ⟨_, unchanged⟩
    · exact creator
    · exact intact.user_creator _ _ unchanged held
  · intro other result looked held
    rcases Map.getElem?_insert_eq_some looked with ⟨rfl, rfl⟩ | ⟨_, unchanged⟩
    · rw [byUser] at held
      cases held
    · exact intact.guest_record _ _ unchanged held

/-- A guest that is new to the store, and its permission. -/
private theorem addGuest (intact : store.Integrity) (guest : Guest) {level : PermissionLevel}
    (present : ∃ document, store.documents[guest.documentId]? = some document)
    (fresh : store.guests[guest.id]? = none) :
    Integrity { store with
      guests := store.guests.insert guest.id guest
      permissions := store.permissions.insert ⟨.ofGuest guest.id, guest.documentId⟩
        (.ofGuest guest level) } := by
  refine { intact with
    permission_key := ?_, guest_id := ?_, permission_document := ?_, guest_document := ?_,
    user_creator := ?_, guest_record := ?_ }
  · intro other result looked
    rcases Map.getElem?_insert_eq_some looked with ⟨rfl, rfl⟩ | ⟨_, unchanged⟩
    · rfl
    · exact intact.permission_key _ _ unchanged
  · intro other result looked
    rcases Map.getElem?_insert_eq_some looked with ⟨rfl, rfl⟩ | ⟨_, unchanged⟩
    · rfl
    · exact intact.guest_id _ _ unchanged
  · intro other result looked
    rcases Map.getElem?_insert_eq_some looked with ⟨rfl, rfl⟩ | ⟨_, unchanged⟩
    · exact present
    · exact intact.permission_document _ _ unchanged
  · intro other result looked
    rcases Map.getElem?_insert_eq_some looked with ⟨rfl, rfl⟩ | ⟨_, unchanged⟩
    · exact present
    · exact intact.guest_document _ _ unchanged
  · intro other result looked held
    rcases Map.getElem?_insert_eq_some looked with ⟨rfl, rfl⟩ | ⟨_, unchanged⟩
    · cases held
    · exact intact.user_creator _ _ unchanged held
  · intro other result looked held
    rcases Map.getElem?_insert_eq_some looked with ⟨rfl, rfl⟩ | ⟨_, unchanged⟩
    · exact ⟨guest, Std.ExtTreeMap.getElem?_insert_self, rfl, rfl, rfl⟩
    · obtain ⟨record, found, rest⟩ := intact.guest_record _ _ unchanged held
      -- The record that was there is another guest's, since this guest had none.
      have apart : (⟨other.recipient.uuid⟩ : GuestId) ≠ guest.id := by
        intro same
        rw [same, fresh] at found
        cases found
      exact ⟨record, (Map.getElem?_insert_of_ne apart).trans found, rest⟩

private theorem erasePermission (intact : store.Integrity) (key : PermissionKey) :
    Integrity { store with permissions := store.permissions.erase key } := by
  refine { intact with
    permission_key := ?_, permission_document := ?_, user_creator := ?_, guest_record := ?_ }
  all_goals
    intro other result looked
    obtain ⟨_, unchanged⟩ := Map.getElem?_erase_eq_some.1 looked
  · exact intact.permission_key _ _ unchanged
  · exact intact.permission_document _ _ unchanged
  · exact intact.user_creator _ _ unchanged
  · exact intact.guest_record _ _ unchanged

/-- Without a document and all that refers to it. -/
private theorem eraseDocument (intact : store.Integrity) (id : DocumentId) :
    Integrity { store with
      documents := store.documents.erase id
      permissions := store.permissions.filter fun key _ => key.document ≠ id
      guests := store.guests.filter fun _ guest => guest.documentId ≠ id } := by
  have kept {other : DocumentId} (apart : other ≠ id)
      (present : ∃ document, store.documents[other]? = some document) :
      ∃ document, (store.documents.erase id)[other]? = some document :=
    present.imp fun _ found => Map.getElem?_erase_eq_some.2 ⟨apart, found⟩
  constructor
  · intro other result looked
    exact intact.document_id _ _ (Map.getElem?_erase_eq_some.1 looked).2
  · intro other result looked
    exact intact.permission_key _ _ (Map.getElem?_filter_eq_some.1 looked).1
  · intro other result looked
    exact intact.guest_id _ _ (Map.getElem?_filter_eq_some.1 looked).1
  · intro other result looked
    obtain ⟨unchanged, apart⟩ := Map.getElem?_filter_eq_some.1 looked
    exact kept (of_decide_eq_true apart) (intact.permission_document _ _ unchanged)
  · intro other result looked
    obtain ⟨unchanged, apart⟩ := Map.getElem?_filter_eq_some.1 looked
    exact kept (of_decide_eq_true apart) (intact.guest_document _ _ unchanged)
  · intro other result looked
    exact intact.user_creator _ _ (Map.getElem?_filter_eq_some.1 looked).1
  · intro other result looked byGuest
    obtain ⟨unchanged, apart⟩ := Map.getElem?_filter_eq_some.1 looked
    obtain ⟨guest, found, document, rest⟩ := intact.guest_record _ _ unchanged byGuest
    -- The guest was minted for the permission's document, so it stays with the permission.
    refine ⟨guest, Map.getElem?_filter_eq_some.2 ⟨found, ?_⟩, document, rest⟩
    rw [document]
    exact apart

theorem change (intact : store.Integrity) {moment : Moment} {α : Type} {operation : Operation α}
    {outcome : Outcome α} {after : MemoryStore}
    (changes : Change store moment operation outcome after) : after.Integrity := by
  cases changes with
  | refused => exact intact
  | answered => exact intact
  | @documentMade creator fields now read fresh =>
      -- No permission names the new document, so none is written over.
      have made : Integrity { store with
          documents := store.documents.insert ⟨moment.drawn⟩
            (.ofFields ⟨moment.drawn⟩ fields now) } := by
        have kept {other : DocumentId}
            (present : ∃ document, store.documents[other]? = some document) :
            ∃ document, (store.documents.insert ⟨moment.drawn⟩
              (.ofFields ⟨moment.drawn⟩ fields now))[other]? = some document := by
          obtain ⟨document, found⟩ := present
          refine ⟨document, (Map.getElem?_insert_of_ne ?_).trans found⟩
          rintro rfl
          rw [fresh] at found
          cases found
        refine { intact with
          document_id := ?_, permission_document := ?_, guest_document := ?_ }
        · intro other result looked
          rcases Map.getElem?_insert_eq_some looked with ⟨rfl, rfl⟩ | ⟨_, unchanged⟩
          · rfl
          · exact intact.document_id _ _ unchanged
        · intro key permission looked
          exact kept (intact.permission_document key permission looked)
        · intro guest record looked
          exact kept (intact.guest_document guest record looked)
      exact made.addUser rfl ⟨_, Std.ExtTreeMap.getElem?_insert_self⟩ rfl rfl
  | documentChanged read sets found => exact intact.replaceDocument found rfl
  | documentDeleted found => exact intact.eraseDocument _
  | userAdded read found fresh => exact intact.addUser rfl ⟨_, found⟩ rfl rfl
  | userChanged read found held byUser => exact intact.replacePermission held rfl rfl rfl rfl
  | guestChanged read found held byGuest => exact intact.replacePermission held rfl rfl rfl rfl
  | permissionDeleted held => exact intact.erasePermission _
  | guestMade read found fresh unheld =>
      exact intact.addGuest ⟨⟨moment.drawn⟩, _, _, _⟩ ⟨_, found⟩ fresh
  | brokenOff unread => exact intact.poison
  | documentHalfChanged unread found =>
      apply Integrity.poison
      exact intact.replaceDocument found rfl
  | guestHalfChanged unread found held =>
      apply Integrity.poison
      exact intact.replacePermission held rfl rfl rfl rfl

theorem step (intact : store.Integrity) (moment : Moment) {α : Type} (operation : Operation α) :
    (store.step moment operation).2.Integrity :=
  intact.change (change_step store moment operation)

theorem after (intact : store.Integrity) (history : List Asked) :
    (Store.after store history).Integrity := by
  induction history generalizing store with
  | nil => exact intact
  | cons asked history ih => exact ih (intact.step asked.moment asked.operation)

end Integrity
end MemoryStore
end DocAccess
