import DocAccess.Proofs.Contents
import DocAccess.Proofs.Map

/-!
# What an operation does to the maps

One case for each way in which an operation can end, with what it found and what it
left. Invariants are shown over these cases, without another look at the operations.
-/

set_option autoImplicit false

namespace DocAccess

/-- Whether an operation that succeeds changes what is stored. -/
def Action.isWrite {Listed α : Type} : Action Listed α → Bool
  | .createDocument _ _ => true
  | .updateDocument _ fields => !fields.isEmpty
  | .deleteDocument _ => true
  | .upsertUser _ _ _ => true
  | .updateGuest _ _ => true
  | .deletePermission _ _ => true
  | .createGuest _ _ _ => true
  | _ => false

/-- Whether an operation needs the time. -/
def Action.isClocked {Listed α : Type} : Action Listed α → Bool
  | .createDocument _ _ => true
  | .updateDocument _ fields => !fields.isEmpty
  | .upsertUser _ _ _ => true
  | .updateGuest _ _ => true
  | .createGuest _ _ _ => true
  | _ => false

namespace MemoryStore

/-- The ways in which an operation can end. `brokenOff` and the two cases after it are
those of a clock that cannot be read; the lock is poisoned then, and what had been
written stays. -/
inductive Change (store : MemoryStore) (moment : Moment) :
    {α : Type} → Operation α → Outcome α → MemoryStore → Prop where
  | refused {α : Type} {operation : Operation α} {failure : StoreError} :
      Change store moment operation (.error failure) store
  | answered {α : Type} {operation : Operation α} {value : α} (reads : operation.isWrite = false) :
      Change store moment operation (.ok value) store
  | documentMade {creator : UserId} {fields : DocumentFields} {now : Timestamp}
      (read : moment.clock.now? = some now)
      (fresh : store.documents[(⟨moment.drawn⟩ : DocumentId)]? = none) :
      Change store moment (.createDocument creator fields) (.ok ⟨moment.drawn⟩) { store with
        documents := store.documents.insert ⟨moment.drawn⟩ (.ofFields ⟨moment.drawn⟩ fields now)
        permissions := store.permissions.insert ⟨.ofUser creator, ⟨moment.drawn⟩⟩
          (.ofOwner creator ⟨moment.drawn⟩ now) }
  | documentChanged {id : DocumentId} {fields : DocumentFields} {document : Document}
      {now : Timestamp} (read : moment.clock.now? = some now) (sets : fields.isEmpty = false)
      (found : store.documents[id]? = some document) :
      Change store moment (.updateDocument id fields) (.ok ()) { store with
        documents := store.documents.insert id
          { document.withFields fields with lastModifiedAt := now } }
  | documentDeleted {id : DocumentId} {document : Document}
      (found : store.documents[id]? = some document) :
      Change store moment (.deleteDocument id) (.ok ()) { store with
        documents := store.documents.erase id
        permissions := store.permissions.filter fun key _ => key.document ≠ id
        guests := store.guests.filter fun _ guest => guest.documentId ≠ id }
  | userAdded {user : UserId} {id : DocumentId} {level : PermissionLevel} {document : Document}
      {now : Timestamp} (read : moment.clock.now? = some now)
      (found : store.documents[id]? = some document)
      (fresh : store.permissions[(⟨.ofUser user, id⟩ : PermissionKey)]? = none) :
      Change store moment (.upsertUser user id level) (.ok ()) { store with
        permissions := store.permissions.insert ⟨.ofUser user, id⟩ (.ofUser user id level now) }
  | userChanged {user : UserId} {id : DocumentId} {level : PermissionLevel} {document : Document}
      {permission : Permission} {now : Timestamp} (read : moment.clock.now? = some now)
      (found : store.documents[id]? = some document)
      (held : store.permissions[(⟨.ofUser user, id⟩ : PermissionKey)]? = some permission)
      (byUser : permission.recipientType = .user) :
      Change store moment (.upsertUser user id level) (.ok ()) { store with
        permissions := store.permissions.insert ⟨.ofUser user, id⟩
          (permission.withLevel level now) }
  | guestChanged {guest : GuestId} {level : PermissionLevel} {record : Guest}
      {permission : Permission} {now : Timestamp} (read : moment.clock.now? = some now)
      (found : store.guests[guest]? = some record)
      (held : store.permissions[(⟨.ofGuest guest, record.documentId⟩ : PermissionKey)]? =
        some permission)
      (byGuest : permission.recipientType = .guest) :
      Change store moment (.updateGuest guest level) (.ok ()) { store with
        permissions := store.permissions.insert ⟨.ofGuest guest, record.documentId⟩
          (permission.withLevel level now) }
  | permissionDeleted {principal : PrincipalId} {id : DocumentId} {permission : Permission}
      (held : store.permissions[(⟨principal, id⟩ : PermissionKey)]? = some permission) :
      Change store moment (.deletePermission principal id) (.ok ()) { store with
        permissions := store.permissions.erase ⟨principal, id⟩ }
  | guestMade {creator : PrincipalId} {id : DocumentId} {level : PermissionLevel}
      {document : Document} {now : Timestamp} (read : moment.clock.now? = some now)
      (found : store.documents[id]? = some document)
      (fresh : store.guests[(⟨moment.drawn⟩ : GuestId)]? = none)
      (unheld : store.permissions[(⟨.ofGuest ⟨moment.drawn⟩, id⟩ : PermissionKey)]? = none) :
      Change store moment (.createGuest creator id level) (.ok ⟨moment.drawn⟩) { store with
        guests := store.guests.insert ⟨moment.drawn⟩ ⟨⟨moment.drawn⟩, id, creator, now⟩
        permissions := store.permissions.insert ⟨.ofGuest ⟨moment.drawn⟩, id⟩
          (.ofGuest ⟨⟨moment.drawn⟩, id, creator, now⟩ level) }
  | brokenOff {α : Type} {operation : Operation α} (unread : moment.clock.now? = none) :
      Change store moment operation .aborted store.poison
  | documentHalfChanged {id : DocumentId} {fields : DocumentFields} {document : Document}
      (unread : moment.clock.now? = none) (found : store.documents[id]? = some document) :
      Change store moment (.updateDocument id fields) .aborted (poison { store with
        documents := store.documents.insert id (document.withFields fields) })
  | guestHalfChanged {guest : GuestId} {level : PermissionLevel} {record : Guest}
      {permission : Permission} (unread : moment.clock.now? = none)
      (found : store.guests[guest]? = some record)
      (held : store.permissions[(⟨.ofGuest guest, record.documentId⟩ : PermissionKey)]? =
        some permission) :
      Change store moment (.updateGuest guest level) .aborted (poison { store with
        permissions := store.permissions.insert ⟨.ofGuest guest, record.documentId⟩
          { permission with level := level } })

variable {α : Type}

private theorem change_of_locked {store : MemoryStore} {moment : Moment} {operation : Operation α}
    {body : Outcome α × MemoryStore} (changes : Change store moment operation body.1 body.2)
    (name : String) :
    Change store moment operation (store.locked name body).1 (store.locked name body).2 := by
  unfold locked
  split
  · exact .refused
  · exact changes

private theorem change_of_answer {store : MemoryStore} {moment : Moment} {operation : Operation α}
    (reads : operation.isWrite = false) {outcome : Outcome α} (ends : outcome ≠ .aborted) :
    Change store moment operation (store.answer outcome).1 (store.answer outcome).2 := by
  cases outcome with
  | ok value => exact .answered reads
  | error failure => exact .refused
  | aborted => exact absurd rfl ends

theorem found_ne_aborted (missing : StoreError) (value : Option α) :
    found missing value ≠ .aborted := by
  cases value <;> simp [found]

private theorem change_createDocument (store : MemoryStore) (moment : Moment) (creator : UserId)
    (fields : DocumentFields) :
    Change store moment (.createDocument creator fields)
      (store.createDocument moment creator fields).1
      (store.createDocument moment creator fields).2 := by
  unfold createDocument
  cases taken : store.documents.contains (⟨moment.drawn⟩ : DocumentId) with
  | true => simp only [taken, if_true]; exact .refused
  | false =>
      simp only [taken, Bool.false_eq_true, if_false]
      cases read : moment.clock.now? with
      | none => exact .brokenOff read
      | some now => exact .documentMade read (Map.contains_eq_false_iff.1 taken)

private theorem change_updateDocument (store : MemoryStore) (moment : Moment) (id : DocumentId)
    {fields : DocumentFields} (sets : fields.isEmpty = false) :
    Change store moment (.updateDocument id fields) (store.updateDocument moment id fields).1
      (store.updateDocument moment id fields).2 := by
  unfold updateDocument
  cases found : store.documents[id]? with
  | none => exact .refused
  | some document =>
      cases read : moment.clock.now? with
      | none => exact .documentHalfChanged read found
      | some now => exact .documentChanged read sets found

private theorem change_deleteDocument (store : MemoryStore) (moment : Moment) (id : DocumentId) :
    Change store moment (.deleteDocument id) (store.deleteDocument id).1
      (store.deleteDocument id).2 := by
  unfold deleteDocument
  cases present : store.documents.contains id with
  | false => exact .refused
  | true =>
      obtain ⟨document, found⟩ := Map.contains_iff.1 present
      exact .documentDeleted found

private theorem change_upsertUser (store : MemoryStore) (moment : Moment) (user : UserId)
    (id : DocumentId) (level : PermissionLevel) :
    Change store moment (.upsertUser user id level) (store.upsertUser moment user id level).1
      (store.upsertUser moment user id level).2 := by
  unfold upsertUser
  cases present : store.documents.contains id with
  | false => exact .refused
  | true =>
      obtain ⟨document, found⟩ := Map.contains_iff.1 present
      simp only [if_true]
      cases read : moment.clock.now? with
      | none => exact .brokenOff read
      | some now =>
          cases held : store.permissions[(⟨.ofUser user, id⟩ : PermissionKey)]? with
          | none => exact .userAdded read found held
          | some permission =>
              cases recipient : permission.recipientType with
              | guest => simp only [recipient, if_true]; exact .refused
              | user =>
                  simp only [recipient, reduceCtorEq, if_false]
                  exact .userChanged read found held recipient

theorem guestPermission?_of_record {store : MemoryStore} {guest : GuestId} {record : Guest}
    (found : store.guests[guest]? = some record) :
    store.guestPermission? guest =
      store.permissions[(⟨.ofGuest guest, record.documentId⟩ : PermissionKey)]?.bind
        fun permission => if permission.recipientType = .guest then
          some (⟨.ofGuest guest, record.documentId⟩, permission) else none := by
  simp only [guestPermission?, found]
  cases store.permissions[(⟨.ofGuest guest, record.documentId⟩ : PermissionKey)]? <;> rfl

theorem guestPermission?_eq_some_iff {store : MemoryStore} {guest : GuestId} {key : PermissionKey}
    {permission : Permission} :
    store.guestPermission? guest = some (key, permission) ↔
      ∃ record, store.guests[guest]? = some record ∧ key = ⟨.ofGuest guest, record.documentId⟩ ∧
        store.permissions[key]? = some permission ∧ permission.recipientType = .guest := by
  unfold guestPermission?
  cases found : store.guests[guest]? with
  | none => simp
  | some record =>
      simp only [Option.some.injEq, exists_eq_left']
      cases held : store.permissions[(⟨.ofGuest guest, record.documentId⟩ : PermissionKey)]? with
      | none =>
          simp only [reduceCtorEq, false_iff]
          intro given
          obtain ⟨rfl, other, -⟩ := given
          rw [held] at other
          cases other
      | some other =>
          simp only [Option.ite_none_right_eq_some, Option.some.injEq, Prod.mk.injEq]
          constructor
          · intro given
            obtain ⟨byGuest, rfl, rfl⟩ := given
            exact ⟨rfl, held, byGuest⟩
          · intro given
            obtain ⟨rfl, same, byGuest⟩ := given
            rw [held] at same
            cases same
            exact ⟨byGuest, rfl, rfl⟩

private theorem change_updateGuest (store : MemoryStore) (moment : Moment) (guest : GuestId)
    (level : PermissionLevel) :
    Change store moment (.updateGuest guest level) (store.updateGuest moment guest level).1
      (store.updateGuest moment guest level).2 := by
  unfold updateGuest
  cases held : store.guestPermission? guest with
  | none => exact .refused
  | some entry =>
      obtain ⟨key, permission⟩ := entry
      obtain ⟨record, found, rfl, kept, byGuest⟩ := guestPermission?_eq_some_iff.1 held
      cases read : moment.clock.now? with
      | none => exact .guestHalfChanged read found kept
      | some now => exact .guestChanged read found kept byGuest

private theorem change_deletePermission (store : MemoryStore) (moment : Moment)
    (principal : PrincipalId) (id : DocumentId) :
    Change store moment (.deletePermission principal id) (store.deletePermission principal id).1
      (store.deletePermission principal id).2 := by
  unfold deletePermission
  cases present : store.permissions.contains (⟨principal, id⟩ : PermissionKey) with
  | false => simp only [present]; exact .refused
  | true =>
      obtain ⟨permission, held⟩ := Map.contains_iff.1 present
      simp only [present, if_true]
      exact .permissionDeleted held

private theorem change_createGuest (store : MemoryStore) (moment : Moment) (creator : PrincipalId)
    (id : DocumentId) (level : PermissionLevel) :
    Change store moment (.createGuest creator id level)
      (store.createGuest moment creator id level).1
      (store.createGuest moment creator id level).2 := by
  unfold createGuest
  cases present : store.documents.contains id with
  | false => exact .refused
  | true =>
      obtain ⟨document, found⟩ := Map.contains_iff.1 present
      simp only [if_true]
      cases taken : store.guests.contains (⟨moment.drawn⟩ : GuestId) ||
          store.permissions.contains (⟨.ofGuest ⟨moment.drawn⟩, id⟩ : PermissionKey) with
      | true => simp only [if_true]; exact .refused
      | false =>
          obtain ⟨fresh, unheld⟩ := Bool.or_eq_false_iff.1 taken
          simp only [Bool.false_eq_true, if_false]
          cases read : moment.clock.now? with
          | none => exact .brokenOff read
          | some now =>
              exact .guestMade read found (Map.contains_eq_false_iff.1 fresh)
                (Map.contains_eq_false_iff.1 unheld)

/-- Every operation ends in one of the ways. -/
theorem change_step (store : MemoryStore) (moment : Moment) (operation : Operation α) :
    Change store moment operation (store.step moment operation).1
      (store.step moment operation).2 := by
  cases operation with
  | createDocument creator fields =>
      exact change_of_locked (change_createDocument store moment creator fields) _
  | getDocument id => exact change_of_locked (change_of_answer rfl (found_ne_aborted _ _)) _
  | updateDocument id fields =>
      simp only [step]
      cases sets : fields.isEmpty with
      | true => exact .answered (by simp [Action.isWrite, sets])
      | false => exact change_of_locked (change_updateDocument store moment id sets) _
  | deleteDocument id => exact change_of_locked (change_deleteDocument store moment id) _
  | upsertUser user document level =>
      exact change_of_locked (change_upsertUser store moment user document level) _
  | updateGuest guest level =>
      exact change_of_locked (change_updateGuest store moment guest level) _
  | getPermission document principal =>
      exact change_of_locked (change_of_answer rfl (found_ne_aborted _ _)) _
  | deletePermission principal document =>
      exact change_of_locked (change_deletePermission store moment principal document) _
  | listPermissions document listing =>
      simp only [step]
      cases listing.validate with
      | error failure => exact .refused
      | ok checked =>
          refine change_of_locked (change_of_answer rfl ?_) _
          unfold listPermissions
          split <;> simp
  | listDocuments principal listing =>
      simp only [step]
      cases listing.validate with
      | error failure => exact .refused
      | ok checked => exact change_of_locked (change_of_answer rfl (by simp)) _
  | createGuest creator document level =>
      exact change_of_locked (change_createGuest store moment creator document level) _
  | getGuest guest => exact change_of_locked (change_of_answer rfl (found_ne_aborted _ _)) _

namespace Change

variable {store after : MemoryStore} {moment : Moment} {operation : Operation α}
  {outcome : Outcome α}

/-- Only an operation that breaks off poisons the lock. -/
theorem poisoned (changes : Change store moment operation outcome after)
    (ends : outcome ≠ .aborted) : after.poisoned = store.poisoned := by
  cases changes with
  | brokenOff unread => exact absurd rfl ends
  | documentHalfChanged unread found => exact absurd rfl ends
  | guestHalfChanged unread found held => exact absurd rfl ends
  | _ => rfl

theorem poisons (changes : Change store moment operation outcome after)
    (aborts : outcome = .aborted) : after.poisoned = true := by
  cases changes with
  | brokenOff unread => rfl
  | documentHalfChanged unread found => rfl
  | guestHalfChanged unread found held => rfl
  | _ => cases aborts

theorem stays_poisoned (changes : Change store moment operation outcome after)
    (poisoned : store.poisoned = true) : after.poisoned = true := by
  by_cases aborts : outcome = .aborted
  · exact changes.poisons aborts
  · exact (changes.poisoned aborts).trans poisoned

end Change

/-! ## Behind a poisoned lock -/

variable {store : MemoryStore} {moment : Moment} {operation : Operation α}

private theorem locked_poisoned (poisoned : store.poisoned = true) (name : String)
    (body : Outcome α × MemoryStore) :
    store.locked name body = (.error (.repository name .poisoned), store) := by
  rw [locked, if_pos poisoned]

theorem step_locked_out (poisoned : store.poisoned = true)
    (reaches : operation.reachesStore = true) :
    store.step moment operation = (.error (.repository operation.name .poisoned), store) := by
  cases operation with
  | updateDocument id fields =>
      have sets : fields.isEmpty = false := by simpa [Action.reachesStore] using reaches
      simp only [step, sets, Bool.false_eq_true, if_false]
      exact locked_poisoned poisoned _ _
  | listPermissions document listing =>
      cases valid : listing.validate with
      | error failure => simp [Action.reachesStore, valid, Except.toBool] at reaches
      | ok checked =>
          simp only [step, valid]
          exact locked_poisoned poisoned _ _
  | listDocuments principal listing =>
      cases valid : listing.validate with
      | error failure => simp [Action.reachesStore, valid, Except.toBool] at reaches
      | ok checked =>
          simp only [step, valid]
          exact locked_poisoned poisoned _ _
  | _ => exact locked_poisoned poisoned _ _

end MemoryStore
end DocAccess
