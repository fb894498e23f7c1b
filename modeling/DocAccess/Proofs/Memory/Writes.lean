import DocAccess.Proofs.Access
import DocAccess.Proofs.Deletion

/-!
# What is found after a write

Operations that succeed, as writes of records under their own names, and what look-ups and
listings find after them.
-/

set_option autoImplicit false

namespace DocAccess.MemoryStore

/-! ## Writes -/

def putDocument (store : MemoryStore) (document : Document) : MemoryStore :=
  { store with documents := store.documents.insert document.id document }

def putPermission (store : MemoryStore) (permission : Permission) : MemoryStore :=
  { store with permissions := store.permissions.insert permission.key permission }

/-- A document and its owner's permission. -/
def addDocument (store : MemoryStore) (creator : UserId) (document : Document) (now : Timestamp) :
    MemoryStore :=
  (store.putDocument document).putPermission (.ofOwner creator document.id now)

/-- A guest and its permission. -/
def addGuest (store : MemoryStore) (guest : Guest) (level : PermissionLevel) : MemoryStore :=
  putPermission { store with guests := store.guests.insert guest.id guest } (.ofGuest guest level)

def erasePermission (store : MemoryStore) (key : PermissionKey) : MemoryStore :=
  { store with permissions := store.permissions.erase key }

def eraseDocument (store : MemoryStore) (id : DocumentId) : MemoryStore :=
  { store with
    documents := store.documents.erase id
    permissions := store.permissions.filter fun key _ => key.document ≠ id
    guests := store.guests.filter fun _ guest => guest.documentId ≠ id }

/-- The level that a permission gives, if there is one. -/
def level? (store : MemoryStore) (key : PermissionKey) : Option PermissionLevel :=
  store.permissions[key]?.map (·.level)

section LookUps

variable (store : MemoryStore) (document : Document) (permission : Permission) (guest : Guest)
  (id : DocumentId) (key other : PermissionKey) (name : GuestId) (creator : UserId)
  (level : PermissionLevel) (now : Timestamp)

@[simp]
theorem level?_empty : empty.level? key = none := by
  simp [level?, empty]

@[simp]
theorem document_empty : empty.documents[id]? = none := by
  simp [empty]

@[simp]
theorem permission_empty : empty.permissions[key]? = none := by
  simp [empty]

@[simp]
theorem guest_empty : empty.guests[name]? = none := by
  simp [empty]

@[simp]
theorem id_ofFields (fields : DocumentFields) : (Document.ofFields id fields now).id = id := rfl

@[simp]
theorem document_putDocument : (store.putDocument document).documents[id]? =
    if document.id = id then some document else store.documents[id]? :=
  Map.getElem?_insert

@[simp]
theorem permissions_putDocument : (store.putDocument document).permissions = store.permissions :=
  rfl

@[simp]
theorem guests_putDocument : (store.putDocument document).guests = store.guests := rfl

@[simp]
theorem level?_putDocument : (store.putDocument document).level? key = store.level? key := rfl

@[simp]
theorem documents_putPermission : (store.putPermission permission).documents = store.documents :=
  rfl

@[simp]
theorem permission_putPermission : (store.putPermission permission).permissions[key]? =
    if permission.key = key then some permission else store.permissions[key]? :=
  Map.getElem?_insert

@[simp]
theorem guests_putPermission : (store.putPermission permission).guests = store.guests := rfl

@[simp]
theorem level?_putPermission : (store.putPermission permission).level? key =
    if permission.key = key then some permission.level else store.level? key := by
  rw [level?, permission_putPermission]
  split <;> rfl

@[simp]
theorem document_addDocument : (store.addDocument creator document now).documents[id]? =
    if document.id = id then some document else store.documents[id]? :=
  store.document_putDocument document id

@[simp]
theorem permission_addDocument : (store.addDocument creator document now).permissions[key]? =
    if ⟨.ofUser creator, document.id⟩ = key then some (.ofOwner creator document.id now)
    else store.permissions[key]? :=
  (store.putDocument document).permission_putPermission _ key

@[simp]
theorem guests_addDocument : (store.addDocument creator document now).guests = store.guests := rfl

@[simp]
theorem level?_addDocument : (store.addDocument creator document now).level? key =
    if ⟨.ofUser creator, document.id⟩ = key then some .owner else store.level? key :=
  (store.putDocument document).level?_putPermission _ key

theorem level?_addDocument_elsewhere (elsewhere : key.document ≠ document.id) :
    (store.addDocument creator document now).level? key = store.level? key := by
  rw [level?_addDocument, if_neg]
  exact fun same => elsewhere (congrArg PermissionKey.document same).symm

@[simp]
theorem documents_addGuest : (store.addGuest guest level).documents = store.documents := rfl

@[simp]
theorem permission_addGuest : (store.addGuest guest level).permissions[key]? =
    if ⟨.ofGuest guest.id, guest.documentId⟩ = key then some (.ofGuest guest level)
    else store.permissions[key]? :=
  permission_putPermission _ _ key

@[simp]
theorem guest_addGuest : (store.addGuest guest level).guests[name]? =
    if guest.id = name then some guest else store.guests[name]? :=
  Map.getElem?_insert

@[simp]
theorem level?_addGuest : (store.addGuest guest level).level? key =
    if ⟨.ofGuest guest.id, guest.documentId⟩ = key then some level else store.level? key :=
  level?_putPermission _ _ key

@[simp]
theorem guests_erasePermission : (store.erasePermission key).guests = store.guests := rfl

@[simp]
theorem permission_erasePermission : (store.erasePermission key).permissions[other]? =
    if key = other then none else store.permissions[other]? := by
  by_cases same : key = other
  · rw [if_pos same, ← same]
    exact Std.ExtTreeMap.getElem?_erase_self
  · rw [if_neg same]
    exact Map.getElem?_erase_of_ne (Ne.symm same)

@[simp]
theorem document_eraseDocument : (store.eraseDocument id).documents[id]? = none :=
  Std.ExtTreeMap.getElem?_erase_self

theorem permission_eraseDocument {permission : Permission}
    (held : (store.eraseDocument id).permissions[key]? = some permission) :
    store.permissions[key]? = some permission ∧ key.document ≠ id := by
  obtain ⟨before, apart⟩ := Map.getElem?_filter_eq_some.1 held
  exact ⟨before, of_decide_eq_true apart⟩

theorem guest_eraseDocument {guest : Guest} (known : store.guests[name]? = some guest)
    (on : guest.documentId = id) : (store.eraseDocument id).guests[name]? = none := by
  rw [Option.eq_none_iff_forall_ne_some]
  intro other kept
  obtain ⟨before, apart⟩ := Map.getElem?_filter_eq_some.1 kept
  cases known.symm.trans before
  exact of_decide_eq_true apart on

theorem document_putDocument_self :
    (store.putDocument document).documents[document.id]? = some document := by
  rw [document_putDocument, if_pos rfl]

theorem permission_putPermission_self :
    (store.putPermission permission).permissions[permission.key]? = some permission := by
  rw [permission_putPermission, if_pos rfl]

end LookUps

/-! ## Operations -/

variable {α : Type} {store : MemoryStore} {moment : Moment} {now : Timestamp}

theorem locked_live (live : store.poisoned = false) (name : String)
    (body : Outcome α × MemoryStore) : store.locked name body = body := by
  rw [locked, live]
  rfl

theorem step_createDocument (live : store.poisoned = false) (read : moment.clock.now? = some now)
    (fresh : store.documents[(⟨moment.drawn⟩ : DocumentId)]? = none) (creator : UserId)
    (fields : DocumentFields) :
    store.step moment (.createDocument creator fields) =
      (.ok ⟨moment.drawn⟩,
        store.addDocument creator (.ofFields ⟨moment.drawn⟩ fields now) now) := by
  refine (locked_live live _ _).trans ?_
  simp only [createDocument, Map.contains_eq_false_iff.2 fresh, read, Bool.false_eq_true, if_false]
  rfl

theorem step_updateDocument (live : store.poisoned = false) (read : moment.clock.now? = some now)
    {document : Document} (found : store.documents[document.id]? = some document)
    {fields : DocumentFields} (sets : fields.isEmpty = false) :
    store.step moment (.updateDocument document.id fields) =
      (.ok (), store.putDocument { document.withFields fields with lastModifiedAt := now }) := by
  simp only [step, sets, Bool.false_eq_true, if_false, locked_live live, updateDocument, found,
    read]
  rfl

theorem step_deleteDocument (live : store.poisoned = false) {id : DocumentId} {document : Document}
    (found : store.documents[id]? = some document) :
    store.step moment (.deleteDocument id) = (.ok (), store.eraseDocument id) := by
  refine (locked_live live _ _).trans ?_
  rw [deleteDocument, if_pos (Map.contains_iff.2 ⟨document, found⟩)]
  rfl

/-- A user who holds no permission of a guest gets the level. -/
theorem step_upsertUser (live : store.poisoned = false) (read : moment.clock.now? = some now)
    {id : DocumentId} {document : Document} (found : store.documents[id]? = some document)
    {user : UserId} (level : PermissionLevel)
    (own : ∀ held, store.permissions[(⟨.ofUser user, id⟩ : PermissionKey)]? = some held →
      held.key = ⟨.ofUser user, id⟩ ∧ held.recipientType = .user ∧
        held.createdBy = .ofUser user) :
    ∃ permission, permission.key = ⟨.ofUser user, id⟩ ∧ permission.level = level ∧
      permission.recipientType = .user ∧ permission.createdBy = .ofUser user ∧
        store.step moment (.upsertUser user id level) =
          (.ok (), store.putPermission permission) := by
  have present := Map.contains_iff.2 ⟨document, found⟩
  cases held : store.permissions[(⟨.ofUser user, id⟩ : PermissionKey)]? with
  | none =>
      refine ⟨.ofUser user id level now, rfl, rfl, rfl, rfl, (locked_live live _ _).trans ?_⟩
      simp only [upsertUser, present, if_true, read, held]
      rfl
  | some permission =>
      obtain ⟨named, byUser, giver⟩ := own permission held
      refine ⟨permission.withLevel level now, named, rfl, byUser, giver,
        (locked_live live _ _).trans ?_⟩
      simp only [upsertUser, present, if_true, read, held, byUser, reduceCtorEq, if_false]
      rw [← named]
      rfl

theorem step_upsertUser_conflict (live : store.poisoned = false)
    (read : moment.clock.now? = some now) {id : DocumentId} {document : Document}
    (found : store.documents[id]? = some document) {user : UserId} (level : PermissionLevel)
    {permission : Permission}
    (held : store.permissions[(⟨.ofUser user, id⟩ : PermissionKey)]? = some permission)
    (byGuest : permission.recipientType = .guest) :
    (store.step moment (.upsertUser user id level)).1.errorKind? = some .uniqueConflict := by
  rw [step, locked_live live]
  simp only [upsertUser, Map.contains_iff.2 ⟨document, found⟩, if_true, read, held, byGuest]
  rfl

theorem step_createGuest (live : store.poisoned = false) (read : moment.clock.now? = some now)
    {id : DocumentId} {document : Document} (found : store.documents[id]? = some document)
    (fresh : store.guests[(⟨moment.drawn⟩ : GuestId)]? = none)
    (unheld : store.permissions[(⟨.ofGuest ⟨moment.drawn⟩, id⟩ : PermissionKey)]? = none)
    (creator : PrincipalId) (level : PermissionLevel) :
    store.step moment (.createGuest creator id level) =
      (.ok ⟨moment.drawn⟩, store.addGuest ⟨⟨moment.drawn⟩, id, creator, now⟩ level) := by
  refine (locked_live live _ _).trans ?_
  simp only [createGuest, Map.contains_iff.2 ⟨document, found⟩, Map.contains_eq_false_iff.2 fresh,
    Map.contains_eq_false_iff.2 unheld, if_true, Bool.or_false, Bool.false_eq_true, if_false, read]
  rfl

theorem step_createGuest_missing (live : store.poisoned = false) {id : DocumentId}
    (absent : store.documents[id]? = none) (creator : PrincipalId) (level : PermissionLevel) :
    store.step moment (.createGuest creator id level) = (.error (.documentNotFound id), store) := by
  refine (locked_live live _ _).trans ?_
  rw [createGuest, Map.contains_eq_false_iff.2 absent]
  rfl

theorem step_updateGuest (live : store.poisoned = false) (read : moment.clock.now? = some now)
    {guest : GuestId} {permission : Permission}
    (held : store.guestPermission? guest = some (permission.key, permission))
    (level : PermissionLevel) :
    store.step moment (.updateGuest guest level) =
      (.ok (), store.putPermission (permission.withLevel level now)) := by
  refine (locked_live live _ _).trans ?_
  rw [updateGuest, held, read]
  rfl

theorem step_updateGuest_missing (live : store.poisoned = false) {guest : GuestId}
    (unheld : store.guestPermission? guest = none) (level : PermissionLevel) :
    store.step moment (.updateGuest guest level) =
      (.error (.guestPermissionNotFound guest), store) := by
  refine (locked_live live _ _).trans ?_
  rw [updateGuest, unheld]

theorem step_getDocument (live : store.poisoned = false) (id : DocumentId) :
    store.step moment (.getDocument id) =
      (found (.documentNotFound id) store.documents[id]?, store) :=
  locked_live live _ _

theorem step_getPermission (live : store.poisoned = false) (id : DocumentId)
    (principal : PrincipalId) :
    store.step moment (.getPermission id principal) =
      (found (.permissionNotFound principal id)
        store.permissions[(⟨principal, id⟩ : PermissionKey)]?, store) :=
  locked_live live _ _

theorem step_getGuest (live : store.poisoned = false) (guest : GuestId) :
    store.step moment (.getGuest guest) =
      (found (.guestNotFound guest) store.guests[guest]?, store) :=
  locked_live live _ _

theorem step_deletePermission (live : store.poisoned = false) {key : PermissionKey}
    {permission : Permission} (held : store.permissions[key]? = some permission) :
    store.step moment (.deletePermission key.recipient key.document) =
      (.ok (), store.erasePermission key) := by
  refine (locked_live live _ _).trans ?_
  rw [deletePermission, if_pos (Map.contains_iff.2 ⟨permission, held⟩)]
  rfl

theorem step_deletePermission_missing (live : store.poisoned = false) {key : PermissionKey}
    (unheld : store.permissions[key]? = none) :
    store.step moment (.deletePermission key.recipient key.document) =
      (.error (.permissionNotFound key.recipient key.document), store) := by
  refine (locked_live live _ _).trans ?_
  rw [deletePermission, Map.contains_eq_false_iff.2 unheld]
  rfl

end MemoryStore

/-! ## Listings -/

theorem PermissionLevel.mem_all (level : PermissionLevel) : level ∈ all := by
  cases level <;> decide

theorem Id.eq_mk_iff {kind : IdKind} {id : Id kind} {uuid : Uuid} :
    id = ⟨uuid⟩ ↔ id.uuid = uuid :=
  ⟨fun same => congrArg Id.uuid same, fun same => Id.eq_of_uuid same⟩

/-- The permission by which the row of an identifier is in a scope. -/
def Scope.keyOf {α : Type} : Scope α → Uuid → PermissionKey
  | .document id, name => ⟨⟨name⟩, id⟩
  | .principal id, name => ⟨id, ⟨name⟩⟩

namespace MemoryStore

variable {α : Type} {store : MemoryStore} {scope : Scope α} {levels : List PermissionLevel}

theorem level?_eq_some_iff (intact : store.Integrity) {key : PermissionKey}
    {level : PermissionLevel} :
    store.level? key = some level ↔ store.contents.Grants key level := by
  rw [level?, Option.map_eq_some_iff]
  constructor
  · intro given
    obtain ⟨permission, held, leveled⟩ := given
    exact ⟨permission, Map.mem_values.2 ⟨key, held⟩, intact.permission_key key permission held,
      leveled⟩
  · intro given
    obtain ⟨permission, member, rfl, leveled⟩ := given
    obtain ⟨name, held⟩ := Map.mem_values.1 member
    obtain rfl := intact.permission_key name permission held
    exact ⟨permission, held, leveled⟩

theorem exists_listed_iff (intact : store.Integrity) {name : Uuid} {level : PermissionLevel}
    (chosen : level ∈ levels) :
    (∃ row ∈ scope.listed levels store.contents,
        scope.rowId row = name ∧ scope.level row = level) ↔
      store.level? (scope.keyOf name) = some level := by
  rw [level?_eq_some_iff intact]
  cases scope with
  | document id =>
      rw [Scope.keyOf, store.contents.grants_iff_document id ⟨name⟩ chosen]
      simp only [Scope.rowId, Scope.level, Id.eq_mk_iff]
  | principal id =>
      rw [Scope.keyOf, intact.consistent.grants_iff_principal ⟨name⟩ id chosen]
      simp only [Scope.rowId, Scope.level, Id.eq_mk_iff]

theorem level?_of_listed (intact : store.Integrity) {row : α}
    (listed : row ∈ scope.listed levels store.contents) :
    scope.level row ∈ levels ∧
      store.level? (scope.keyOf (scope.rowId row)) = some (scope.level row) := by
  have chosen : scope.level row ∈ levels := by
    simpa using (List.mem_filter.1 listed).2
  exact ⟨chosen, (exists_listed_iff intact chosen).1 ⟨row, listed, rfl, rfl⟩⟩

theorem mem_listed_principal_iff (intact : store.Integrity) {id : PrincipalId}
    {row : DocumentPermission} :
    row ∈ (Scope.principal id).listed levels store.contents ↔
      store.documents[row.document.id]? = some row.document ∧
        store.level? ⟨id, row.document.id⟩ = some row.level ∧ row.level ∈ levels := by
  have stored {row : DocumentPermission}
      (listed : row ∈ (Scope.principal id).listed levels store.contents) :
      store.documents[row.document.id]? = some row.document := by
    have member := Scope.document_of_mem_rows (Scope.mem_rows_of_listed listed)
    obtain ⟨key, found⟩ := Map.mem_values.1 member
    rwa [intact.document_id key row.document found]
  constructor
  · intro listed
    obtain ⟨chosen, held⟩ := level?_of_listed intact listed
    exact ⟨stored listed, held, chosen⟩
  · intro given
    obtain ⟨found, held, chosen⟩ := given
    have held : store.level? ((Scope.principal id).keyOf row.document.id.uuid) = some row.level :=
      held
    obtain ⟨row', listed, named, leveled⟩ := (exists_listed_iff intact chosen).2 held
    have same : row'.document.id = row.document.id := Id.eq_of_uuid named
    have document : row'.document = row.document := by
      have found' := stored listed
      rw [same, found] at found'
      exact (Option.some.inj found').symm
    have : row' = row := by
      cases row
      cases row'
      obtain rfl : _ = _ := document
      obtain rfl : _ = _ := leveled
      rfl
    exact this ▸ listed

/-- The rows of a listing are told by those who have one of the levels. -/
theorem listed_perm (intact : store.Integrity) {names : List Uuid} (apart : names.Nodup)
    (given : ∀ name, (∃ level ∈ levels, store.level? (scope.keyOf name) = some level) ↔
      name ∈ names) :
    ((scope.listed levels store.contents).map scope.rowId).Perm names := by
  have distinct : ((scope.listed levels store.contents).map scope.rowId).Nodup :=
    (scope.rows_nodup intact.consistent).sublist (List.filter_sublist.map _)
  refine (List.perm_ext_iff_of_nodup distinct apart).2 fun name => ?_
  rw [← given, List.mem_map]
  constructor
  · rintro ⟨row, listed, rfl⟩
    exact ⟨_, level?_of_listed intact listed⟩
  · intro held
    obtain ⟨level, chosen, granted⟩ := held
    obtain ⟨row, listed, named, -⟩ := (exists_listed_iff intact chosen).2 granted
    exact ⟨row, listed, named⟩

end MemoryStore
end DocAccess
