import DocAccess.Proofs.Deletion

/-!
# Operations keep to their document

A write looks at the rows of one document and changes only those, though guests are named
without a document and a change of a guest finds its document in another map. So two writes
on different documents do not notice each other.
-/

set_option autoImplicit false

namespace DocAccess

variable {α β : Type}

namespace Action

/-- The document that a write is aimed at. That of a guest's level is the one that the guest has
been minted for. -/
def aim? (rows : Contents) (drawn : Uuid) : Operation α → Option DocumentId
  | .createDocument _ _ => some ⟨drawn⟩
  | .updateDocument id _ => some id
  | .deleteDocument id => some id
  | .upsertUser _ id _ => some id
  | .updateGuest guest _ => (rows.guests.find? fun record => record.id = guest).map (·.documentId)
  | .deletePermission _ id => some id
  | .createGuest _ id _ => some id
  | _ => none

/-- The identifier that an operation is to give to a guest. -/
def mints? (drawn : Uuid) : Operation α → Option GuestId
  | .createGuest _ _ _ => some ⟨drawn⟩
  | _ => none

/-- The guest that a write names or is to mint. -/
def guest? (drawn : Uuid) : Operation α → Option GuestId
  | .updateGuest guest _ => some guest
  | .createGuest _ _ _ => some ⟨drawn⟩
  | _ => none

def isRead : Operation α → Bool
  | .getDocument _ => true
  | .getPermission _ _ => true
  | .listPermissions _ _ => true
  | .listDocuments _ _ => true
  | .getGuest _ => true
  | _ => false

end Action

namespace MemoryStore

/-- Two stores have the same rows of a document. -/
structure SameOn (id : DocumentId) (maps other : MemoryStore) : Prop where
  document : maps.documents[id]? = other.documents[id]?
  permission (principal : PrincipalId) :
    maps.permissions[(⟨principal, id⟩ : PermissionKey)]? =
      other.permissions[(⟨principal, id⟩ : PermissionKey)]?
  guest (guest : GuestId) (record : Guest) : record.documentId = id →
    (maps.guests[guest]? = some record ↔ other.guests[guest]? = some record)

variable {maps other after : MemoryStore} {id : DocumentId} {moment : Moment}
  {operation : Operation α} {outcome : Outcome α}

theorem Integrity.aim?_updateGuest (intact : maps.Integrity) (drawn : Uuid) (guest : GuestId)
    (level : PermissionLevel) :
    Action.aim? maps.contents drawn (.updateGuest guest level) =
      maps.guests[guest]?.map (·.documentId) :=
  congrArg (Option.map _) (Map.find?_values intact.guest_id guest)

theorem Integrity.aim?_of_record (intact : maps.Integrity) {drawn : Uuid} {guest : GuestId}
    {record : Guest} (found : maps.guests[guest]? = some record) (level : PermissionLevel) :
    Action.aim? maps.contents drawn (.updateGuest guest level) = some record.documentId := by
  rw [intact.aim?_updateGuest, found, Option.map_some]

namespace SameOn

theorem refl (id : DocumentId) (maps : MemoryStore) : maps.SameOn id maps :=
  ⟨rfl, fun _ => rfl, fun _ _ _ => Iff.rfl⟩

private theorem symm (same : maps.SameOn id other) : other.SameOn id maps :=
  ⟨same.document.symm, fun principal => (same.permission principal).symm,
    fun guest record on => (same.guest guest record on).symm⟩

private theorem poison (same : maps.SameOn id other) : maps.SameOn id other.poison :=
  ⟨same.document, same.permission, same.guest⟩

theorem trans (first : maps.SameOn id other) (second : other.SameOn id after) :
    maps.SameOn id after :=
  ⟨first.document.trans second.document,
    fun principal => (first.permission principal).trans (second.permission principal),
    fun guest record on => (first.guest guest record on).trans (second.guest guest record on)⟩

/-! ### Rows of other documents -/

private theorem insertDocument {on : DocumentId} (apart : id ≠ on) (maps : MemoryStore)
    (document : Document) :
    maps.SameOn id { maps with documents := maps.documents.insert on document } :=
  { refl id maps with document := (Map.getElem?_insert_of_ne apart).symm }

private theorem insertPermission {principal : PrincipalId} {on : DocumentId} (apart : id ≠ on)
    (maps : MemoryStore) (permission : Permission) :
    maps.SameOn id { maps with
      permissions := maps.permissions.insert ⟨principal, on⟩ permission } := by
  refine { refl id maps with permission := fun principal => ?_ }
  refine (Map.getElem?_insert_of_ne ?_).symm
  exact fun same => apart (congrArg PermissionKey.document same)

private theorem insertGuest (guest : Guest) (apart : id ≠ guest.documentId)
    (fresh : maps.guests[guest.id]? = none) :
    maps.SameOn id { maps with guests := maps.guests.insert guest.id guest } := by
  refine { refl id maps with guest := fun name record on => ?_ }
  by_cases same : name = guest.id
  · subst same
    rw [fresh, Std.ExtTreeMap.getElem?_insert_self]
    constructor
    · intro found
      cases found
    · intro found
      cases found
      exact absurd on.symm apart
  · rw [Map.getElem?_insert_of_ne same]

private theorem erasePermission {principal : PrincipalId} {on : DocumentId} (apart : id ≠ on)
    (maps : MemoryStore) :
    maps.SameOn id { maps with permissions := maps.permissions.erase ⟨principal, on⟩ } := by
  refine { refl id maps with permission := fun principal => ?_ }
  refine (Map.getElem?_erase_of_ne ?_).symm
  exact fun same => apart (congrArg PermissionKey.document same)

private theorem eraseDocument {on : DocumentId} (apart : id ≠ on) (maps : MemoryStore) :
    maps.SameOn id { maps with
      documents := maps.documents.erase on
      permissions := maps.permissions.filter fun key _ => key.document ≠ on
      guests := maps.guests.filter fun _ guest => guest.documentId ≠ on } where
  document := (Map.getElem?_erase_of_ne apart).symm
  permission principal := by
    refine Option.ext fun permission => ?_
    rw [Map.getElem?_filter_eq_some, and_iff_left (decide_eq_true apart)]
  guest guest record named := by
    rw [Map.getElem?_filter_eq_some, and_iff_left]
    exact decide_eq_true (named ▸ apart)

end SameOn

/-- An operation leaves the rows of all documents alone that it is not aimed at. -/
theorem Change.sameOn (intact : maps.Integrity)
    (changes : maps.Change moment operation outcome after)
    (elsewhere : operation.aim? maps.contents moment.drawn ≠ some id) : maps.SameOn id after := by
  have apart {on : DocumentId} (aims : some on ≠ some id) : id ≠ on :=
    fun same => aims (congrArg some same.symm)
  have aimed {guest : GuestId} {level : PermissionLevel} {record : Guest}
      (aims : Action.aim? maps.contents moment.drawn (.updateGuest guest level) ≠ some id)
      (found : maps.guests[guest]? = some record) : id ≠ record.documentId :=
    apart (intact.aim?_of_record found level ▸ aims)
  cases changes with
  | refused => exact .refl _ _
  | answered => exact .refl _ _
  | documentMade read fresh =>
      exact (SameOn.insertDocument (apart elsewhere) _ _).trans
        (.insertPermission (apart elsewhere) _ _)
  | documentChanged read sets found => exact .insertDocument (apart elsewhere) _ _
  | documentDeleted found => exact .eraseDocument (apart elsewhere) _
  | userAdded read found fresh => exact .insertPermission (apart elsewhere) _ _
  | userChanged read found held byUser => exact .insertPermission (apart elsewhere) _ _
  | guestChanged read found held byGuest => exact .insertPermission (aimed elsewhere found) _ _
  | permissionDeleted held => exact .erasePermission (apart elsewhere) _
  | @guestMade creator on level document now read found fresh unheld =>
      have guests :=
        SameOn.insertGuest ⟨⟨moment.drawn⟩, on, creator, now⟩ (apart elsewhere) fresh
      exact guests.trans (.insertPermission (apart elsewhere) _ _)
  | brokenOff unread => exact (SameOn.refl id maps).poison
  | documentHalfChanged unread found => exact (SameOn.insertDocument (apart elsewhere) _ _).poison
  | guestHalfChanged unread found held =>
      exact (SameOn.insertPermission (aimed elsewhere found) _ _).poison

/-! ## One operation on two stores -/

namespace SameOn

theorem contains_document (same : maps.SameOn id other) :
    maps.documents.contains id = other.documents.contains id := by
  rw [Std.ExtTreeMap.contains_eq_isSome_getElem?, same.document,
    Std.ExtTreeMap.contains_eq_isSome_getElem?]

theorem contains_permission (same : maps.SameOn id other) (principal : PrincipalId) :
    maps.permissions.contains (⟨principal, id⟩ : PermissionKey) =
      other.permissions.contains (⟨principal, id⟩ : PermissionKey) := by
  rw [Std.ExtTreeMap.contains_eq_isSome_getElem?, same.permission,
    Std.ExtTreeMap.contains_eq_isSome_getElem?]

theorem bothPoisoned (same : maps.SameOn id other) : maps.poison.SameOn id other.poison :=
  ⟨same.document, same.permission, same.guest⟩

theorem insertDocuments (same : maps.SameOn id other) (key : DocumentId) (document : Document) :
    SameOn id { maps with documents := maps.documents.insert key document }
      { other with documents := other.documents.insert key document } :=
  { same with document := by simp only [Map.getElem?_insert, same.document] }

theorem insertPermissions (same : maps.SameOn id other) (key : PermissionKey)
    (permission : Permission) :
    SameOn id { maps with permissions := maps.permissions.insert key permission }
      { other with permissions := other.permissions.insert key permission } :=
  { same with permission := fun _ => by simp only [Map.getElem?_insert, same.permission] }

private theorem insertGuests (same : maps.SameOn id other) (key : GuestId) (guest : Guest) :
    SameOn id { maps with guests := maps.guests.insert key guest }
      { other with guests := other.guests.insert key guest } := by
  refine { same with guest := fun name record on => ?_ }
  by_cases named : name = key
  · subst named
    rw [Std.ExtTreeMap.getElem?_insert_self, Std.ExtTreeMap.getElem?_insert_self]
  · rw [Map.getElem?_insert_of_ne named, Map.getElem?_insert_of_ne named]
    exact same.guest name record on

private theorem erasePermissions (same : maps.SameOn id other) (principal : PrincipalId) :
    SameOn id { maps with permissions := maps.permissions.erase ⟨principal, id⟩ }
      { other with permissions := other.permissions.erase ⟨principal, id⟩ } :=
  { same with
    permission := fun _ => by simp only [Std.ExtTreeMap.getElem?_erase, same.permission] }

/-- Of a document that is erased no row is left. -/
private theorem eraseDocuments (id : DocumentId) (maps other : MemoryStore) :
    SameOn id
      { maps with
        documents := maps.documents.erase id
        permissions := maps.permissions.filter fun key _ => key.document ≠ id
        guests := maps.guests.filter fun _ guest => guest.documentId ≠ id }
      { other with
        documents := other.documents.erase id
        permissions := other.permissions.filter fun key _ => key.document ≠ id
        guests := other.guests.filter fun _ guest => guest.documentId ≠ id } where
  document := by simp only [Std.ExtTreeMap.getElem?_erase_self]
  permission principal := by
    refine Option.ext fun permission => ?_
    simp
  guest guest record on := by simp [on]

end SameOn

/-- Two runs end alike, and with the same rows of a document. -/
structure EndAlike (id : DocumentId) (one two : Outcome α × MemoryStore) : Prop where
  outcome : one.1 = two.1
  rows : one.2.SameOn id two.2

private theorem SameOn.locked (same : maps.SameOn id other)
    (poisoned : maps.poisoned = other.poisoned)
    {name : String} {body body' : Outcome α × MemoryStore} (alike : EndAlike id body body') :
    EndAlike id (maps.locked name body) (other.locked name body') := by
  unfold MemoryStore.locked
  rw [poisoned]
  cases other.poisoned with
  | true => exact ⟨rfl, same⟩
  | false => exact alike

private theorem SameOn.createDocument {creator : UserId} {fields : DocumentFields}
    (same : maps.SameOn ⟨moment.drawn⟩ other) :
    EndAlike ⟨moment.drawn⟩ (maps.createDocument moment creator fields)
      (other.createDocument moment creator fields) := by
  simp only [MemoryStore.createDocument, same.contains_document]
  cases other.documents.contains (⟨moment.drawn⟩ : DocumentId) with
  | true => exact ⟨rfl, same⟩
  | false =>
      cases moment.clock.now? with
      | none => exact ⟨rfl, same.bothPoisoned⟩
      | some now => exact ⟨rfl, (same.insertDocuments _ _).insertPermissions _ _⟩

private theorem SameOn.updateDocument {fields : DocumentFields} (same : maps.SameOn id other) :
    EndAlike id (maps.updateDocument moment id fields) (other.updateDocument moment id fields) := by
  simp only [MemoryStore.updateDocument, same.document]
  cases other.documents[id]? with
  | none => exact ⟨rfl, same⟩
  | some document =>
      cases moment.clock.now? with
      | none => exact ⟨rfl, (same.insertDocuments _ _).bothPoisoned⟩
      | some now => exact ⟨rfl, same.insertDocuments _ _⟩

private theorem SameOn.deleteDocument (same : maps.SameOn id other) :
    EndAlike id (maps.deleteDocument id) (other.deleteDocument id) := by
  simp only [MemoryStore.deleteDocument, same.contains_document]
  cases other.documents.contains id with
  | false => exact ⟨rfl, same⟩
  | true => exact ⟨rfl, .eraseDocuments id maps other⟩

private theorem SameOn.upsertUser {user : UserId} {level : PermissionLevel}
    (same : maps.SameOn id other) :
    EndAlike id (maps.upsertUser moment user id level) (other.upsertUser moment user id level) := by
  simp only [MemoryStore.upsertUser, same.contains_document, same.permission]
  cases other.documents.contains id with
  | false => exact ⟨rfl, same⟩
  | true =>
      cases moment.clock.now? with
      | none => exact ⟨rfl, same.bothPoisoned⟩
      | some now =>
          simp only [if_true]
          cases other.permissions[(⟨.ofUser user, id⟩ : PermissionKey)]? with
          | none => exact ⟨rfl, same.insertPermissions _ _⟩
          | some permission =>
              dsimp only
              split
              · exact ⟨rfl, same⟩
              · exact ⟨rfl, same.insertPermissions _ _⟩

theorem SameOn.guestPermission? (same : maps.SameOn id other) {guest : GuestId} {record : Guest}
    (found : maps.guests[guest]? = some record) (on : record.documentId = id) :
    maps.guestPermission? guest = other.guestPermission? guest := by
  have found' := (same.guest guest record on).1 found
  subst on
  rw [guestPermission?_of_record found, guestPermission?_of_record found', same.permission]

private theorem SameOn.updateGuest {guest : GuestId} {level : PermissionLevel} {record : Guest}
    (same : maps.SameOn id other) (found : maps.guests[guest]? = some record)
    (on : record.documentId = id) :
    EndAlike id (maps.updateGuest moment guest level) (other.updateGuest moment guest level) := by
  simp only [MemoryStore.updateGuest, same.guestPermission? found on]
  cases other.guestPermission? guest with
  | none => exact ⟨rfl, same⟩
  | some entry =>
      cases moment.clock.now? with
      | none => exact ⟨rfl, (same.insertPermissions _ _).bothPoisoned⟩
      | some now => exact ⟨rfl, same.insertPermissions _ _⟩

private theorem SameOn.deletePermission {principal : PrincipalId} (same : maps.SameOn id other) :
    EndAlike id (maps.deletePermission principal id) (other.deletePermission principal id) := by
  simp only [MemoryStore.deletePermission, same.contains_permission]
  split
  · exact ⟨rfl, same.erasePermissions principal⟩
  · exact ⟨rfl, same⟩

private theorem SameOn.createGuest {creator : PrincipalId} {level : PermissionLevel}
    (same : maps.SameOn id other)
    (known : maps.guests.contains (⟨moment.drawn⟩ : GuestId) =
      other.guests.contains (⟨moment.drawn⟩ : GuestId)) :
    EndAlike id (maps.createGuest moment creator id level)
      (other.createGuest moment creator id level) := by
  simp only [MemoryStore.createGuest, same.contains_document, same.contains_permission, known]
  cases other.documents.contains id with
  | false => exact ⟨rfl, same⟩
  | true =>
      simp only [if_true]
      split
      · exact ⟨rfl, same⟩
      · cases moment.clock.now? with
        | none => exact ⟨rfl, same.bothPoisoned⟩
        | some now => exact ⟨rfl, (same.insertGuests _ _).insertPermissions _ _⟩

/-- A write goes by the rows of its document, and by whether its guest's identifier is taken. -/
theorem SameOn.step (same : maps.SameOn id other) (poisoned : maps.poisoned = other.poisoned)
    (intact : maps.Integrity) (aims : operation.aim? maps.contents moment.drawn = some id)
    (known : ∀ guest, operation.guest? moment.drawn = some guest →
      maps.guests.contains guest = other.guests.contains guest) :
    EndAlike id (maps.step moment operation) (other.step moment operation) := by
  cases operation with
  | createDocument creator fields =>
      cases aims
      exact same.locked poisoned same.createDocument
  | updateDocument on fields =>
      cases aims
      simp only [MemoryStore.step]
      split
      · exact ⟨rfl, same⟩
      · exact same.locked poisoned same.updateDocument
  | deleteDocument on =>
      cases aims
      exact same.locked poisoned same.deleteDocument
  | upsertUser user on level =>
      cases aims
      exact same.locked poisoned same.upsertUser
  | updateGuest guest level =>
      rw [intact.aim?_updateGuest] at aims
      obtain ⟨record, found, on⟩ := Option.map_eq_some_iff.1 aims
      exact same.locked poisoned (same.updateGuest found on)
  | deletePermission principal on =>
      cases aims
      exact same.locked poisoned same.deletePermission
  | createGuest creator on level =>
      cases aims
      exact same.locked poisoned (same.createGuest (known _ rfl))
  | _ => cases aims

/-! ## What an operation looks at -/

/-- Two stores have the same rows of the document that an operation is aimed at, and its guest is
in both or in none. -/
structure SameFor (drawn : Uuid) (operation : Operation α) (maps other : MemoryStore) : Prop where
  rows (id : DocumentId) : operation.aim? maps.contents drawn = some id → maps.SameOn id other
  guest (guest : GuestId) : operation.guest? drawn = some guest →
    maps.guests.contains guest = other.guests.contains guest

namespace SameFor

variable {drawn : Uuid} {guest : GuestId} {level : PermissionLevel}

private theorem aim?_eq (same : SameFor drawn operation maps other) (intact : maps.Integrity)
    (intact' : other.Integrity) :
    operation.aim? other.contents drawn = operation.aim? maps.contents drawn := by
  cases operation with
  | updateGuest guest level =>
      rw [intact.aim?_updateGuest, intact'.aim?_updateGuest]
      cases found : maps.guests[guest]? with
      | none =>
          have missing := (same.guest guest rfl).symm.trans (Map.contains_eq_false_iff.2 found)
          rw [Map.contains_eq_false_iff.1 missing]
      | some record =>
          have rows := same.rows record.documentId (intact.aim?_of_record found level)
          rw [(rows.guest guest record rfl).1 found]
  | _ => rfl

theorem guestPermission? (same : SameFor drawn (.updateGuest guest level) maps other)
    (intact : maps.Integrity) : maps.guestPermission? guest = other.guestPermission? guest := by
  cases found : maps.guests[guest]? with
  | none =>
      have missing := (same.guest guest rfl).symm.trans (Map.contains_eq_false_iff.2 found)
      rw [MemoryStore.guestPermission?, found, MemoryStore.guestPermission?,
        Map.contains_eq_false_iff.1 missing]
  | some record =>
      have rows := same.rows record.documentId (intact.aim?_of_record found level)
      exact rows.guestPermission? found rfl

/-- An operation that is aimed at no document is for a guest that there is not. -/
theorem step_outcome (same : SameFor moment.drawn operation maps other)
    (poisoned : maps.poisoned = other.poisoned) (intact : maps.Integrity)
    (writes : operation.isRead = false) :
    (maps.step moment operation).1 = (other.step moment operation).1 := by
  cases aims : operation.aim? maps.contents moment.drawn with
  | some id => exact ((same.rows id aims).step poisoned intact aims same.guest).outcome
  | none =>
      cases operation with
      | updateGuest guest level =>
          rw [intact.aim?_updateGuest, Option.map_eq_none_iff] at aims
          have missing : maps.guestPermission? guest = none := by
            rw [MemoryStore.guestPermission?, aims]
          have missing' : other.guestPermission? guest = none :=
            (same.guestPermission? intact).symm.trans missing
          simp only [MemoryStore.step, updateGuest, missing, missing', locked, poisoned]
          split <;> rfl
      | _ => simp [Action.aim?, Action.isRead] at aims writes

end SameFor

/-! ## Two operations -/

private theorem eq_of_sameOn (same : ∀ id, maps.SameOn id other)
    (poisoned : maps.poisoned = other.poisoned) : maps = other := by
  have documents : maps.documents = other.documents :=
    Std.ExtTreeMap.ext_getElem? fun id => (same id).document
  have permissions : maps.permissions = other.permissions :=
    Std.ExtTreeMap.ext_getElem? fun key => (same key.document).permission key.recipient
  have guests : maps.guests = other.guests :=
    Std.ExtTreeMap.ext_getElem? fun guest => Option.ext fun record =>
      (same record.documentId).guest guest record rfl
  cases maps
  cases other
  simp only at documents permissions guests poisoned
  subst documents permissions guests poisoned
  rfl

private theorem Change.stays_fresh (changes : maps.Change moment operation outcome after)
    {guest : GuestId} (fresh : maps.guests[guest]? = none)
    (others : operation.mints? moment.drawn ≠ some guest) : after.guests[guest]? = none := by
  cases changes with
  | documentDeleted found =>
      rw [Option.eq_none_iff_forall_ne_some]
      intro record known
      rw [(Map.getElem?_filter_eq_some.1 known).1] at fresh
      cases fresh
  | guestMade read found unknown unheld =>
      refine (Map.getElem?_insert_of_ne ?_).trans fresh
      rintro rfl
      exact others rfl
  | _ => exact fresh

end MemoryStore

def Asked.aim? (rows : Contents) (asked : Asked) : Option DocumentId :=
  asked.operation.aim? rows asked.moment.drawn

def Asked.mints? (asked : Asked) : Option GuestId :=
  asked.operation.mints? asked.moment.drawn

def Asked.guest? (asked : Asked) : Option GuestId :=
  asked.operation.guest? asked.moment.drawn

/-- The outcome of an operation and the store that it leaves. -/
def Store.ask {σ : Type} [Store σ] (store : σ) (asked : Asked) : Outcome asked.Answer × σ :=
  Store.step store asked.moment asked.operation

/-- An operation is to mint a guest, if any, that there is not and that another operation neither
names nor mints. -/
def MintsApart (rows : Contents) (asked other : Asked) : Prop :=
  ∀ guest, asked.mints? = some guest →
    (∀ record ∈ rows.guests, record.id ≠ guest) ∧ other.guest? ≠ some guest

/-- Two writes are aimed at different documents, and what they mint is new. -/
structure Apart (rows : Contents) (first second : Asked) : Prop where
  writes : first.operation.isRead = false ∧ second.operation.isRead = false
  documents (id : DocumentId) : first.aim? rows = some id → second.aim? rows ≠ some id
  first_mints : MintsApart rows first second
  second_mints : MintsApart rows second first

theorem Apart.symm {rows : Contents} {first second : Asked} (apart : Apart rows first second) :
    Apart rows second first :=
  ⟨apart.writes.symm, fun id aims aims' => apart.documents id aims' aims, apart.second_mints,
    apart.first_mints⟩

namespace MemoryStore

variable {maps : MemoryStore} {first second : Asked} {id : DocumentId}

private theorem Integrity.fresh_of_rows (intact : maps.Integrity) {guest : GuestId}
    (unnamed : ∀ record ∈ maps.contents.guests, record.id ≠ guest) :
    maps.guests[guest]? = none := by
  rw [Option.eq_none_iff_forall_ne_some]
  intro record known
  exact unnamed record (Map.mem_values.2 ⟨guest, known⟩) (intact.guest_id guest record known)

/-- A write leaves all that another one looks at. -/
theorem unnoticed (intact : maps.Integrity) (apart : Apart maps.contents first second) :
    SameFor second.moment.drawn second.operation maps (Store.ask maps first).2 := by
  have changes := change_step maps first.moment first.operation
  have rows (id : DocumentId) (aims : second.aim? maps.contents = some id) :
      maps.SameOn id (Store.ask maps first).2 :=
    changes.sameOn intact fun aims' => apart.documents id aims' aims
  refine ⟨rows, fun guest concerns => ?_⟩
  cases found : maps.guests[guest]? with
  | none =>
      have kept := changes.stays_fresh found fun mints =>
        (apart.first_mints guest mints).2 concerns
      exact (Map.contains_eq_false_iff.2 found).trans (Map.contains_eq_false_iff.2 kept).symm
  | some record =>
      obtain ⟨answer, moment, operation⟩ := second
      cases operation with
      | updateGuest name level =>
          cases concerns
          have same := rows record.documentId (intact.aim?_of_record found level)
          have kept := (same.guest guest record rfl).1 found
          exact (Map.contains_iff.2 ⟨record, found⟩).trans (Map.contains_iff.2 ⟨record, kept⟩).symm
      | createGuest creator on level =>
          have fresh := intact.fresh_of_rows (apart.second_mints guest concerns).1
          cases found.symm.trans fresh
      | _ => cases concerns

/-- A write after another one ends as it does alone, with the same rows of its document. -/
private theorem ask_after (intact : maps.Integrity) (apart : Apart maps.contents first second)
    (ends : (Store.ask maps first).1 ≠ .aborted) :
    (Store.ask maps second).1 = (Store.ask (Store.ask maps first).2 second).1 ∧
      second.aim? (Store.ask maps first).2.contents = second.aim? maps.contents ∧
      ∀ id, second.aim? maps.contents = some id →
        (Store.ask maps second).2.SameOn id (Store.ask (Store.ask maps first).2 second).2 := by
  have same := unnoticed intact apart
  have changes := change_step maps first.moment first.operation
  have poisoned := (changes.poisoned ends).symm
  refine ⟨same.step_outcome poisoned intact apart.writes.2,
    same.aim?_eq intact (intact.change changes), fun id aims => ?_⟩
  exact ((same.rows id aims).step poisoned intact aims same.guest).rows

/-- Writes on different documents give the same answers and the same maps in either order. -/
theorem ask_comm (intact : maps.Integrity) (apart : Apart maps.contents first second)
    (ends : (Store.ask maps first).1 ≠ .aborted) (ends' : (Store.ask maps second).1 ≠ .aborted) :
    (Store.ask (Store.ask maps first).2 second).1 = (Store.ask maps second).1 ∧
      (Store.ask (Store.ask maps second).2 first).1 = (Store.ask maps first).1 ∧
      (Store.ask (Store.ask maps first).2 second).2 =
        (Store.ask (Store.ask maps second).2 first).2 := by
  obtain ⟨answer, aim, rows⟩ := ask_after intact apart ends
  obtain ⟨answer', aim', rows'⟩ := ask_after intact apart.symm ends'
  have one := change_step maps first.moment first.operation
  have two := change_step maps second.moment second.operation
  have oneTwo := change_step (Store.ask maps first).2 second.moment second.operation
  have twoOne := change_step (Store.ask maps second).2 first.moment first.operation
  have intactOne := intact.change one
  have intactTwo := intact.change two
  refine ⟨answer.symm, answer'.symm, eq_of_sameOn (fun id => ?_) ?_⟩
  · by_cases onFirst : first.aim? maps.contents = some id
    · -- The second write leaves what the first has written, and the first writes the same last.
      have notSecond := apart.documents id onFirst
      exact (oneTwo.sameOn intactOne (aim.trans_ne notSecond)).symm.trans (rows' id onFirst)
    · by_cases onSecond : second.aim? maps.contents = some id
      · exact (rows id onSecond).symm.trans (twoOne.sameOn intactTwo (aim'.trans_ne onFirst))
      · have before := (one.sameOn intact onFirst).trans
          (oneTwo.sameOn intactOne (aim.trans_ne onSecond))
        exact before.symm.trans ((two.sameOn intact onSecond).trans
          (twoOne.sameOn intactTwo (aim'.trans_ne onFirst)))
  · have endsTwo : (Store.ask (Store.ask maps first).2 second).1 ≠ .aborted := answer ▸ ends'
    have endsOne : (Store.ask (Store.ask maps second).2 first).1 ≠ .aborted := answer' ▸ ends
    exact ((oneTwo.poisoned endsTwo).trans (one.poisoned ends)).trans
      ((twoOne.poisoned endsOne).trans (two.poisoned ends')).symm

end MemoryStore
end DocAccess
