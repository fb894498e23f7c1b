import DocAccess.Proofs.Calls

/-!
# Who owns a document

Through the service a document has the owner that made it or none. Only the making of a
document writes a row of level owner, and it does so on an identifier under which no document
is stored; every other call leaves such a row as it is or takes it away. So an owner that is
gone does not come back while the document is there.
-/

set_option autoImplicit false

namespace DocAccess

variable {α : Type}

/-! ## Statements -/

/-- Takes note of a document that has been made. -/
def noteMade (creators : DocumentId → Option UserId) :
    Option (UserId × DocumentId) → DocumentId → Option UserId
  | some (creator, made), id => if id = made then some creator else creators id
  | none, id => creators id

/-- Takes note of a call, which may have made a document. -/
def noteCall (creators : DocumentId → Option UserId) (call : Call) : DocumentId → Option UserId :=
  noteMade creators (call.request.made? call.outcome)

/-- Who has made each document, by some calls. The last call that has made a document of an
identifier counts, since the ones before have been deleted. -/
def creators (calls : List Call) : DocumentId → Option UserId :=
  calls.foldl noteCall fun _ => none

/-- A row of level owner as the making of a document leaves it. -/
structure Permission.IsCreators (permission : Permission) (creator? : Option UserId)
    (document : Document) : Prop where
  byUser : permission.recipientType = .user
  creator : ∃ creator, creator? = some creator ∧ permission.recipientId = .ofUser creator ∧
    permission.createdBy = .ofUser creator
  created : permission.createdAt = document.createdAt
  modified : permission.lastModifiedAt = document.createdAt

/-- The rows of level owner on a document. -/
def Contents.owners (contents : Contents) (id : DocumentId) : List Permission :=
  contents.permissions.filter fun row => row.documentId = id && row.level = .owner

/-- Every document has one owner at most, its creator since it was made. -/
structure Contents.Owned (contents : Contents) (creators : DocumentId → Option UserId) : Prop where
  single (id : DocumentId) : (contents.owners id).length ≤ 1
  creator (permission : Permission) : permission ∈ contents.permissions →
    permission.level = .owner → ∃ document ∈ contents.documents,
      document.id = permission.documentId ∧
        permission.IsCreators (creators permission.documentId) document

/-! ## Steps -/

namespace MemoryStore

variable {store after : MemoryStore} {moment : Moment} {operation : Operation α}
  {outcome : Outcome α}

namespace Change

/-- A document that is there stays with its time, unless it is deleted. -/
theorem document_stays (changes : Change store moment operation outcome after) {id : DocumentId}
    {document : Document} (found : store.documents[id]? = some document) :
    operation.deleted? outcome = some id ∨
      ∃ changed, after.documents[id]? = some changed ∧ changed.createdAt = document.createdAt := by
  have replaced {other : DocumentId} {old changed : Document}
      (held : store.documents[other]? = some old) (same : changed.createdAt = old.createdAt) :
      ∃ kept, (store.documents.insert other changed)[id]? = some kept ∧
        kept.createdAt = document.createdAt := by
    by_cases this : id = other
    · subst this
      rw [held] at found
      cases found
      exact ⟨changed, Std.ExtTreeMap.getElem?_insert_self, same⟩
    · exact ⟨document, (Map.getElem?_insert_of_ne this).trans found, rfl⟩
  cases changes with
  | documentMade read fresh =>
      refine .inr ⟨document, (Map.getElem?_insert_of_ne ?_).trans found, rfl⟩
      rintro rfl
      rw [fresh] at found
      cases found
  | documentChanged read sets held => exact .inr (replaced held rfl)
  | @documentDeleted other deleted held =>
      by_cases this : id = other
      · exact .inl (this ▸ rfl)
      · exact .inr ⟨document, Map.getElem?_erase_eq_some.2 ⟨this, found⟩, rfl⟩
  | documentHalfChanged unread held => exact .inr (replaced held rfl)
  | _ => exact .inr ⟨document, found, rfl⟩

theorem fresh_of_made (changes : Change store moment operation outcome after) {creator : UserId}
    {id : DocumentId} (made : operation.made? outcome = some (creator, id)) :
    store.documents[id]? = none := by
  obtain ⟨⟨value, done⟩, writes⟩ := Action.isWrite_of_made? made
  cases changes with
  | documentMade read fresh =>
      cases made
      exact fresh
  | refused => cases done
  | answered reads =>
      rw [reads] at writes
      cases writes
  | brokenOff unread => cases done
  | _ => cases made

private theorem not_deleted (changes : Change store moment operation outcome after)
    {key : PermissionKey}
    {permission : Permission} (held : after.permissions[key]? = some permission) :
    operation.deleted? outcome ≠ some key.document := by
  intro deleted
  obtain ⟨⟨value, done⟩, writes⟩ := Action.isWrite_of_deleted? deleted
  cases changes with
  | documentDeleted found =>
      obtain ⟨-, apart⟩ := Map.getElem?_filter_eq_some.1 held
      cases deleted
      exact of_decide_eq_true apart rfl
  | refused => cases done
  | answered reads =>
      rw [reads] at writes
      cases writes
  | brokenOff unread => cases done
  | _ => cases deleted

/-- A row of level owner has been there before, or it is that of a document just made. -/
theorem owner_row (changes : Change store moment operation outcome after)
    (ungranted : operation.grantsOwner = false) {key : PermissionKey} {permission : Permission}
    (held : after.permissions[key]? = some permission) (owner : permission.level = .owner) :
    store.permissions[key]? = some permission ∨
      ∃ creator document, operation.made? outcome = some (creator, key.document) ∧
        after.documents[key.document]? = some document ∧
        permission.IsCreators (some creator) document := by
  have lower {other : PermissionKey} {written : Permission}
      (looked : (store.permissions.insert other written)[key]? = some permission)
      (level : decide (written.level = .owner) = false) :
      store.permissions[key]? = some permission := by
    rcases Map.getElem?_insert_eq_some looked with ⟨-, rfl⟩ | ⟨_, unchanged⟩
    · exact absurd owner (of_decide_eq_false level)
    · exact unchanged
  cases changes with
  | @documentMade creator fields now read fresh =>
      rcases Map.getElem?_insert_eq_some held with ⟨rfl, rfl⟩ | ⟨_, unchanged⟩
      · exact .inr ⟨creator, _, rfl, Std.ExtTreeMap.getElem?_insert_self,
          rfl, ⟨creator, rfl, rfl, rfl⟩, rfl, rfl⟩
      · exact .inl unchanged
  | documentDeleted found => exact .inl (Map.getElem?_filter_eq_some.1 held).1
  | userAdded read found fresh => exact .inl (lower held ungranted)
  | userChanged read found before byUser =>
      exact .inl (lower held ungranted)
  | guestChanged read found before byGuest =>
      exact .inl (lower held ungranted)
  | permissionDeleted before => exact .inl (Map.getElem?_erase_eq_some.1 held).2
  | guestMade read found fresh unheld =>
      exact .inl (lower held ungranted)
  | guestHalfChanged unread found before =>
      exact .inl (lower held ungranted)
  | _ => exact .inl held

end Change

/-- Every row of level owner is that of its document's creator. -/
def Owned (store : MemoryStore) (creators : DocumentId → Option UserId) : Prop :=
  ∀ (key : PermissionKey) (permission : Permission), store.permissions[key]? = some permission →
    permission.level = .owner → ∃ document, store.documents[key.document]? = some document ∧
      permission.IsCreators (creators key.document) document

/-- A document that is there and has no owner. -/
def Ownerless (store : MemoryStore) (id : DocumentId) : Prop :=
  (∃ document, store.documents[id]? = some document) ∧
    ∀ (key : PermissionKey) (permission : Permission),
      store.permissions[key]? = some permission → key.document = id → permission.level ≠ .owner

theorem owned_empty : empty.Owned fun _ => none := by
  intro key permission held
  cases held

private theorem noteMade_of_present {creators : DocumentId → Option UserId}
    (changes : Change store moment operation outcome after) {id : DocumentId}
    {document : Document} (found : store.documents[id]? = some document) :
    noteMade creators (operation.made? outcome) id = creators id := by
  cases makes : operation.made? outcome with
  | none => rfl
  | some made =>
      obtain ⟨creator, fresh⟩ := made
      refine if_neg ?_
      rintro rfl
      rw [changes.fresh_of_made makes] at found
      cases found

theorem Owned.change {creators : DocumentId → Option UserId} (owned : store.Owned creators)
    (changes : Change store moment operation outcome after)
    (ungranted : operation.grantsOwner = false) :
    after.Owned (noteMade creators (operation.made? outcome)) := by
  intro key permission held owner
  rcases changes.owner_row ungranted held owner with
    before | ⟨creator, document, makes, found, isCreators⟩
  · obtain ⟨document, found, isCreators⟩ := owned key permission before owner
    rcases changes.document_stays found with deleted | ⟨changed, found', same⟩
    · exact absurd deleted (changes.not_deleted held)
    · refine ⟨changed, found', isCreators.byUser, ?_, isCreators.created.trans same.symm,
        isCreators.modified.trans same.symm⟩
      rw [noteMade_of_present changes found]
      exact isCreators.creator
  · refine ⟨document, found, ?_⟩
    rw [makes, noteMade, if_pos rfl]
    exact isCreators

theorem Ownerless.change {id : DocumentId} (ownerless : store.Ownerless id)
    (changes : Change store moment operation outcome after)
    (ungranted : operation.grantsOwner = false) (stays : operation.deleted? outcome ≠ some id) :
    after.Ownerless id := by
  obtain ⟨⟨document, found⟩, lower⟩ := ownerless
  constructor
  · rcases changes.document_stays found with deleted | ⟨changed, found', -⟩
    · exact absurd deleted stays
    · exact ⟨changed, found'⟩
  · intro key permission held on owner
    rcases changes.owner_row ungranted held owner with before | ⟨creator, made, makes, -, -⟩
    · exact lower key permission before on owner
    · -- The document is there, so it is not the one that has been made.
      rw [on] at makes
      rw [changes.fresh_of_made makes] at found
      cases found

/-! ## Rows -/

private theorem Owned.contents {creators : DocumentId → Option UserId} (intact : store.Integrity)
    (owned : store.Owned creators) : store.contents.Owned creators := by
  have creator (permission : Permission) (member : permission ∈ store.contents.permissions)
      (owner : permission.level = .owner) : ∃ document ∈ store.contents.documents,
        document.id = permission.documentId ∧
          permission.IsCreators (creators permission.documentId) document := by
    obtain ⟨key, held⟩ := Map.mem_values.1 member
    obtain ⟨document, found, isCreators⟩ := owned key permission held owner
    have named := intact.permission_key key permission held
    subst named
    exact ⟨document, Map.mem_values.2 ⟨_, found⟩, intact.document_id _ _ found, isCreators⟩
  refine ⟨?_, creator⟩
  intro id
  -- The rows have different names, and those of level owner have the same.
  have named (row : Permission) (member : row ∈ store.contents.owners id) :
      ∃ holder, creators id = some holder ∧ row.key = ⟨.ofUser holder, id⟩ := by
    simp only [Contents.owners, List.mem_filter, Bool.and_eq_true, decide_eq_true_eq] at member
    obtain ⟨member, on, owner⟩ := member
    obtain ⟨_, _, _, isCreators⟩ := creator row member owner
    obtain ⟨holder, known, holds, -⟩ := isCreators.creator
    exact ⟨holder, on ▸ known, by rw [Permission.key, holds, on]⟩
  have apart : ((store.contents.owners id).map Permission.key).Nodup :=
    intact.consistent.permissions_nodup.sublist (List.filter_sublist.map _)
  cases rows : store.contents.owners id with
  | nil => exact Nat.zero_le 1
  | cons row later =>
    cases later with
    | nil => exact Nat.le_refl 1
    | cons other rest =>
      rw [rows] at apart named
      obtain ⟨holder, known, name⟩ := named row (by simp)
      obtain ⟨holder', known', name'⟩ := named other (by simp)
      rw [known] at known'
      cases known'
      simp [name, name'] at apart

private theorem ownerless_iff (intact : store.Integrity) {id : DocumentId} :
    store.Ownerless id ↔ (∃ document ∈ store.contents.documents, document.id = id) ∧
      store.contents.owners id = [] := by
  have present : (∃ document, store.documents[id]? = some document) ↔
      ∃ document ∈ store.contents.documents, document.id = id := by
    constructor
    · intro given
      obtain ⟨document, found⟩ := given
      exact ⟨document, Map.mem_values.2 ⟨id, found⟩, intact.document_id id document found⟩
    · intro given
      obtain ⟨document, member, rfl⟩ := given
      obtain ⟨id, found⟩ := Map.mem_values.1 member
      exact ⟨document, intact.document_id id document found ▸ found⟩
  have lower : (∀ (key : PermissionKey) (permission : Permission),
        store.permissions[key]? = some permission → key.document = id →
          permission.level ≠ .owner) ↔ store.contents.owners id = [] := by
    rw [Contents.owners, List.filter_eq_nil_iff]
    constructor
    · intro given row member shows
      obtain ⟨key, held⟩ := Map.mem_values.1 member
      rw [Bool.and_eq_true, decide_eq_true_eq, decide_eq_true_eq] at shows
      have named := congrArg PermissionKey.document (intact.permission_key key row held)
      exact given key row held (named.symm.trans shows.1) shows.2
    · intro given key permission held on owner
      have named := congrArg PermissionKey.document (intact.permission_key key permission held)
      refine given permission (Map.mem_values.2 ⟨key, held⟩) ?_
      rw [Bool.and_eq_true, decide_eq_true_eq, decide_eq_true_eq]
      exact ⟨named.trans on, owner⟩
  exact and_congr present lower

end MemoryStore

/-! ## Runs -/

namespace Service.CallEnds

variable {maps after : MemoryStore} {moment : Moment} {request : Request α} {outcome : Outcome α}

private theorem owned {creators : DocumentId → Option UserId}
    (ends : CallEnds maps moment request outcome after) (owned : maps.Owned creators) :
    after.Owned (noteMade creators (request.made? outcome)) := by
  cases ends with
  | refused fails =>
      cases makes : request.made? outcome with
      | none => exact owned
      | some made =>
          obtain ⟨⟨value, done⟩, -⟩ := Action.isWrite_of_made? makes
          exact absurd done (fails value)
  | asked alike ungranted changes =>
      rw [← alike.made?]
      exact owned.change changes ungranted

private theorem ownerless {id : DocumentId} (ends : CallEnds maps moment request outcome after)
    (ownerless : maps.Ownerless id) (stays : request.deleted? outcome ≠ some id) :
    after.Ownerless id := by
  cases ends with
  | refused fails => exact ownerless
  | asked alike ungranted changes =>
      rw [← alike.deleted?] at stays
      exact ownerless.change changes ungranted stays

end Service.CallEnds

namespace StoreKind.Models

variable {kind : StoreKind} {store : kind.State} {maps : MemoryStore}

theorem owned_after {creators : DocumentId → Option UserId} (models : kind.Models store maps)
    (owned : maps.Owned creators) (config : ServiceConfig) (requests : List Requested) :
    ∃ after, kind.Models (Service.after config store requests) after ∧
      after.Owned ((Service.calls config store requests).foldl noteCall creators) := by
  induction requests generalizing store maps creators with
  | nil => exact ⟨maps, models, owned⟩
  | cons asked later ih =>
      obtain ⟨after, ends, models'⟩ := models.serve config asked.moment asked.request
      exact ih models' (ends.owned owned)

theorem ownerless_after {id : DocumentId} (models : kind.Models store maps)
    (ownerless : maps.Ownerless id) (config : ServiceConfig) {requests : List Requested}
    (stays : ∀ call ∈ Service.calls config store requests,
      call.request.deleted? call.outcome ≠ some id) :
    ∃ after, kind.Models (Service.after config store requests) after ∧ after.Ownerless id := by
  induction requests generalizing store maps with
  | nil => exact ⟨maps, models, ownerless⟩
  | cons asked later ih =>
      obtain ⟨first, others⟩ := List.forall_mem_cons.1 stays
      obtain ⟨after, ends, models'⟩ := models.serve config asked.moment asked.request
      exact ih models' (ends.ownerless ownerless first) others

end StoreKind.Models

/-- Whatever is asked of the service over a new store, every document is owned by nobody but
the user who made it, from the time at which it was made; and a document that has no owner
any more gets none until it is deleted. -/
theorem ownership_only_by_creation (kind : StoreKind) {store : kind.State}
    (new : InspectedStore.isNew store) (config : ServiceConfig) (requests : List Requested) :
    ∃ contents, InspectedStore.contents (Service.after config store requests) = .ok contents ∧
      contents.Owned (creators (Service.calls config store requests)) ∧
      ∀ id, (∃ document ∈ contents.documents, document.id = id) → contents.owners id = [] →
        ∀ later,
          (∀ call ∈ Service.calls config (Service.after config store requests) later,
            call.request.deleted? call.outcome ≠ some id) →
          ∃ rest, InspectedStore.contents
              (Service.after config (Service.after config store requests) later) = .ok rest ∧
            (∃ document ∈ rest.documents, document.id = id) ∧ rest.owners id = [] := by
  obtain ⟨maps, models, owned⟩ :=
    (StoreKind.models_new new).owned_after MemoryStore.owned_empty config requests
  refine ⟨maps.contents, models.contents_eq, owned.contents models.intact, ?_⟩
  intro id present lost later stays
  have ownerless := (MemoryStore.ownerless_iff models.intact).2 ⟨present, lost⟩
  obtain ⟨after, models', ownerless'⟩ := models.ownerless_after ownerless config stays
  exact ⟨after.contents, models'.contents_eq,
    (MemoryStore.ownerless_iff models'.intact).1 ownerless'⟩

/-- A user makes a document and steps down. -/
def steppingDown : List Requested := [
  ⟨DocumentId, .ofNumbers 1 1, .createDocument ⟨.ofNat 7⟩ {}⟩,
  ⟨Unit, .ofNumbers 2 2, .upsertUser ⟨.ofNat 7⟩ ⟨.ofNat 1⟩ .viewer⟩]

/-- The user tries to be owner again, by its own name and by a guest's. -/
def steppingUp : List Requested := [
  ⟨Unit, .ofNumbers 3 3, .upsertUser ⟨.ofNat 7⟩ ⟨.ofNat 1⟩ .owner⟩,
  ⟨GuestId, .ofNumbers 4 4, .createGuest ⟨.ofNat 7⟩ ⟨.ofNat 1⟩ .owner⟩,
  ⟨Unit, .ofNumbers 5 5, .upsertUser ⟨.ofNat 7⟩ ⟨.ofNat 1⟩ .editor⟩]

theorem ownership_lost_for_good :
    let store : TableStore := ⟨(TableStore.newTables default).database, false⟩
    TableStore.open ⟨0, 0⟩ .empty = (.ok (), store) ∧
      ∃ rest, (Service.after {} (Service.after {} store steppingDown) steppingUp).contents =
          .ok rest ∧
        (∃ document ∈ rest.documents, document.id = ⟨.ofNat 1⟩) ∧ rest.owners ⟨.ofNat 1⟩ = [] := by
  intro store
  have opened : TableStore.open ⟨0, 0⟩ .empty = (.ok (), store) := TableStore.open_empty rfl
  have new : InspectedStore.isNew store := ⟨_, opened⟩
  refine ⟨opened, ?_⟩
  obtain ⟨contents, held, -, kept⟩ := ownership_only_by_creation .tables new {} steppingDown
  have shows : (Service.after {} store steppingDown).contents.toOption.map (fun contents =>
      (contents.documents.any fun document => document.id = ⟨.ofNat 1⟩) &&
        (contents.owners ⟨.ofNat 1⟩).isEmpty) = some true := by decide +kernel
  rw [show (Service.after {} store steppingDown).contents = .ok contents from held] at shows
  obtain ⟨present, lost⟩ := Bool.and_eq_true_iff.1 (Option.some.inj shows)
  obtain ⟨document, member, named⟩ := List.any_eq_true.1 present
  exact kept _ ⟨document, member, of_decide_eq_true named⟩ (List.isEmpty_iff.1 lost) steppingUp
    (by decide +kernel)

end DocAccess
