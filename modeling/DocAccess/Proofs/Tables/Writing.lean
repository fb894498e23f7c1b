import DocAccess.Proofs.Tables.Holding

/-!
# Writes of the two stores

Asked the same at the same moment, a store in memory and tables that hold its maps write
the same. They find out in different ways whether they can: the one looks before it
writes, the other reads it off the violation or off the number of changed rows. So they
fail in the same cases, each in its own words.
-/

set_option autoImplicit false

namespace DocAccess

open Relational (Cell Database DatabaseError Row Table)

variable {α β : Type}

/-- Answers that a caller takes for the same: one value, or failures of one kind. -/
def Outcome.Agrees : Outcome α → Outcome α → Prop
  | .ok value, .ok other => value = other
  | .error failure, .error other => failure.kind = other.kind
  | _, _ => False

theorem Outcome.Agrees.refl {outcome : Outcome α} (ends : outcome ≠ .aborted) :
    outcome.Agrees outcome := by
  cases outcome with
  | ok value => exact rfl
  | error failure => exact rfl
  | aborted => exact absurd rfl ends

/-! ## Transactions that are left to run -/

namespace Body

variable {operation : String} {look : Nat} {database changed : Database}
  {report : DatabaseError → StoreError}

theorem run_attempt_ok {run : Database → Except DatabaseError (β × Database)} {next : β → Body α}
    {value : β} (succeeds : run database = .ok (value, changed)) :
    (attempt run report next).run .never operation look database =
      (next value).run .never operation (look + 1) changed := by
  simp [attempt, Body.run, Cancellation.isRaised, Cancellation.never, succeeds]

theorem run_attempt_error {run : Database → Except DatabaseError (β × Database)}
    {next : β → Body α} {error : DatabaseError} (fails : run database = .error error) :
    (attempt run report next).run .never operation look database =
      (.error (report error), database, look + 1) := by
  simp [attempt, Body.run, Cancellation.isRaised, Cancellation.never, fails]

theorem run_execute_ok {run : Database → Except DatabaseError Database} {next : Body α}
    (succeeds : run database = .ok changed) :
    (execute run report next).run .never operation look database =
      next.run .never operation (look + 1) changed :=
  run_attempt_ok (by rw [succeeds]; rfl)

theorem run_execute_error {run : Database → Except DatabaseError Database} {next : Body α}
    {error : DatabaseError} (fails : run database = .error error) :
    (execute run report next).run .never operation look database =
      (.error (report error), database, look + 1) :=
  run_attempt_error (by rw [fails]; rfl)

theorem run_query_ok {run : Database → Except DatabaseError β} {next : β → Body α} {value : β}
    (reads : run database = .ok value) :
    (query run report next).run .never operation look database =
      (next value).run .never operation (look + 1) database :=
  run_attempt_ok (by rw [reads]; rfl)

end Body

namespace TableStore

variable {database changed : Database} {name : String} {body : Body α} {last : Nat}

theorem transaction_ok {value : α}
    (runs : body.run .never name 3 database = (.ok value, changed, last)) :
    transaction ⟨database, false⟩ .never name body = (.ok value, ⟨changed, false⟩) := by
  have ends : inTransaction .never {} name 2 database body = (.ok value, changed) := by
    show finish .never {} name database (body.run .never name 3 database) = _
    rw [runs]
    rfl
  simp [transaction, ends, Outcome.ofExcept]

theorem transaction_error {failure : StoreError}
    (runs : body.run .never name 3 database = (.error failure, changed, last)) :
    transaction ⟨database, false⟩ .never name body = (.error failure, ⟨database, false⟩) := by
  have ends : inTransaction .never {} name 2 database body = (.error failure, database) := by
    show finish .never {} name database (body.run .never name 3 database) = _
    rw [runs]
    rfl
  simp [transaction, ends, Outcome.ofExcept]

variable {report : DatabaseError → StoreError} {unchanged : StoreError}
  {statement : Database → Except DatabaseError (Nat × Database)}

theorem execute_changed (changes : statement database = .ok (1, changed)) :
    execute ⟨database, false⟩ report unchanged statement = (.ok (), ⟨changed, false⟩) := by
  simp [execute, changes]

theorem execute_unchanged (leaves : statement database = .ok (0, changed)) :
    execute ⟨database, false⟩ report unchanged statement =
      (.error unchanged, ⟨database, false⟩) := by
  simp [execute, leaves]

theorem execute_error {error : DatabaseError} (fails : statement database = .error error) :
    execute ⟨database, false⟩ report unchanged statement =
      (.error (report error), ⟨database, false⟩) := by
  simp [execute, fails]

variable {store : TableStore}

theorem worker_never (work : Outcome α × TableStore) : store.worker .never name work = work := rfl

theorem clocked_of_now? {moment : Moment} {now : Timestamp} (read : moment.clock.now? = some now)
    (work : Timestamp → Outcome α × TableStore) : store.clocked name moment work = work now := by
  rw [clocked, read]

end TableStore

/-- The tables have been written as the maps have. -/
def Follows (tables : Outcome α × TableStore) (memory : Outcome α × MemoryStore) : Prop :=
  memory.1.Agrees tables.1 ∧
    ∃ after : StoreTables, after.Holds memory.2 ∧ tables.2 = ⟨after.database, false⟩

/-- Why tables that hold some maps refuse an operation, if they do, while the clock can be
read. -/
def TableStore.refusal? (memory : MemoryStore) (drawn : Uuid) :
    Operation α → Option StoreError
  | .createDocument _ _ =>
      if memory.documents.contains (⟨drawn⟩ : DocumentId) then
        some (.ofDatabase "create document" (.duplicateKey "documents" ["id"]))
      else none
  | .getDocument id =>
      if memory.documents.contains id then none else some (.documentNotFound id)
  | .updateDocument id fields =>
      if fields.isEmpty || memory.documents.contains id then none else some (.documentNotFound id)
  | .deleteDocument id =>
      if memory.documents.contains id then none else some (.documentNotFound id)
  | .upsertUser user id _ =>
      if memory.documents.contains id then
        memory.permissions[(⟨.ofUser user, id⟩ : PermissionKey)]?.bind fun permission =>
          if permission.recipientType = .guest then some (.heldByGuest user id) else none
      else some (.notFound "upsert user permission: referenced document does not exist")
  | .updateGuest guest _ =>
      if (memory.guestPermission? guest).isSome then none else some (.guestPermissionNotFound guest)
  | .getPermission id principal =>
      if memory.permissions.contains (⟨principal, id⟩ : PermissionKey) then none
      else some (.permissionNotFound principal id)
  | .deletePermission principal id =>
      if memory.permissions.contains (⟨principal, id⟩ : PermissionKey) then none
      else some (.permissionNotFound principal id)
  | .listPermissions id listing =>
      match listing.validate with
      | .error failure => some failure
      | .ok _ => if memory.documents.contains id then none else some (.documentNotFound id)
  | .listDocuments _ listing =>
      match listing.validate with
      | .error failure => some failure
      | .ok _ => none
  | .createGuest _ id _ =>
      -- The record is written first, and a key that is taken is found before a reference.
      if memory.guests.contains (⟨drawn⟩ : GuestId) ||
          memory.permissions.contains (⟨.ofGuest ⟨drawn⟩, id⟩ : PermissionKey) then
        some (.uniqueConflict "create guest: row already exists")
      else if memory.documents.contains id then none
      else some (.notFound "create guest: referenced document does not exist")
  | .getGuest guest =>
      if memory.guests.contains guest then none else some (.guestNotFound guest)

/-- An outcome is the failure for a reason if there is one, and a value if there is none. -/
def Outcome.Heeds (refusal : Option StoreError) : Outcome α → Prop
  | .ok _ => refusal = none
  | .error failure => refusal = some failure
  | .aborted => False

namespace Outcome.Heeds

variable {refusal : Option StoreError} {outcome : Outcome α}

theorem errorKind?_eq (heeds : outcome.Heeds refusal) :
    outcome.errorKind? = refusal.map StoreError.kind := by
  cases outcome with
  | ok value =>
      rw [show refusal = none from heeds]
      rfl
  | error failure =>
      rw [show refusal = some failure from heeds]
      rfl
  | aborted => exact heeds.elim

theorem exists_ok_iff (heeds : outcome.Heeds refusal) :
    (∃ value, outcome = .ok value) ↔ refusal = none := by
  cases outcome with
  | ok value => exact ⟨fun _ => heeds, fun _ => ⟨value, rfl⟩⟩
  | error failure =>
      rw [show refusal = some failure from heeds]
      simp
  | aborted => exact heeds.elim

theorem eq_error {failure : StoreError} (heeds : outcome.Heeds (some failure)) :
    outcome = .error failure := by
  cases outcome with
  | ok value => cases heeds
  | error other => exact congrArg Outcome.error (Option.some.inj heeds).symm
  | aborted => exact heeds.elim

end Outcome.Heeds

/-- The tables have been written as the maps have, unless there is a reason to refuse. -/
structure Tracks (refusal : Option StoreError) (tables : Outcome α × TableStore)
    (memory : Outcome α × MemoryStore) : Prop where
  heeds : tables.1.Heeds refusal
  follows : Follows tables memory

namespace StoreTables.Holds

variable {tables : StoreTables} {memory : MemoryStore} {moment : Moment} {now : Timestamp}

variable {refusal : Option StoreError}

theorem refuses (holds : tables.Holds memory) {failure other : StoreError}
    (refused : refusal = some other) (same : failure.kind = other.kind) :
    Tracks (α := α) refusal (.error other, ⟨tables.database, false⟩) (.error failure, memory) :=
  ⟨refused, same, tables, holds, rfl⟩

theorem writes (holds : tables.Holds memory) {value : α} (accepted : refusal = none) :
    Tracks refusal (.ok value, ⟨tables.database, false⟩) (.ok value, memory) :=
  ⟨accepted, rfl, tables, holds, rfl⟩

theorem step_locked (live : memory.poisoned = false) (name : String)
    (body : Outcome α × MemoryStore) : memory.locked name body = body := by
  simp [MemoryStore.locked, live]

theorem createDocument (holds : tables.Holds memory) (intact : memory.Integrity)
    (live : memory.poisoned = false) (read : moment.clock.now? = some now) (creator : UserId)
    (fields : DocumentFields) :
    Tracks (TableStore.refusal? memory moment.drawn (.createDocument creator fields))
      (TableStore.step ⟨tables.database, false⟩ moment (.createDocument creator fields))
      (memory.step moment (.createDocument creator fields)) := by
  let document := Document.ofFields ⟨moment.drawn⟩ fields now
  let owner := Permission.ofOwner creator ⟨moment.drawn⟩ now
  have written : TableStore.step ⟨tables.database, false⟩ moment (.createDocument creator fields) =
      TableStore.transaction ⟨tables.database, false⟩ .never "create document"
        (TableStore.createDocument document owner) := by
    simp only [TableStore.step, TableStore.stepUnder, TableStore.worker_never,
      TableStore.clocked_of_now? read]
    rfl
  have asked : memory.step moment (.createDocument creator fields) =
      memory.createDocument moment creator fields := step_locked live _ _
  rw [written, asked]
  cases taken : memory.documents.contains (⟨moment.drawn⟩ : DocumentId) with
  | true =>
      have runs : (TableStore.createDocument document owner).run .never "create document" 3
          tables.database = (.error _, tables.database, 4) :=
        Body.run_execute_error (holds.insert_document_taken document taken)
      rw [TableStore.transaction_error runs, MemoryStore.createDocument, if_pos taken]
      exact holds.refuses (if_pos taken) rfl
  | false =>
      have added := holds.addDocument document
      have unheld : memory.permissions.contains owner.key = false := intact.unheld taken
      have runs : (TableStore.createDocument document owner).run .never "create document" 3
          tables.database =
            (.ok ⟨moment.drawn⟩, ((tables.addDocument document).addPermission owner).database, 5) :=
        (Body.run_execute_ok (holds.insert_document document taken)).trans
          (Body.run_execute_ok
            (added.insert_permission owner unheld Std.ExtTreeMap.contains_insert_self))
      rw [TableStore.transaction_ok runs, MemoryStore.createDocument,
        if_neg (Bool.eq_false_iff.1 taken), read]
      exact (added.addPermission owner).writes (if_neg (Bool.eq_false_iff.1 taken))

theorem updateDocument_empty (holds : tables.Holds memory) {fields : DocumentFields}
    (empty : fields.isEmpty = true) (id : DocumentId) :
    Tracks (TableStore.refusal? memory moment.drawn (.updateDocument id fields))
      (TableStore.step ⟨tables.database, false⟩ moment (.updateDocument id fields))
      (memory.step moment (.updateDocument id fields)) := by
  have written : TableStore.step ⟨tables.database, false⟩ moment (.updateDocument id fields) =
      (.ok (), ⟨tables.database, false⟩) := if_pos empty
  have asked : memory.step moment (.updateDocument id fields) = (.ok (), memory) := if_pos empty
  rw [written, asked]
  exact holds.writes (if_pos (Bool.or_eq_true_iff.2 (.inl empty)))

theorem updateDocument (holds : tables.Holds memory) (live : memory.poisoned = false)
    (read : moment.clock.now? = some now) {fields : DocumentFields}
    (sets : fields.isEmpty = false) (id : DocumentId) :
    Tracks (TableStore.refusal? memory moment.drawn (.updateDocument id fields))
      (TableStore.step ⟨tables.database, false⟩ moment (.updateDocument id fields))
      (memory.step moment (.updateDocument id fields)) := by
  have written : TableStore.step ⟨tables.database, false⟩ moment (.updateDocument id fields) =
      TableStore.execute ⟨tables.database, false⟩ (.ofDatabase "update document")
        (.documentNotFound id) fun database =>
          database.update "documents" (documentRows.cells id) (fun _ => true)
            (Document.setFields fields now) := by
    simp only [TableStore.step, TableStore.stepUnder, TableStore.worker_never,
      TableStore.clocked_of_now? read, sets]
    rfl
  have asked : memory.step moment (.updateDocument id fields) =
      memory.updateDocument moment id fields :=
    (if_neg (Bool.eq_false_iff.1 sets)).trans (step_locked live _ _)
  rw [written, asked, MemoryStore.updateDocument]
  cases found : memory.documents[id]? with
  | none =>
      rw [TableStore.execute_unchanged (holds.update_document_missing found _)]
      have absent := Map.contains_eq_false_iff.2 found
      exact holds.refuses (if_neg (Bool.eq_false_iff.1 (Bool.or_eq_false_iff.2 ⟨sets, absent⟩))) rfl
  | some document =>
      rw [TableStore.execute_changed (holds.update_document found _), read]
      have present := Map.contains_iff.2 ⟨document, found⟩
      exact (holds.changeDocument found (document.setFields_toRow fields now)).writes
        (if_pos (Bool.or_eq_true_iff.2 (.inr present)))

theorem deletePermission (holds : tables.Holds memory) (live : memory.poisoned = false)
    (principal : PrincipalId) (id : DocumentId) :
    Tracks (TableStore.refusal? memory moment.drawn (.deletePermission principal id))
      (TableStore.step ⟨tables.database, false⟩ moment (.deletePermission principal id))
      (memory.step moment (.deletePermission principal id)) := by
  let key : PermissionKey := ⟨principal, id⟩
  have written : TableStore.step ⟨tables.database, false⟩ moment (.deletePermission principal id) =
      TableStore.execute ⟨tables.database, false⟩ (.ofDatabase "delete permission")
        (.permissionNotFound principal id) fun database =>
          database.delete {} "permissions" (permissionRows.cells key) := rfl
  have asked : memory.step moment (.deletePermission principal id) =
      memory.deletePermission principal id := step_locked live _ _
  rw [written, asked]
  cases present : memory.permissions.contains key with
  | false =>
      have missing := Map.contains_eq_false_iff.1 present
      rw [TableStore.execute_unchanged (holds.delete_permission_missing missing),
        MemoryStore.deletePermission, if_neg (Bool.eq_false_iff.1 present)]
      exact holds.refuses (if_neg (Bool.eq_false_iff.1 present)) rfl
  | true =>
      obtain ⟨permission, held⟩ := Map.contains_iff.1 present
      rw [TableStore.execute_changed (holds.delete_permission held),
        MemoryStore.deletePermission, if_pos present]
      exact (holds.dropPermission key).writes (if_pos present)

theorem upsertUser (holds : tables.Holds memory) (intact : memory.Integrity)
    (live : memory.poisoned = false) (read : moment.clock.now? = some now) (user : UserId)
    (id : DocumentId) (level : PermissionLevel) :
    Tracks (TableStore.refusal? memory moment.drawn (.upsertUser user id level))
      (TableStore.step ⟨tables.database, false⟩ moment (.upsertUser user id level))
      (memory.step moment (.upsertUser user id level)) := by
  let added := Permission.ofUser user id level now
  have written : TableStore.step ⟨tables.database, false⟩ moment (.upsertUser user id level) =
      TableStore.execute ⟨tables.database, false⟩ (.ofInsertion "upsert user permission")
        (.heldByGuest user id) (TableStore.upsertUser added) := by
    simp only [TableStore.step, TableStore.stepUnder, TableStore.worker_never,
      TableStore.clocked_of_now? read]
    rfl
  have asked : memory.step moment (.upsertUser user id level) =
      memory.upsertUser moment user id level := step_locked live _ _
  rw [written, asked, MemoryStore.upsertUser, read]
  cases present : memory.documents.contains id with
  | false =>
      have unheld : memory.permissions.contains added.key = false := intact.unheld present
      have fails := holds.upsert_permission_missing unheld (TableStore.isHeldBy .user)
        (Permission.setLevel level now)
      rw [holds.insert_permission_dangling added unheld present] at fails
      rw [TableStore.execute_error fails]
      exact holds.refuses (if_neg (Bool.eq_false_iff.1 present)) rfl
  | true =>
      have permitted : TableStore.refusal? memory moment.drawn (.upsertUser user id level) =
          memory.permissions[added.key]?.bind fun permission =>
            if permission.recipientType = .guest then some (.heldByGuest user id) else none :=
        if_pos present
      rw [if_pos rfl, permitted]
      dsimp only
      cases held : memory.permissions[added.key]? with
      | none =>
          have unheld := Map.contains_eq_false_iff.2 held
          have inserts := holds.upsert_permission_missing unheld (TableStore.isHeldBy .user)
            (Permission.setLevel level now)
          rw [holds.insert_permission added unheld present] at inserts
          rw [TableStore.execute_changed inserts,
            show memory.permissions[(⟨.ofUser user, id⟩ : PermissionKey)]? = none from held]
          exact (holds.addPermission added).writes rfl
      | some permission =>
          have changes := holds.upsert_permission held .user
            (Permission.setLevel level now)
          rw [show memory.permissions[(⟨.ofUser user, id⟩ : PermissionKey)]? = some permission
            from held]
          dsimp only
          cases type : permission.recipientType with
          | guest =>
              rw [type, if_neg (by simp)] at changes
              rw [TableStore.execute_unchanged changes, if_pos rfl]
              exact holds.refuses (if_pos type) rfl
          | user =>
              rw [type, if_pos rfl] at changes
              rw [TableStore.execute_changed changes, if_neg (by simp)]
              exact (holds.changePermission held rfl).writes (if_neg (by simp [type]))

theorem updateGuest (holds : tables.Holds memory) (live : memory.poisoned = false)
    (read : moment.clock.now? = some now) (guest : GuestId) (level : PermissionLevel) :
    Tracks (TableStore.refusal? memory moment.drawn (.updateGuest guest level))
      (TableStore.step ⟨tables.database, false⟩ moment (.updateGuest guest level))
      (memory.step moment (.updateGuest guest level)) := by
  have written : TableStore.step ⟨tables.database, false⟩ moment (.updateGuest guest level) =
      TableStore.execute ⟨tables.database, false⟩ (.ofDatabase "update guest permission")
        (.guestPermissionNotFound guest) (TableStore.updateGuest guest level now) := by
    simp only [TableStore.step, TableStore.stepUnder, TableStore.worker_never,
      TableStore.clocked_of_now? read]
    rfl
  have asked : memory.step moment (.updateGuest guest level) =
      memory.updateGuest moment guest level := step_locked live _ _
  have looked := holds.row?_guest guest
  rw [written, asked, MemoryStore.updateGuest]
  cases found : memory.guests[guest]? with
  | none =>
      rw [found] at looked
      have leaves : TableStore.updateGuest guest level now tables.database =
          .ok (0, tables.database) := by
        rw [TableStore.updateGuest, show tables.database.row? "guests" [guest.toCell] = .ok none
          from looked]
      have unheld : memory.guestPermission? guest = none := by
        rw [MemoryStore.guestPermission?, found]
      rw [TableStore.execute_unchanged leaves, unheld]
      exact holds.refuses (by simp [TableStore.refusal?, unheld]) rfl
  | some record =>
      let key : PermissionKey := ⟨.ofGuest guest, record.documentId⟩
      rw [found] at looked
      have updates : TableStore.updateGuest guest level now tables.database =
          tables.database.update "permissions" (permissionRows.cells key)
            (TableStore.isHeldBy .guest) (Permission.setLevel level now) := by
        rw [TableStore.updateGuest, show tables.database.row? "guests" [guest.toCell] =
          .ok (some record.toRow) from looked]
        rfl
      have looks := MemoryStore.guestPermission?_of_record found
      cases held : memory.permissions[key]? with
      | none =>
          rw [show memory.permissions[(⟨.ofGuest guest, record.documentId⟩ : PermissionKey)]? = none
            from held, Option.bind_none] at looks
          have unchanged := updates.trans (holds.update_permission_missing held _ _)
          rw [TableStore.execute_unchanged unchanged, looks]
          exact holds.refuses (by simp [TableStore.refusal?, looks]) rfl
      | some permission =>
          have changes := updates.trans (holds.update_permission held .guest _)
          rw [show memory.permissions[(⟨.ofGuest guest, record.documentId⟩ : PermissionKey)]? =
            some permission from held, Option.bind_some] at looks
          by_cases type : permission.recipientType = .guest
          · rw [if_pos type] at changes looks
            rw [TableStore.execute_changed changes, looks]
            dsimp only
            rw [read]
            exact (holds.changePermission held rfl).writes (by simp [TableStore.refusal?, looks])
          · rw [if_neg type] at changes looks
            rw [TableStore.execute_unchanged changes, looks]
            exact holds.refuses (by simp [TableStore.refusal?, looks]) rfl

theorem deleteDocument (holds : tables.Holds memory) (intact : memory.Integrity)
    (live : memory.poisoned = false) (id : DocumentId) :
    Tracks (TableStore.refusal? memory moment.drawn (.deleteDocument id))
      (TableStore.step ⟨tables.database, false⟩ moment (.deleteDocument id))
      (memory.step moment (.deleteDocument id)) := by
  let left := (tables.dropPermissions (refersTo id 2)).dropGuests (refersTo id 1)
  have written : TableStore.step ⟨tables.database, false⟩ moment (.deleteDocument id) =
      TableStore.transaction ⟨tables.database, false⟩ .never "delete document"
        (TableStore.deleteDocument id) := rfl
  have asked : memory.step moment (.deleteDocument id) = memory.deleteDocument id :=
    step_locked live _ _
  have kept := holds.dropReferences intact id
  rw [written, asked]
  cases present : memory.documents.contains id with
  | false =>
      have missing := Map.contains_eq_false_iff.1 present
      have runs : (TableStore.deleteDocument id).run .never "delete document" 3 tables.database =
          (.error (.documentNotFound id), left.database, 6) :=
        (Body.run_execute_ok (tables.deleteWhere_permissions _)).trans <|
          (Body.run_execute_ok (StoreTables.deleteWhere_guests _ _)).trans <|
            (Body.run_attempt_ok (kept.delete_document_missing missing)).trans rfl
      rw [TableStore.transaction_error runs, MemoryStore.deleteDocument,
        if_neg (Bool.eq_false_iff.1 present)]
      exact holds.refuses (if_neg (Bool.eq_false_iff.1 present)) rfl
  | true =>
      obtain ⟨document, found⟩ := Map.contains_iff.1 present
      have runs : (TableStore.deleteDocument id).run .never "delete document" 3 tables.database =
          (.ok (), (left.dropDocument id).database, 6) :=
        (Body.run_execute_ok (tables.deleteWhere_permissions _)).trans <|
          (Body.run_execute_ok (StoreTables.deleteWhere_guests _ _)).trans <|
            (Body.run_attempt_ok (holds.delete_document intact found)).trans rfl
      rw [TableStore.transaction_ok runs, MemoryStore.deleteDocument, if_pos present]
      exact (kept.dropDocument id).writes (if_pos present)

/-! ## Guests -/

variable {creator : PrincipalId} {id : DocumentId} {level : PermissionLevel}

theorem step_createGuest (live : memory.poisoned = false) :
    memory.step moment (.createGuest creator id level) =
      memory.createGuest moment creator id level :=
  step_locked live _ _

theorem tables_createGuest (read : moment.clock.now? = some now) :
    TableStore.step ⟨tables.database, false⟩ moment (.createGuest creator id level) =
      TableStore.transaction ⟨tables.database, false⟩ .never "create guest"
        (TableStore.createGuest ⟨⟨moment.drawn⟩, id, creator, now⟩
          (.ofGuest ⟨⟨moment.drawn⟩, id, creator, now⟩ level)) := by
  simp only [TableStore.step, TableStore.stepUnder, TableStore.worker_never,
    TableStore.clocked_of_now? read]
  rfl

/-- A guest whose record would be the second of its name is refused by both stores if the
document is there. -/
theorem createGuest (holds : tables.Holds memory) (intact : memory.Integrity)
    (live : memory.poisoned = false) (read : moment.clock.now? = some now)
    (apart : memory.guests.contains (⟨moment.drawn⟩ : GuestId) = true →
      memory.documents.contains id = true) :
    Tracks (TableStore.refusal? memory moment.drawn (.createGuest creator id level))
      (TableStore.step ⟨tables.database, false⟩ moment (.createGuest creator id level))
      (memory.step moment (.createGuest creator id level)) := by
  let guest : Guest := ⟨⟨moment.drawn⟩, id, creator, now⟩
  let permission := Permission.ofGuest guest level
  rw [tables_createGuest read, step_createGuest live, MemoryStore.createGuest]
  cases present : memory.documents.contains id with
  | false =>
      have fresh : memory.guests.contains guest.id = false := by
        cases taken : memory.guests.contains guest.id with
        | false => rfl
        | true =>
            rw [apart taken] at present
            cases present
      have runs : (TableStore.createGuest guest permission).run .never "create guest" 3
          tables.database = (.error _, tables.database, 4) :=
        Body.run_execute_error (holds.insert_guest_dangling guest fresh present)
      have unheld : memory.permissions.contains permission.key = false := intact.unheld present
      have dangles : TableStore.refusal? memory moment.drawn (.createGuest creator id level) =
          some (.notFound "create guest: referenced document does not exist") := by
        refine (if_neg (Bool.eq_false_iff.1 (Bool.or_eq_false_iff.2 ⟨fresh, unheld⟩))).trans ?_
        exact if_neg (Bool.eq_false_iff.1 present)
      rw [TableStore.transaction_error runs]
      exact holds.refuses dangles rfl
  | true =>
      rw [if_pos rfl]
      dsimp only
      cases taken : memory.guests.contains guest.id with
      | true =>
          have runs : (TableStore.createGuest guest permission).run .never "create guest" 3
              tables.database = (.error _, tables.database, 4) :=
            Body.run_execute_error (holds.insert_guest_taken guest taken)
          rw [TableStore.transaction_error runs, Bool.true_or, if_pos rfl]
          exact holds.refuses (if_pos (Bool.or_eq_true_iff.2 (.inl taken))) rfl
      | false =>
          have added := holds.addGuest guest
          have inserts := holds.insert_guest guest taken present
          rw [Bool.false_or]
          cases held : memory.permissions.contains
              (⟨.ofGuest ⟨moment.drawn⟩, id⟩ : PermissionKey) with
          | true =>
              have runs : (TableStore.createGuest guest permission).run .never "create guest" 3
                  tables.database = (.error _, (tables.addGuest guest).database, 5) :=
                (Body.run_execute_ok inserts).trans
                  (Body.run_execute_error (added.insert_permission_taken permission held))
              rw [TableStore.transaction_error runs, if_pos rfl]
              exact holds.refuses (if_pos (Bool.or_eq_true_iff.2 (.inr held))) rfl
          | false =>
              have runs : (TableStore.createGuest guest permission).run .never "create guest" 3
                  tables.database =
                    (.ok guest.id, ((tables.addGuest guest).addPermission permission).database,
                      5) :=
                (Body.run_execute_ok inserts).trans
                  (Body.run_execute_ok (added.insert_permission permission held present))
              have fits : TableStore.refusal? memory moment.drawn (.createGuest creator id level) =
                  none := by
                have unclashed := Bool.or_eq_false_iff.2 ⟨taken, held⟩
                refine (if_neg (Bool.eq_false_iff.1 unclashed)).trans ?_
                exact if_pos present
              rw [TableStore.transaction_ok runs, if_neg Bool.false_ne_true, read]
              exact (added.addPermission permission).writes fits

/-- A guest of a taken identifier on a document that is not there: the store in memory
misses the document, the tables meet the guest first. -/
theorem createGuest_clash (holds : tables.Holds memory) (live : memory.poisoned = false)
    (read : moment.clock.now? = some now)
    (taken : memory.guests.contains (⟨moment.drawn⟩ : GuestId) = true)
    (missing : memory.documents.contains id = false) (creator : PrincipalId)
    (level : PermissionLevel) :
    memory.step moment (.createGuest creator id level) =
        (.error (.documentNotFound id), memory) ∧
      TableStore.step ⟨tables.database, false⟩ moment (.createGuest creator id level) =
        (.error (.uniqueConflict "create guest: row already exists"),
          ⟨tables.database, false⟩) := by
  let guest : Guest := ⟨⟨moment.drawn⟩, id, creator, now⟩
  have runs : (TableStore.createGuest guest (.ofGuest guest level)).run .never "create guest" 3
      tables.database = (.error _, tables.database, 4) :=
    Body.run_execute_error (holds.insert_guest_taken guest taken)
  constructor
  · rw [step_createGuest live, MemoryStore.createGuest, if_neg (Bool.eq_false_iff.1 missing)]
  · rw [tables_createGuest read, TableStore.transaction_error runs]
    rfl

end StoreTables.Holds
end DocAccess
