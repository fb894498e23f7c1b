import DocAccess.Proofs.Tables.Answering

/-!
# The two stores side by side

A new database represents the empty store in memory, and goes on representing a store in
memory that is asked the same at the same moments. When the clock cannot be read, an
operation that needs it leaves the tables alone; the store in memory that they represent
is not asked then.
-/

set_option autoImplicit false

namespace DocAccess

open Relational (Database Table)

variable {α : Type}

namespace Action

/-- Whether an operation is to mint a guest of a taken identifier on a document that is not
there. -/
def isClash (moment : Moment) (contents : Contents) : Operation α → Bool
  | .createGuest _ document _ =>
      (contents.guests.any fun guest => guest.id = ⟨moment.drawn⟩) &&
        !contents.documents.any fun other => other.id = document
  | _ => false

/-- Whether the time of a listing's cursor is a whole microsecond. -/
def hasWholeCursor : Operation α → Bool
  | .listPermissions _ listing => listing.cursor.lastSeenTime.isWhole
  | .listDocuments _ listing => listing.cursor.lastSeenTime.isWhole
  | _ => true

end Action

namespace TableStore

/-- A store in tables that holds what a sound store in memory holds. -/
structure Represents (store : TableStore) (memory : MemoryStore) : Prop where
  held : ∃ tables : StoreTables, tables.Holds memory ∧ store = ⟨tables.database, false⟩
  intact : memory.Integrity
  whole : memory.contents.Whole
  live : memory.poisoned = false

/-! ## New stores -/

/-- The tables that a migration makes. -/
def newTables (now : Timestamp) : StoreTables where
  versions := ({ schema := Schema.migrations } : Table).put
    ⟨1, Migration.versionRow Migration.currentVersion now⟩
  documents := { schema := Schema.documents }
  permissions := { schema := Schema.permissions }
  guests := { schema := Schema.guests }
  indexes := Schema.indexes
  versions_schema := rfl
  documents_schema := rfl
  permissions_schema := rfl
  guests_schema := rfl

/-- A database before its migration, where only the record of versions is. -/
def unmigrated : Database := ⟨[{ schema := Schema.migrations }], []⟩

private theorem create_unmigrated :
    Schema.create unmigrated = .ok ⟨unmigrated.tables ++ [{ schema := Schema.documents },
      { schema := Schema.permissions }, { schema := Schema.guests }], Schema.indexes⟩ := rfl

theorem recordedVersion_unmigrated : Migration.recordedVersion unmigrated = .ok 0 := rfl

private theorem rowOf_versionCells (version : Nat) (now : Timestamp) :
    Schema.migrations.rowOf (Migration.versionCells version now) =
      .ok (Migration.versionRow version now, .null) := by
  have apart : Relational.sameName "version" "applied_at" = false := by decide
  simp [Relational.TableSchema.rowOf, Migration.versionCells, Migration.versionRow,
    Schema.migrations, Schema.timeColumn, Relational.TableSchema.position?,
    Relational.TableSchema.givesNumber, Relational.TableSchema.numberColumn?,
    Relational.sameName_self, apart, List.findIdx?_cons]

private theorem apply_unmigrated (clock : Clock) :
    Migration.apply clock unmigrated =
      match clock.now? with
      | none => .aborted
      | some now => .ok (newTables now).database := by
  rw [Migration.apply, create_unmigrated]
  cases clock.now? with
  | none => rfl
  | some now =>
      have found (others : List Table) (indexes : List (String × String)) :
          Database.table ⟨unmigrated.tables ++ others, indexes⟩ Schema.migrations.name =
            .ok { schema := Schema.migrations } := rfl
      simp only [Database.insertNamed, found, rowOf_versionCells]
      rfl

theorem migrate_empty (clock : Clock) :
    Migration.migrate clock .empty =
      match clock.now? with
      | none => (.aborted, unmigrated)
      | some now => (.ok (), (newTables now).database) := by
  have ensured : Database.empty.ensureTable Schema.migrations = .ok unmigrated := rfl
  simp only [Migration.migrate, ensured, recordedVersion_unmigrated, apply_unmigrated]
  cases clock.now? with
  | none => rfl
  | some now => rfl

private theorem newTables_holds (now : Timestamp) : (newTables now).Holds .empty := by
  refine ⟨⟨fun _ => rfl, ?_, rfl⟩, ⟨fun _ => rfl, ?_, rfl⟩, ⟨fun _ => rfl, ?_, rfl⟩⟩
  all_goals
    intro key row found
    cases found

theorem open_empty {clock : Clock} {now : Timestamp} (read : clock.now? = some now) :
    TableStore.open clock .empty = (.ok (), ⟨(newTables now).database, false⟩) := by
  rw [TableStore.open, migrate_empty, read]

theorem represents_open {clock : Clock} {store : TableStore}
    (opened : TableStore.open clock .empty = (.ok (), store)) : store.Represents .empty := by
  cases read : clock.now? with
  | none =>
      rw [TableStore.open, migrate_empty, read] at opened
      cases opened
  | some now =>
      cases (open_empty read).symm.trans opened
      refine ⟨⟨newTables now, newTables_holds now, rfl⟩, MemoryStore.integrity_empty, ?_, rfl⟩
      intro time stored
      exact absurd stored (MemoryStore.not_hasTime_empty time)

theorem isClash_createGuest {memory : MemoryStore} (intact : memory.Integrity) {moment : Moment}
    {creator : PrincipalId} {id : DocumentId} {level : PermissionLevel} :
    Action.isClash moment memory.contents (.createGuest creator id level) =
      (memory.guests.contains ⟨moment.drawn⟩ && !memory.documents.contains id) := by
  rw [← Map.any_values intact.guest_id, ← Map.any_values intact.document_id]
  rfl

/-! ## Operations without the time -/

/-- The worker of an operation that cannot read the clock breaks off before it writes. -/
theorem step_unread (store : TableStore) {moment : Moment} {operation : Operation α}
    (clocked : operation.isClocked = true) (unread : moment.isReadable = false) :
    store.step moment operation =
      (.error (.repository operation.name (.workerFailed "the clock cannot be read")), store) := by
  have none : moment.clock.now? = none := by
    cases read : moment.clock.now? with
    | none => rfl
    | some now => rw [Moment.isReadable, read] at unread; cases unread
  cases operation with
  | createDocument creator fields =>
      simp only [step, stepUnder, worker_never, TableStore.clocked, none]
  | updateDocument id fields =>
      have sets : fields.isEmpty = false := by simpa [Action.isClocked] using clocked
      simp only [step, stepUnder, worker_never, TableStore.clocked, none, sets]
      rfl
  | upsertUser user id level =>
      simp only [step, stepUnder, worker_never, TableStore.clocked, none]
  | updateGuest guest level =>
      simp only [step, stepUnder, worker_never, TableStore.clocked, none]
  | createGuest creator id level =>
      simp only [step, stepUnder, worker_never, TableStore.clocked, none]
  | _ => cases clocked

/-- An operation that cannot have the time fails in the same way on all tables. -/
theorem step_untimely {moment : Moment} {operation : Operation α}
    (untimely : ¬ (operation.isClocked = true → moment.isReadable = true)) :
    ∃ failure, ∀ store : TableStore, store.step moment operation = (.error failure, store) := by
  obtain ⟨clocked, unread⟩ := Classical.not_imp.1 untimely
  exact ⟨_, fun store => step_unread store clocked (Bool.eq_false_iff.2 unread)⟩

namespace Represents

variable {store : TableStore} {memory : MemoryStore} {moment : Moment} {operation : Operation α}

theorem contents_eq (represents : store.Represents memory) :
    store.contents = .ok memory.contents := by
  obtain ⟨tables, holds, rfl⟩ := represents.held
  exact holds.contents_eq represents.whole

theorem step_list (represents : store.Represents memory) (scope : Scope α) (listing : Listing)
    (moment : Moment) : store.step moment (scope.list listing) =
      (scope.answer memory.contents listing listing.cursor.truncate, store) := by
  obtain ⟨tables, holds, rfl⟩ := represents.held
  exact holds.step_list represents.intact represents.whole scope listing moment

/-! ## Steps -/

/-- What follows a step of the store in memory represents it afterwards. -/
private theorem of_follows (represents : store.Represents memory)
    (follows : Follows (store.step moment operation) (memory.step moment operation)) :
    (store.step moment operation).2.Represents (memory.step moment operation).2 := by
  obtain ⟨agrees, after, holds, written⟩ := follows
  have changes := MemoryStore.change_step memory moment operation
  have ends : (memory.step moment operation).1 ≠ .aborted := by
    intro aborted
    rw [aborted] at agrees
    exact agrees
  exact ⟨⟨after, holds, written⟩, represents.intact.change changes,
    changes.successor.whole represents.whole, (changes.poisoned ends).trans represents.live⟩

private theorem step_scope (represents : store.Represents memory) (scope : Scope α)
    (listing : Listing) : (store.step moment (scope.list listing)).2.Represents
        (memory.step moment (scope.list listing)).2 ∧
      (listing.cursor.lastSeenTime.isWhole = true →
        (memory.step moment (scope.list listing)).1.Agrees
          (store.step moment (scope.list listing)).1) := by
  rw [represents.step_list, MemoryStore.step_list represents.intact represents.live]
  refine ⟨represents, fun whole => ?_⟩
  have same : listing.cursor.truncate = listing.cursor := by
    rw [Cursor.truncate, (Timestamp.truncate_eq_self_iff _).2 whole]
  rw [same]
  exact Outcome.Agrees.refl (scope.answer_ne_aborted _ _ _)

private theorem heeds_scope (represents : store.Represents memory) (scope : Scope α)
    (listing : Listing) : (store.step moment (scope.list listing)).1.Heeds
      (refusal? memory moment.drawn (scope.list listing)) := by
  rw [represents.step_list]
  cases scope with
  | document id =>
      simp only [Scope.answer, Scope.list, refusal?]
      cases listing.validate with
      | error failure => exact rfl
      | ok checked =>
          rw [MemoryStore.missing?_eq represents.intact]
          cases memory.documents.contains id <;> exact rfl
  | principal id =>
      simp only [Scope.answer, Scope.list, refusal?]
      cases listing.validate <;> exact rfl

/-- The two stores go on side by side, and answer alike but for a guest that clashes and for
cursors between two microseconds. The tables fail for the reasons that they have. -/
theorem track (represents : store.Represents memory) (operation : Operation α)
    (timely : operation.isClocked = true → moment.isReadable = true) :
    (store.step moment operation).2.Represents (memory.step moment operation).2 ∧
      (operation.isClash moment memory.contents = false → operation.hasWholeCursor = true →
        (memory.step moment operation).1.Agrees (store.step moment operation).1) ∧
      (store.step moment operation).1.Heeds (refusal? memory moment.drawn operation) := by
  have of_tracks (tracks : Tracks (refusal? memory moment.drawn operation)
      (store.step moment operation) (memory.step moment operation)) :
      (store.step moment operation).2.Represents (memory.step moment operation).2 ∧
        (operation.isClash moment memory.contents = false → operation.hasWholeCursor = true →
          (memory.step moment operation).1.Agrees (store.step moment operation).1) ∧
        (store.step moment operation).1.Heeds (refusal? memory moment.drawn operation) :=
    ⟨represents.of_follows tracks.follows, fun _ _ => tracks.follows.1, tracks.heeds⟩
  obtain ⟨tables, holds, rfl⟩ := represents.held
  have intact := represents.intact
  have whole := represents.whole
  have live := represents.live
  have reading (clocked : operation.isClocked = true) : ∃ now, moment.clock.now? = some now :=
    Option.isSome_iff_exists.1 (timely clocked)
  cases operation with
  | createDocument creator fields =>
      obtain ⟨now, read⟩ := reading rfl
      exact of_tracks (holds.createDocument intact live read creator fields)
  | getDocument id => exact of_tracks (holds.getDocument whole live id)
  | updateDocument id fields =>
      cases sets : fields.isEmpty with
      | true => exact of_tracks (holds.updateDocument_empty sets id)
      | false =>
          obtain ⟨now, read⟩ := reading (by simp [Action.isClocked, sets])
          exact of_tracks (holds.updateDocument live read sets id)
  | deleteDocument id => exact of_tracks (holds.deleteDocument intact live id)
  | upsertUser user id level =>
      obtain ⟨now, read⟩ := reading rfl
      exact of_tracks (holds.upsertUser intact live read user id level)
  | updateGuest guest level =>
      obtain ⟨now, read⟩ := reading rfl
      exact of_tracks (holds.updateGuest live read guest level)
  | getPermission id principal => exact of_tracks (holds.getPermission whole live id principal)
  | deletePermission principal id => exact of_tracks (holds.deletePermission live principal id)
  | listPermissions id listing =>
      obtain ⟨after, agrees⟩ := represents.step_scope (.document id) listing
      exact ⟨after, fun _ => agrees, represents.heeds_scope (.document id) listing⟩
  | listDocuments principal listing =>
      obtain ⟨after, agrees⟩ := represents.step_scope (.principal principal) listing
      exact ⟨after, fun _ => agrees, represents.heeds_scope (.principal principal) listing⟩
  | createGuest creator id level =>
      obtain ⟨now, read⟩ := reading rfl
      by_cases clashes : memory.guests.contains (⟨moment.drawn⟩ : GuestId) = true ∧
          memory.documents.contains id = false
      · obtain ⟨taken, missing⟩ := clashes
        obtain ⟨asked, written⟩ :=
          holds.createGuest_clash live read taken missing creator level
        rw [asked, written]
        refine ⟨represents, fun none => ?_, if_pos (Bool.or_eq_true_iff.2 (.inl taken))⟩
        rw [isClash_createGuest intact, taken, missing] at none
        cases none
      · refine of_tracks (holds.createGuest intact live read fun taken => ?_)
        cases present : memory.documents.contains id with
        | true => rfl
        | false => exact absurd ⟨taken, present⟩ clashes
  | getGuest guest => exact of_tracks (holds.getGuest whole live guest)

theorem step (represents : store.Represents memory) (operation : Operation α)
    (timely : operation.isClocked = true → moment.isReadable = true) :
    (store.step moment operation).2.Represents (memory.step moment operation).2 ∧
      (operation.isClash moment memory.contents = false → operation.hasWholeCursor = true →
        (memory.step moment operation).1.Agrees (store.step moment operation).1) := by
  obtain ⟨represents', agrees, -⟩ := represents.track operation timely
  exact ⟨represents', agrees⟩

/-- An operation fails if and only if there is a reason to refuse it, and then for this reason. -/
theorem heeds (represents : store.Represents memory) (operation : Operation α)
    (timely : operation.isClocked = true → moment.isReadable = true) :
    (store.step moment operation).1.Heeds (refusal? memory moment.drawn operation) :=
  (represents.track operation timely).2.2

theorem clash (represents : store.Represents memory) (timely : moment.isReadable = true)
    (clashes : operation.isClash moment memory.contents = true) :
    (memory.step moment operation).1.errorKind? = some .notFound ∧
      (store.step moment operation).1.errorKind? = some .uniqueConflict := by
  obtain ⟨tables, holds, rfl⟩ := represents.held
  obtain ⟨now, read⟩ := Option.isSome_iff_exists.1 timely
  cases operation with
  | createGuest creator id level =>
      rw [isClash_createGuest represents.intact, Bool.and_eq_true, Bool.not_eq_true'] at clashes
      obtain ⟨taken, missing⟩ := clashes
      obtain ⟨asked, written⟩ :=
        holds.createGuest_clash represents.live read taken missing creator level
      rw [asked, written]
      exact ⟨rfl, rfl⟩
  | _ => cases clashes

/-! ## Runs -/

/-- While the clock can be read the tables go on representing. -/
theorem after (represents : store.Represents memory) {history : List Asked}
    (readable : ∀ asked ∈ history, asked.moment.isReadable = true) :
    (Store.after store history).Represents (Store.after memory history) := by
  induction history generalizing store memory with
  | nil => exact represents
  | cons asked history ih =>
      have timely := readable asked List.mem_cons_self
      refine ih (represents.step asked.operation fun _ => timely).1 ?_
      exact fun later member => readable later (List.mem_cons_of_mem asked member)

/-- Whatever the clock shows, the tables represent a store in memory that has been asked some
of the same, in the same order. -/
theorem exists_after (represents : store.Represents memory) (history : List Asked) :
    ∃ part : List Asked, part.Sublist history ∧
      (Store.after store history).Represents (Store.after memory part) := by
  induction history generalizing store memory with
  | nil => exact ⟨[], List.Sublist.refl [], represents⟩
  | cons asked history ih =>
      by_cases timely : asked.operation.isClocked = true → asked.moment.isReadable = true
      · obtain ⟨part, within, represented⟩ := ih (represents.step asked.operation timely).1
        exact ⟨asked :: part, within.cons_cons asked, represented⟩
      · obtain ⟨failure, fails⟩ := step_untimely timely
        have same : (Store.step store asked.moment asked.operation).2 = store :=
          congrArg Prod.snd (fails store)
        obtain ⟨part, within, represented⟩ := ih represents
        refine ⟨part, within.cons asked, ?_⟩
        rw [Store.after_cons, same]
        exact represented

end Represents
end TableStore
end DocAccess
