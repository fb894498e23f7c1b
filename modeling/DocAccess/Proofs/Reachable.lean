import DocAccess.Proofs.Consistency
import DocAccess.Proofs.Memory.Listing
import DocAccess.Proofs.Tables.Simulation

/-!
# States that stores come to

Whatever a new store of either kind is asked, its rows agree with one another. What
follows for both kinds rests on a few facts about a store that works: which rows it
holds, what it lists and how one operation changes its rows.
-/

set_option autoImplicit false

namespace DocAccess

variable {α : Type}

/-- The two kinds of stores. -/
inductive StoreKind where
  | memory
  | tables

namespace StoreKind

/-- The stores of a kind. -/
def State : StoreKind → Type
  | .memory => MemoryStore
  | .tables => TableStore

instance inspected : (kind : StoreKind) → InspectedStore kind.State
  | .memory => inferInstanceAs (InspectedStore MemoryStore)
  | .tables => inferInstanceAs (InspectedStore TableStore)

/-- The cursor that a listing of a given one starts from: tables see its time rounded
down. -/
def seen : StoreKind → Cursor → Cursor
  | .memory, cursor => cursor
  | .tables, cursor => cursor.truncate

/-- A store that works and has the given rows. -/
def Holds : (kind : StoreKind) → kind.State → Contents → Prop
  | .memory, (store : MemoryStore), contents =>
      store.Integrity ∧ store.contents.Whole ∧ store.poisoned = false ∧ store.contents = contents
  | .tables, (store : TableStore), contents =>
      ∃ memory : MemoryStore, store.Represents memory ∧ memory.contents = contents

/-- A store whose lock is poisoned. -/
def Broken : (kind : StoreKind) → kind.State → Prop
  | .memory, (store : MemoryStore) => store.poisoned = true
  | .tables, _ => False

variable {kind : StoreKind} {store : kind.State} {contents : Contents}

@[simp]
theorem sortField_seen (kind : StoreKind) (cursor : Cursor) :
    (kind.seen cursor).sortField = cursor.sortField := by
  cases kind <;> rfl

theorem seen_of_whole {cursor : Cursor} (whole : cursor.lastSeenTime.isWhole = true) :
    kind.seen cursor = cursor := by
  cases kind with
  | memory => rfl
  | tables => rw [seen, Cursor.truncate, (Timestamp.truncate_eq_self_iff _).2 whole]

/-! ## Rows of a store that works -/

theorem Holds.contents_eq (holds : kind.Holds store contents) :
    InspectedStore.contents store = .ok contents := by
  cases kind with
  | memory =>
      obtain ⟨-, -, -, rfl⟩ := holds
      rfl
  | tables =>
      obtain ⟨memory, represents, rfl⟩ := holds
      exact represents.contents_eq

theorem Holds.consistent (holds : kind.Holds store contents) : contents.Consistent := by
  cases kind with
  | memory =>
      obtain ⟨intact, -, -, rfl⟩ := holds
      exact MemoryStore.Integrity.consistent intact
  | tables =>
      obtain ⟨memory, represents, rfl⟩ := holds
      exact represents.intact.consistent

theorem Holds.whole (holds : kind.Holds store contents) : contents.Whole := by
  cases kind with
  | memory =>
      obtain ⟨-, whole, -, rfl⟩ := holds
      exact whole
  | tables =>
      obtain ⟨memory, represents, rfl⟩ := holds
      exact represents.whole

theorem Holds.step_list (holds : kind.Holds store contents) (scope : Scope α) (listing : Listing)
    (moment : Moment) : Store.step store moment (scope.list listing) =
      (scope.answer contents listing (kind.seen listing.cursor), store) := by
  cases kind with
  | memory =>
      obtain ⟨intact, -, live, rfl⟩ := holds
      exact MemoryStore.step_list intact live scope listing moment
  | tables =>
      obtain ⟨memory, represents, rfl⟩ := holds
      exact represents.step_list scope listing moment

theorem holds_new (new : InspectedStore.isNew store) :
    kind.Holds store MemoryStore.empty.contents := by
  cases kind with
  | memory =>
      have empty : store = MemoryStore.empty := new
      subst empty
      refine ⟨MemoryStore.integrity_empty, ?_, rfl, rfl⟩
      exact fun time stored => absurd stored (MemoryStore.not_hasTime_empty time)
  | tables =>
      obtain ⟨clock, opened⟩ := new
      exact ⟨.empty, TableStore.represents_open opened, rfl⟩

/-! ## Operations -/

/-- After an operation a store works with rows that have changed as rows can, or it has
broken off and is broken. -/
theorem Holds.step (holds : kind.Holds store contents) (moment : Moment)
    (operation : Operation α) :
    (∃ after, kind.Holds (Store.step store moment operation).2 after ∧
        contents.Successor moment after) ∨
      (Store.step store moment operation).1 = .aborted ∧
        kind.Broken (Store.step store moment operation).2 := by
  cases kind with
  | memory =>
      obtain ⟨intact, whole, live, rfl⟩ := holds
      have changes := MemoryStore.change_step store moment operation
      have successor := changes.successor
      by_cases aborts : (MemoryStore.step store moment operation).1 = .aborted
      · exact .inr ⟨aborts, changes.poisons aborts⟩
      · exact .inl ⟨_, ⟨intact.change changes, successor.whole whole,
          (changes.poisoned aborts).trans live, rfl⟩, successor⟩
  | tables =>
      obtain ⟨memory, represents, rfl⟩ := holds
      by_cases timely : operation.isClocked = true → moment.isReadable = true
      · exact .inl ⟨_, ⟨_, (represents.step operation timely).1, rfl⟩,
          MemoryStore.successor_step memory moment operation⟩
      · obtain ⟨failure, fails⟩ := TableStore.step_untimely timely
        have same := congrArg Prod.snd (fails store)
        exact .inl ⟨memory.contents, ⟨memory, same.symm ▸ represents, rfl⟩, .refl moment _⟩

theorem Broken.step (broken : kind.Broken store) (moment : Moment) (operation : Operation α) :
    kind.Broken (Store.step store moment operation).2 := by
  cases kind with
  | memory => exact (MemoryStore.change_step store moment operation).stays_poisoned broken
  | tables => exact broken

/-- Whatever reaches the store finds the lock poisoned. -/
theorem Broken.refused (broken : kind.Broken store) {operation : Operation α}
    (reaches : operation.reachesStore = true) (moment : Moment) :
    Store.step store moment operation =
      (.error (.repository operation.name .poisoned), store) := by
  cases kind with
  | memory => exact MemoryStore.step_locked_out broken reaches
  | tables => exact broken.elim

theorem Broken.ne_ok (broken : kind.Broken store) {operation : Operation α}
    (reaches : operation.reachesStore = true) (moment : Moment) (value : α) :
    (Store.step store moment operation).1 ≠ .ok value := by
  rw [broken.refused reaches]
  nofun

theorem Broken.list_ne_ok (broken : kind.Broken store) (scope : Scope α) (listing : Listing)
    (moment : Moment) (page : Page α) :
    (Store.step store moment (scope.list listing)).1 ≠ .ok page := by
  cases kind with
  | memory => exact MemoryStore.list_ne_ok broken scope listing moment page
  | tables => exact broken.elim

/-! ## Runs -/

theorem Broken.after (broken : kind.Broken store) (history : List Asked) :
    kind.Broken (Store.after store history) := by
  induction history generalizing store with
  | nil => exact broken
  | cons asked history ih => exact ih (broken.step asked.moment asked.operation)

theorem Holds.after (holds : kind.Holds store contents) (history : List Asked) :
    (∃ after, kind.Holds (Store.after store history) after ∧
        contents.Evolves (history.map Asked.moment) after) ∨
      kind.Broken (Store.after store history) := by
  induction history generalizing store contents with
  | nil => exact .inl ⟨contents, holds, .refl contents⟩
  | cons asked history ih =>
      rcases holds.step asked.moment asked.operation with ⟨middle, holds', successor⟩ | ⟨-, broken⟩
      · rcases ih holds' with ⟨after, holds'', evolves⟩ | broken
        · exact .inl ⟨after, holds'', .step successor evolves⟩
        · exact .inr broken
      · exact .inr (broken.after history)

theorem Holds.after_of_works (holds : kind.Holds store contents) {history : List Asked}
    (works : ¬ kind.Broken (Store.after store history)) {after : Contents}
    (held : InspectedStore.contents (Store.after store history) = .ok after) :
    kind.Holds (Store.after store history) after ∧
      contents.Evolves (history.map Asked.moment) after := by
  obtain ⟨found, holds', evolves⟩ := (holds.after history).resolve_right works
  cases holds'.contents_eq.symm.trans held
  exact ⟨holds', evolves⟩

end StoreKind

/-! ## All states -/

/-- Whatever is asked of a new store of either kind, and whatever the clock shows, its rows
agree with one another. -/
theorem consistent_after (history : List Asked) :
    (Store.after MemoryStore.empty history).contents.Consistent ∧
      (Store.after MemoryStore.empty history).contents.GuestsSingle ∧
      (Store.after MemoryStore.empty history).KeysAgree ∧
      ∀ (clock : Clock) (tables : TableStore),
        TableStore.open clock .empty = (.ok (), tables) →
          ∃ contents, (Store.after tables history).contents = .ok contents ∧
            contents.Consistent ∧ contents.GuestsSingle := by
  have intact : (Store.after MemoryStore.empty history).Integrity :=
    MemoryStore.integrity_empty.after history
  refine ⟨intact.consistent, intact.consistent.guestsSingle, intact.keysAgree, ?_⟩
  intro clock tables opened
  obtain ⟨part, -, represents⟩ := (TableStore.represents_open opened).exists_after history
  exact ⟨_, represents.contents_eq, represents.intact.consistent,
    represents.intact.consistent.guestsSingle⟩

/-- After a short history, in which two permissions and a guest name one document. -/
theorem consistent_after_short :
    TableStore.open ⟨0, 0⟩ .empty =
        (.ok (), ⟨(TableStore.newTables default).database, false⟩) ∧
      ∃ contents, (Store.after (⟨(TableStore.newTables default).database, false⟩ : TableStore)
          shortHistory).contents = .ok contents ∧ contents.Consistent ∧ contents.GuestsSingle := by
  have opened : TableStore.open ⟨0, 0⟩ .empty =
      (.ok (), ⟨(TableStore.newTables default).database, false⟩) :=
    TableStore.open_empty rfl
  obtain ⟨-, -, -, tables⟩ := consistent_after shortHistory
  exact ⟨opened, tables _ _ opened⟩

/-- The permissions that the short history leaves on its document, newest first. -/
def shortRows : List Permission :=
  [8, 2, 7].filterMap fun number =>
    (Store.after MemoryStore.empty shortHistory).permissions[PermissionKey.mk ⟨.ofNat number⟩
      ⟨.ofNat 1⟩]?

end DocAccess
