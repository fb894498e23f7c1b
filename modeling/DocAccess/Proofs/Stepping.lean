import DocAccess.Proofs.Reachable
import DocAccess.Proofs.Tables.GivingUp

/-!
# One account of steps for both kinds

A store of either kind has the rows of a sound store in memory, and each operation on it
ends as that of such a store can end, with the answer that the kind gives. What is shown of
the ways to end holds of both kinds.
-/

set_option autoImplicit false

namespace DocAccess

variable {α : Type}

namespace TableStore

variable {store : TableStore} {memory : MemoryStore} {moment : Moment} {operation : Operation α}

private theorem step_reads (store : TableStore) (moment : Moment)
    (reads : operation.isWrite = false) : (store.step moment operation).2 = store := by
  cases operation with
  | updateDocument id fields =>
      have unset : fields.isEmpty = true := by simpa [Action.isWrite] using reads
      simp only [step, stepUnder, unset, if_true]
  | getDocument id => rfl
  | getPermission document principal => rfl
  | listPermissions document listing =>
      simp only [step, stepUnder]
      cases listing.validate <;> rfl
  | listDocuments principal listing =>
      simp only [step, stepUnder]
      cases listing.validate <;> rfl
  | getGuest guest => rfl
  | _ => cases reads

private theorem hasWholeCursor_of_isWrite (writes : operation.isWrite = true) :
    operation.hasWholeCursor = true := by
  cases operation with
  | listPermissions document listing => cases writes
  | listDocuments principal listing => cases writes
  | _ => rfl

theorem Represents.memory_ok (represents : store.Represents memory)
    (timely : operation.isClocked = true → moment.isReadable = true)
    (whole : operation.hasWholeCursor = true) {value : α}
    (done : (store.step moment operation).1 = .ok value) :
    (memory.step moment operation).1 = .ok value := by
  have unclash : operation.isClash moment memory.contents = false := by
    cases clashes : operation.isClash moment memory.contents with
    | false => rfl
    | true =>
        have clocked : operation.isClocked = true := by
          cases operation with
          | createGuest creator document level => rfl
          | _ => cases clashes
        have failed := (represents.clash (timely clocked) clashes).2
        rw [done] at failed
        cases failed
  have same := (represents.step operation timely).2 unclash whole
  rw [done] at same
  cases ends : (memory.step moment operation).1 with
  | ok other =>
      rw [ends] at same
      exact congrArg Outcome.ok same
  | error failure => rw [ends] at same; exact same.elim
  | aborted => rw [ends] at same; exact same.elim

/-- A write that succeeds on the tables succeeds in the same way on the maps. -/
private theorem Represents.memory_step_ok (represents : store.Represents memory) {value : α}
    (writes : operation.isWrite = true) (done : (store.step moment operation).1 = .ok value) :
    (memory.step moment operation).1 = .ok value ∧
      (store.step moment operation).2.Represents (memory.step moment operation).2 := by
  have timely : operation.isClocked = true → moment.isReadable = true := by
    intro clocked
    cases readable : moment.isReadable with
    | true => rfl
    | false =>
        rw [store.step_unread clocked readable] at done
        cases done
  exact ⟨represents.memory_ok timely (hasWholeCursor_of_isWrite writes) done,
    (represents.step operation timely).1⟩

theorem Represents.change (represents : store.Represents memory) (moment : Moment)
    (operation : Operation α) :
    ∃ after, MemoryStore.Change memory moment operation (store.step moment operation).1 after ∧
      (store.step moment operation).2.Represents after := by
  rcases store.step_ok_or_untouched moment operation with ⟨value, done⟩ | ⟨failure, untouched⟩
  · cases writes : operation.isWrite with
    | true =>
        obtain ⟨same, represents'⟩ := represents.memory_step_ok writes done
        have changes := MemoryStore.change_step memory moment operation
        rw [same, ← done] at changes
        exact ⟨_, changes, represents'⟩
    | false =>
        refine ⟨memory, ?_, ?_⟩
        · rw [done]
          exact .answered writes
        · rw [store.step_reads moment writes]
          exact represents
  · rw [untouched]
    exact ⟨memory, .refused, represents⟩

end TableStore

namespace StoreKind

/-- A store with the rows of a sound store in memory. -/
def Models : (kind : StoreKind) → kind.State → MemoryStore → Prop
  | .memory, (store : MemoryStore), maps => store = maps ∧ maps.Integrity
  | .tables, (store : TableStore), maps => store.Represents maps

variable {kind : StoreKind} {store : kind.State} {maps : MemoryStore}

theorem Models.intact (models : kind.Models store maps) : maps.Integrity := by
  cases kind with
  | memory => exact models.2
  | tables => exact TableStore.Represents.intact models

theorem Models.contents_eq (models : kind.Models store maps) :
    InspectedStore.contents store = .ok maps.contents := by
  cases kind with
  | memory =>
      obtain ⟨rfl, -⟩ := models
      rfl
  | tables => exact TableStore.Represents.contents_eq models

theorem models_new (new : InspectedStore.isNew store) : kind.Models store .empty := by
  cases kind with
  | memory => exact ⟨new, MemoryStore.integrity_empty⟩
  | tables =>
      obtain ⟨clock, opened⟩ := new
      exact TableStore.represents_open opened

/-- Every operation on a store of either kind ends in one of the ways. -/
theorem Models.step (models : kind.Models store maps) (moment : Moment)
    (operation : Operation α) :
    ∃ after, maps.Change moment operation (Store.step store moment operation).1 after ∧
      kind.Models (Store.step store moment operation).2 after := by
  cases kind with
  | memory =>
      obtain ⟨rfl, intact⟩ := models
      exact ⟨_, MemoryStore.change_step _ moment operation, rfl, intact.step moment operation⟩
  | tables => exact TableStore.Represents.change models moment operation

theorem Models.after (models : kind.Models store maps) (history : List Asked) :
    ∃ after, kind.Models (Store.after store history) after := by
  induction history generalizing store maps with
  | nil => exact ⟨maps, models⟩
  | cons asked history ih =>
      obtain ⟨middle, -, models'⟩ := models.step asked.moment asked.operation
      exact ih models'

end StoreKind

/-! ## Answers -/

namespace Outcome.Agrees

variable {outcome other : Outcome α}

theorem eq_ok {value : α} (agrees : (Outcome.ok value).Agrees other) : other = .ok value := by
  cases other with
  | ok found => exact congrArg Outcome.ok agrees.symm
  | error failure => exact agrees.elim
  | aborted => exact agrees.elim

theorem errorKind?_eq (agrees : outcome.Agrees other) : other.errorKind? = outcome.errorKind? := by
  cases outcome with
  | ok value => rw [eq_ok agrees]
  | error failure =>
      cases other with
      | ok found => exact agrees.elim
      | error reason => exact congrArg some agrees.symm
      | aborted => exact agrees.elim
  | aborted => exact agrees.elim

/-- What a look-up gives is what has been found. -/
theorem eq_ok_iff {missing : StoreError} {looked : Option α} {value : α}
    (agrees : (MemoryStore.found missing looked).Agrees other) :
    other = .ok value ↔ looked = some value := by
  cases looked with
  | none =>
      have failed := agrees.errorKind?_eq
      constructor
      · rintro rfl
        cases failed
      · intro found
        cases found
  | some found => rw [eq_ok agrees, Outcome.ok.injEq, Option.some.injEq]

end Outcome.Agrees

namespace StoreKind.Models

variable {kind : StoreKind} {store : kind.State} {maps : MemoryStore} {moment : Moment}
  {operation : Operation α}

theorem works_iff (models : kind.Models store maps) :
    ¬ kind.Broken store ↔ maps.poisoned = false := by
  cases kind with
  | memory =>
      obtain ⟨rfl, -⟩ := models
      exact Bool.eq_false_iff.symm
  | tables => exact ⟨fun _ => TableStore.Represents.live models, fun _ broken => broken⟩

theorem agrees (models : kind.Models store maps)
    (timely : operation.isClocked = true → moment.isReadable = true)
    (unclash : operation.isClash moment maps.contents = false)
    (whole : operation.hasWholeCursor = true) (ends : (maps.step moment operation).1 ≠ .aborted) :
    (maps.step moment operation).1.Agrees (Store.step store moment operation).1 := by
  cases kind with
  | memory =>
      obtain ⟨rfl, -⟩ := models
      exact Outcome.Agrees.refl ends
  | tables => exact (TableStore.Represents.step models operation timely).2 unclash whole

theorem step_list (models : kind.Models store maps) (live : maps.poisoned = false)
    (scope : Scope α) (listing : Listing) (moment : Moment) :
    Store.step store moment (scope.list listing) =
      (scope.answer maps.contents listing (kind.seen listing.cursor), store) := by
  cases kind with
  | memory =>
      obtain ⟨rfl, intact⟩ := models
      exact MemoryStore.step_list intact live scope listing moment
  | tables => exact TableStore.Represents.step_list models scope listing moment

/-! ### Look-ups -/

theorem agrees_found (models : kind.Models store maps) {missing : StoreError} {looked : Option α}
    (asked : (maps.step moment operation).1 = MemoryStore.found missing looked)
    (unclocked : operation.isClocked = false)
    (unclash : operation.isClash moment maps.contents = false)
    (whole : operation.hasWholeCursor = true) :
    (MemoryStore.found missing looked).Agrees (Store.step store moment operation).1 := by
  rw [← asked]
  refine models.agrees (fun clocked => ?_) unclash whole ?_
  · rw [unclocked] at clocked
    cases clocked
  · rw [asked]
    exact MemoryStore.found_ne_aborted _ _

theorem getPermission (models : kind.Models store maps) (live : maps.poisoned = false)
    (moment : Moment) (key : PermissionKey) :
    (MemoryStore.found (.permissionNotFound key.recipient key.document)
        maps.permissions[key]?).Agrees
      (Store.step store moment (.getPermission key.document key.recipient)).1 := by
  refine models.agrees_found ?_ rfl rfl rfl
  simp [MemoryStore.step, MemoryStore.locked, live, MemoryStore.answer, MemoryStore.getPermission]

theorem getGuest (models : kind.Models store maps) (live : maps.poisoned = false)
    (moment : Moment) (guest : GuestId) :
    (MemoryStore.found (.guestNotFound guest) maps.guests[guest]?).Agrees
      (Store.step store moment (.getGuest guest)).1 := by
  refine models.agrees_found ?_ rfl rfl rfl
  simp [MemoryStore.step, MemoryStore.locked, live, MemoryStore.answer]

end StoreKind.Models
end DocAccess
