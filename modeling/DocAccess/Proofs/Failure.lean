import DocAccess.Proofs.Memory.Change
import DocAccess.Proofs.Tables.GivingUp

/-!
# Failures leave nothing to see

An operation that fails changes neither kind of store. In tables one that breaks off fails
like any other. In memory it may leave a row half changed, but then the lock is poisoned, and
no later answer depends on what is behind the lock.

Only a deadline that passes tells less than it seems to: the worker of a single statement that
waits for its turn does not look at the flag again, and makes the statement after all.
-/

set_option autoImplicit false

namespace DocAccess

variable {α : Type}

/-! ## Answers -/

/-- An answer, whatever has been asked. -/
structure Answered where
  Answer : Type
  outcome : Outcome Answer

/-- What a store answers, operation by operation. -/
def Store.answers {σ : Type} [Store σ] : σ → List Asked → List Answered
  | _, [] => []
  | store, asked :: later =>
      ⟨asked.Answer, (Store.step store asked.moment asked.operation).1⟩ ::
        answers (Store.step store asked.moment asked.operation).2 later

/-! ## Behind a poisoned lock -/

namespace MemoryStore

variable {store other : MemoryStore} {moment : Moment} {operation : Operation α}

private theorem step_unlocked (free : operation.reachesStore = false) :
    store.step moment operation = ((other.step moment operation).1, store) := by
  cases operation with
  | updateDocument id fields =>
      have unset : fields.isEmpty = true := by simpa [Action.reachesStore] using free
      simp only [step, unset, if_true]
  | listPermissions document listing =>
      cases valid : listing.validate with
      | error failure => simp only [step, valid]
      | ok checked => simp [Action.reachesStore, valid, Except.toBool] at free
  | listDocuments principal listing =>
      cases valid : listing.validate with
      | error failure => simp only [step, valid]
      | ok checked => simp [Action.reachesStore, valid, Except.toBool] at free
  | _ => cases free

theorem step_poisoned (poisoned : store.poisoned = true) (same : other.poisoned = true) :
    store.step moment operation = ((other.step moment operation).1, store) := by
  cases reaches : operation.reachesStore with
  | true => rw [step_locked_out poisoned reaches, step_locked_out same reaches]
  | false => exact step_unlocked reaches

private theorem after_poisoned (poisoned : store.poisoned = true) (later : List Asked) :
    Store.after store later = store := by
  induction later with
  | nil => rfl
  | cons asked later ih =>
      have still : (Store.step store asked.moment asked.operation).2 = store :=
        congrArg Prod.snd (step_poisoned poisoned poisoned)
      rw [Store.after_cons, still, ih]

private theorem answers_poisoned (poisoned : store.poisoned = true) (same : other.poisoned = true)
    (later : List Asked) : Store.answers store later = Store.answers other later := by
  induction later with
  | nil => rfl
  | cons asked later ih =>
      have still : Store.step store asked.moment asked.operation =
          ((Store.step other asked.moment asked.operation).1, store) := step_poisoned poisoned same
      have still' : (Store.step other asked.moment asked.operation).2 = other :=
        congrArg Prod.snd (step_poisoned same same)
      rw [Store.answers, Store.answers, still, still', ih]

/-- What has broken off is out of reach: the lock stays poisoned and refuses everyone, and
the answers are those of a store with the maps as they were before. -/
structure Sealed (before after : MemoryStore) : Prop where
  poisoned (later : List Asked) : (Store.after after later).poisoned = true
  refused (later : List Asked) {β : Type} (moment : Moment) (operation : Operation β) :
    operation.reachesStore = true →
      ((Store.after after later).step moment operation).1 =
        .error (.repository operation.name .poisoned)
  unseen (later : List Asked) : Store.answers after later = Store.answers before.poison later

private theorem sealed_of_poisoned (before : MemoryStore) {after : MemoryStore}
    (poisoned : after.poisoned = true) : before.Sealed after where
  poisoned later := by rw [after_poisoned poisoned, poisoned]
  refused later {_} moment operation reaches := by
    rw [after_poisoned poisoned, step_locked_out poisoned reaches]
  unseen later := answers_poisoned poisoned rfl later

theorem Change.unchanged {after : MemoryStore} {outcome : Outcome α}
    (changes : Change store moment operation outcome after) {failure : StoreError}
    (fails : outcome = .error failure) : after = store := by
  cases changes with
  | refused => rfl
  | _ => cases fails

end MemoryStore

/-! ## Behind a deadline -/

namespace TableStore

variable {operation : Operation α}

theorem stepWithin_snd (store : TableStore) (cancellation : Cancellation) (moment : Moment)
    (operation : Operation α) :
    (store.stepWithin (some cancellation) moment operation).2 =
      if cancellation.isRaised operation.lastLook then store
      else (store.step moment operation).2 := by
  rw [← stepUnder_snd, stepWithin]
  split <;> rfl

private theorem stepUnder_of_unreached (free : operation.reachesStore = false) (store : TableStore)
    (cancellation : Cancellation) (moment : Moment) :
    store.stepUnder cancellation moment operation =
      ((store.step moment operation).1, store) := by
  cases operation with
  | updateDocument id fields =>
      have unset : fields.isEmpty = true := by simpa [Action.reachesStore] using free
      simp only [step, stepUnder, unset, if_true]
  | listPermissions document listing =>
      cases valid : listing.validate with
      | error failure => simp only [step, stepUnder, valid]
      | ok checked => simp [Action.reachesStore, valid, Except.toBool] at free
  | listDocuments principal listing =>
      cases valid : listing.validate with
      | error failure => simp only [step, stepUnder, valid]
      | ok checked => simp [Action.reachesStore, valid, Except.toBool] at free
  | _ => cases free

end TableStore

/-- An operation that does not succeed is as if it had not been asked: in tables, whatever
went wrong; in memory, if it fails. If it breaks off there, nothing of it is ever seen. Only if
a deadline has passed may the operation have been done all the same: if the flag goes up after
the last look of the worker. -/
theorem failure_invisible (moment : Moment) (operation : Operation α) :
    (∀ store : TableStore,
      (∀ value, (store.step moment operation).1 ≠ .ok value) →
        (store.step moment operation).2 = store ∧
          ∀ later, Store.answers (store.step moment operation).2 later =
            Store.answers store later) ∧
      (∀ (store : TableStore) (cancellation : Cancellation),
        let ends := store.stepWithin (some cancellation) moment operation
        (operation.reachesStore = true →
            ends.1 = .error (.repository operation.name .deadlineExceeded)) ∧
          (operation.reachesStore = false →
            ends = ((store.step moment operation).1, store)) ∧
          (cancellation.isRaised operation.lastLook = true →
            ends.2 = store ∧
              ∀ later, Store.answers ends.2 later = Store.answers store later) ∧
          (cancellation.isRaised operation.lastLook = false →
            ends.2 = (store.step moment operation).2)) ∧
      (∀ (store : MemoryStore) (failure : StoreError),
        (store.step moment operation).1 = .error failure →
          (store.step moment operation).2 = store) ∧
      ∀ store : MemoryStore,
        (store.step moment operation).1 = .aborted →
          store.Sealed (store.step moment operation).2 := by
  refine ⟨?_, ?_, ?_, ?_⟩
  · intro store fails
    have same : (store.step moment operation).2 = store := by
      rcases store.step_ok_or_untouched moment operation with ⟨value, done⟩ | ⟨failure, untouched⟩
      · exact absurd done (fails value)
      · rw [untouched]
    exact ⟨same, fun later => by rw [same]⟩
  · intro store cancellation ends
    have left : ends.2 = _ := store.stepWithin_snd cancellation moment operation
    refine ⟨?_, ?_, ?_, ?_⟩
    · intro reaches
      exact congrArg Prod.fst (if_pos reaches)
    · intro free
      have same : ends = store.stepUnder cancellation moment operation :=
        if_neg (Bool.eq_false_iff.1 free)
      rw [same, TableStore.stepUnder_of_unreached free]
    · intro up
      have same : ends.2 = store := by rw [left, if_pos up]
      exact ⟨same, fun later => by rw [same]⟩
    · intro live
      rw [left, if_neg (Bool.eq_false_iff.1 live)]
  · intro store failure fails
    exact (MemoryStore.change_step store moment operation).unchanged fails
  · intro store aborts
    have poisoned := (MemoryStore.change_step store moment operation).poisons aborts
    exact MemoryStore.sealed_of_poisoned store poisoned

/-- A user is given a level by a worker that waits for its statement until the deadline has
passed. Who has asked is told of a failure, and then the user has the level. -/
theorem timed_out_sharing_shown :
    let store := Store.after (⟨(TableStore.newTables default).database, false⟩ : TableStore)
      shortHistory
    let operation : Operation Unit := .upsertUser ⟨.ofNat 9⟩ ⟨.ofNat 1⟩ .viewer
    let ends := store.stepWithin (some ⟨some 2⟩) (.ofNumbers 4 4) operation
    let looking : Operation Permission := .getPermission ⟨.ofNat 1⟩ ⟨.ofNat 9⟩
    ends.1 = .error (.repository "upsert user permission" .deadlineExceeded) ∧
      (store.step (.ofNumbers 5 5) looking).1.errorKind? = some .notFound ∧
      (ends.2.step (.ofNumbers 5 5) looking).1 =
        .ok ⟨⟨.ofNat 1⟩, ⟨.ofNat 9⟩, .user, .viewer, ⟨.ofNat 9⟩,
          ⟨4, 0, by decide, by decide⟩, ⟨4, 0, by decide, by decide⟩⟩ := by
  decide +kernel

/-- A document is renamed while the clock cannot be read. The maps show the new name and the
store does not. -/
theorem half_renamed_document_sealed :
    let store := Store.after MemoryStore.empty shortHistory
    let operation : Operation Unit := .updateDocument ⟨.ofNat 1⟩ (.named "draft")
    let after := (store.step (.ofNumbers (-1) 4) operation).2
    (store.documents[(⟨.ofNat 1⟩ : DocumentId)]?.map Document.name = some none ∧
        after.documents[(⟨.ofNat 1⟩ : DocumentId)]?.map Document.name = some (some "draft")) ∧
      (after.step (.ofNumbers 5 5) (.getDocument ⟨.ofNat 1⟩)).1 =
        .error (.repository "get document" .poisoned) := by
  intro store operation after
  obtain ⟨-, -, -, breaks⟩ := failure_invisible (.ofNumbers (-1) 4) operation
  have kept : store.Sealed after := breaks store (by decide +kernel)
  exact ⟨by decide +kernel, kept.refused [] _ (.getDocument ⟨.ofNat 1⟩) rfl⟩

end DocAccess
