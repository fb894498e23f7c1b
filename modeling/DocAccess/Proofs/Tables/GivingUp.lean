import DocAccess.Proofs.History
import DocAccess.Proofs.Tables.Simulation
import DocAccess.Proofs.Transaction

/-!
# Giving up an operation

An operation on tables that is given up has either been done to its end or not at all, and
its worker knows which. The same holds of one that fails for other reasons. A caller whose
deadline has passed is told no more than that: which of the two it is depends on whether the
flag is up at the last look of the worker.
-/

set_option autoImplicit false

namespace DocAccess

open Relational (Cell Database DatabaseError Row)

variable {α : Type}

namespace TableStore

/-- The operation has ended as it does when it is left to run, or it has failed and the store
is as it was. -/
def DoneOrUntouched (store : TableStore) (whole ends : Outcome α × TableStore) : Prop :=
  (∃ value, ends.1 = .ok value ∧ ends = whole) ∨ ∃ failure, ends = (.error failure, store)

variable {store : TableStore} {cancellation : Cancellation} {name : String} {moment : Moment}

/-! ## Parts of an operation -/

private theorem doneOrUntouched_worker {whole work : Outcome α × TableStore}
    (does : store.DoneOrUntouched whole work) :
    store.DoneOrUntouched (store.worker .never name whole)
      (store.worker cancellation name work) := by
  unfold worker
  cases cancellation.isRaised 0 || cancellation.isRaised 1 with
  | true => exact .inr ⟨_, rfl⟩
  | false => exact does

private theorem doneOrUntouched_clocked {whole work : Timestamp → Outcome α × TableStore}
    (does : ∀ now, store.DoneOrUntouched (whole now) (work now)) :
    store.DoneOrUntouched (store.clocked name moment whole) (store.clocked name moment work) := by
  unfold clocked
  cases moment.clock.now? with
  | none => exact .inr ⟨_, rfl⟩
  | some now => exact does now

private theorem doneOrUntouched_transaction (body : Body α) :
    store.DoneOrUntouched (store.transaction .never name body)
      (store.transaction cancellation name body) := by
  simp only [transaction]
  generalize (⟨if store.writeLocked then some .locked else none, none⟩ : TransactionFaults) =
    faults
  rcases inTransaction_cases cancellation faults name 2 store.database body with
    ⟨value, sound, -, gives, commits⟩ | ⟨failure, undone⟩
  · rw [commits, inTransaction_ok sound rfl gives]
    exact .inl ⟨value, rfl, rfl⟩
  · rw [undone]
    exact .inr ⟨failure, rfl⟩

private theorem doneOrUntouched_snapshot (body : Body α) :
    store.DoneOrUntouched (store.snapshot .never name body, store)
      (store.snapshot cancellation name body, store) := by
  unfold snapshot
  rcases inTransaction_cases cancellation {} name 2 store.database body with
    ⟨value, sound, -, gives, commits⟩ | ⟨failure, undone⟩
  · rw [commits, inTransaction_ok sound rfl gives]
    exact .inl ⟨value, rfl, rfl⟩
  · rw [undone]
    exact .inr ⟨failure, rfl⟩

private theorem doneOrUntouched_execute (report : DatabaseError → StoreError)
    (unchanged : StoreError) (statement : Database → Except DatabaseError (Nat × Database)) :
    store.DoneOrUntouched (store.execute report unchanged statement)
      (store.execute report unchanged statement) := by
  unfold execute
  cases store.writeLocked with
  | true => exact .inr ⟨_, rfl⟩
  | false =>
      simp only [Bool.false_eq_true, if_false]
      split
      · exact .inr ⟨_, rfl⟩
      · exact .inr ⟨_, rfl⟩
      · exact .inl ⟨(), rfl, rfl⟩

private theorem doneOrUntouched_answer {outcome : Outcome α} (ends : outcome ≠ .aborted) :
    store.DoneOrUntouched (outcome, store) (outcome, store) := by
  cases outcome with
  | ok value => exact .inl ⟨value, rfl, rfl⟩
  | error failure => exact .inr ⟨failure, rfl⟩
  | aborted => exact absurd rfl ends

private theorem read_ne_aborted {table : String} {key : List Cell} {missing : StoreError}
    {ofRow : Row → Except DatabaseError α} :
    store.read name table key missing ofRow ≠ .aborted := by
  unfold read
  cases store.database.row? table key with
  | error error => simp
  | ok found =>
      cases found with
      | none => simp
      | some row =>
          cases read : ofRow row with
          | error error => simp [read]
          | ok value => simp [read]

private theorem ofExcept_ne_aborted (result : Except StoreError α) :
    Outcome.ofExcept result ≠ .aborted := by
  cases result <;> simp [Outcome.ofExcept]

/-! ## Operations -/

theorem stepUnder_doneOrUntouched (store : TableStore) (cancellation : Cancellation)
    (moment : Moment) (operation : Operation α) :
    store.DoneOrUntouched (store.step moment operation)
      (stepUnder cancellation store moment operation) := by
  unfold step
  cases operation with
  | createDocument creator fields =>
      refine doneOrUntouched_worker (doneOrUntouched_clocked ?_)
      exact fun now => doneOrUntouched_transaction _
  | getDocument id => exact doneOrUntouched_worker (doneOrUntouched_answer read_ne_aborted)
  | updateDocument id fields =>
      simp only [stepUnder]
      split
      · exact .inl ⟨(), rfl, rfl⟩
      · refine doneOrUntouched_worker (doneOrUntouched_clocked ?_)
        exact fun now => doneOrUntouched_execute ..
  | deleteDocument id => exact doneOrUntouched_worker (doneOrUntouched_transaction _)
  | upsertUser user document level =>
      refine doneOrUntouched_worker (doneOrUntouched_clocked ?_)
      exact fun now => doneOrUntouched_execute ..
  | updateGuest guest level =>
      refine doneOrUntouched_worker (doneOrUntouched_clocked ?_)
      exact fun now => doneOrUntouched_execute ..
  | getPermission document principal =>
      exact doneOrUntouched_worker (doneOrUntouched_answer read_ne_aborted)
  | deletePermission principal document =>
      exact doneOrUntouched_worker (doneOrUntouched_execute ..)
  | listPermissions document listing =>
      simp only [stepUnder]
      split
      · exact .inr ⟨_, rfl⟩
      · exact doneOrUntouched_worker (doneOrUntouched_snapshot _)
  | listDocuments principal listing =>
      simp only [stepUnder]
      split
      · exact .inr ⟨_, rfl⟩
      · exact doneOrUntouched_worker (doneOrUntouched_answer (ofExcept_ne_aborted _))
  | createGuest creator document level =>
      refine doneOrUntouched_worker (doneOrUntouched_clocked ?_)
      exact fun now => doneOrUntouched_transaction _
  | getGuest guest => exact doneOrUntouched_worker (doneOrUntouched_answer read_ne_aborted)

theorem step_ok_or_untouched (store : TableStore) (moment : Moment)
    (operation : Operation α) :
    (∃ value, (store.step moment operation).1 = .ok value) ∨
      ∃ failure, store.step moment operation = (.error failure, store) := by
  rcases store.stepUnder_doneOrUntouched .never moment operation with ⟨value, done, -⟩ | untouched
  · exact .inl ⟨value, done⟩
  · exact .inr untouched

/-! ## The last look -/

theorem worker_snd {whole work : Outcome α × TableStore} {last : Nat} (late : 1 ≤ last)
    (leaves : cancellation.isRaised 1 = false →
      work.2 = if cancellation.isRaised last then store else whole.2) :
    (store.worker cancellation name work).2 =
      if cancellation.isRaised last then store else (store.worker .never name whole).2 := by
  have left : store.worker .never name whole = whole := rfl
  cases up : cancellation.isRaised 1 with
  | false =>
      have first := Cancellation.isRaised_eq_false up (Nat.zero_le 1)
      have begins : store.worker cancellation name work = work := by simp [worker, first, up]
      rw [begins, left, leaves up]
  | true =>
      rw [Cancellation.isRaised_mono late up, worker, up, Bool.or_true]
      rfl

private theorem worker_snd_of_single (work : Outcome α × TableStore) :
    (store.worker cancellation name work).2 =
      if cancellation.isRaised 1 then store else (store.worker .never name work).2 := by
  apply worker_snd (Nat.le_refl 1)
  intro live
  rw [live]
  rfl

private theorem clocked_snd {whole work : Timestamp → Outcome α × TableStore} {last : Nat}
    (leaves : ∀ now, (work now).2 =
      if cancellation.isRaised last then store else (whole now).2) :
    (store.clocked name moment work).2 =
      if cancellation.isRaised last then store else (store.clocked name moment whole).2 := by
  unfold clocked
  cases moment.clock.now? with
  | none => exact (ite_self store).symm
  | some now => exact leaves now

/-- After the looks of the worker and the one before it begins, a transaction looks once before
each statement and once before it commits. -/
private theorem transaction_snd {body : Body α} {count : Nat} (makes : body.Makes count) :
    (store.transaction cancellation name body).2 =
      if cancellation.isRaised (count + 3) then store
      else (store.transaction .never name body).2 := by
  simp only [transaction]
  generalize (⟨if store.writeLocked then some .locked else none, none⟩ : TransactionFaults) =
    faults
  rcases inTransaction_cases cancellation faults name 2 store.database body with
    ⟨value, sound, live, gives, commits⟩ | ⟨failure, undone⟩
  · rw [makes _ _ gives, Nat.add_comm] at live
    rw [commits, inTransaction_ok sound rfl gives, live]
    rfl
  · rw [undone]
    cases up : cancellation.isRaised (count + 3) with
    | true => rfl
    | false =>
        rcases inTransaction_cases .never faults name 2 store.database body with
          ⟨value, sound, -, gives, -⟩ | ⟨failure', undone'⟩
        · -- Left alone, it would have committed, so it commits here.
          have live : cancellation.isRaised
              (2 + 1 + (body.statements store.database).length) = false := by
            rwa [makes _ _ gives, Nat.add_comm]
          rw [inTransaction_ok sound live gives] at undone
          cases undone
        · rw [undone']
          rfl

end TableStore

/-- The number of the last look at the flag by a worker that does what it is asked. -/
def Action.lastLook : Operation α → Nat
  | .createDocument _ _ => 5
  | .deleteDocument _ => 6
  | .listPermissions _ _ => 5
  | .createGuest _ _ _ => 5
  | _ => 1

/-- A worker leaves what it is asked to do, unless the flag is up at its last look. -/
theorem TableStore.stepUnder_snd (store : TableStore) (cancellation : Cancellation)
    (moment : Moment) (operation : Operation α) :
    (store.stepUnder cancellation moment operation).2 =
      if cancellation.isRaised operation.lastLook then store
      else (store.step moment operation).2 := by
  unfold step
  cases operation with
  | createDocument creator fields =>
      refine worker_snd (by decide : 1 ≤ 5) fun _ => clocked_snd fun now => ?_
      exact transaction_snd (Body.makes_execute (Body.makes_execute (Body.makes_done _)))
  | getDocument id => exact worker_snd_of_single _
  | updateDocument id fields =>
      simp only [stepUnder]
      split
      · exact (ite_self store).symm
      · exact worker_snd_of_single _
  | deleteDocument id =>
      refine worker_snd (by decide : 1 ≤ 6) fun _ => transaction_snd ?_
      exact Body.makes_execute (Body.makes_execute (Body.makes_attempt fun _ => Body.makes_done _))
  | upsertUser user document level => exact worker_snd_of_single _
  | updateGuest guest level => exact worker_snd_of_single _
  | getPermission document principal => exact worker_snd_of_single _
  | deletePermission principal document => exact worker_snd_of_single _
  | listPermissions document listing =>
      simp only [stepUnder]
      split
      · exact (ite_self store).symm
      · exact worker_snd (by decide : 1 ≤ 5) fun _ => (ite_self store).symm
  | listDocuments principal listing =>
      simp only [stepUnder]
      split
      · exact (ite_self store).symm
      · exact worker_snd_of_single _
  | createGuest creator document level =>
      refine worker_snd (by decide : 1 ≤ 5) fun _ => clocked_snd fun now => ?_
      exact transaction_snd (Body.makes_execute (Body.makes_execute (Body.makes_done _)))
  | getGuest guest => exact worker_snd_of_single _

/-- A transaction of any body, given up at any moment or failing on its own, has made all of
its statements or none. So has every operation on tables, those of several statements
included. -/
theorem giving_up_all_or_nothing (cancellation : Cancellation) :
    (∀ (faults : TransactionFaults) (operation : String) (look : Nat) (database : Database)
        (body : Body α),
      AllOrNothing cancellation faults operation look database body
        (inTransaction cancellation faults operation look database body)) ∧
      ∀ (store : TableStore) (moment : Moment) (operation : Operation α),
        store.DoneOrUntouched (store.step moment operation)
          (store.stepUnder cancellation moment operation) :=
  ⟨fun _ _ _ _ _ => inTransaction_allOrNothing, fun store moment operation =>
    store.stepUnder_doneOrUntouched cancellation moment operation⟩

/-- A deletion that is given up after its first statement, which has taken two permissions
away by then. -/
theorem deletion_given_up :
    let store := Store.after (⟨(TableStore.newTables default).database, false⟩ : TableStore)
      shortHistory
    let operation : Operation Unit := .deleteDocument ⟨.ofNat 1⟩
    (store.step (.ofNumbers 4 4) operation).1.errorKind? = none ∧
      ∃ failure, store.stepUnder ⟨some 4⟩ (.ofNumbers 4 4) operation = (.error failure, store) := by
  intro store operation
  obtain ⟨-, operations⟩ := giving_up_all_or_nothing (α := Unit) ⟨some 4⟩
  refine ⟨by decide +kernel, ?_⟩
  rcases operations store (.ofNumbers 4 4) operation with ⟨value, done, -⟩ | untouched
  · have failed : (store.stepUnder ⟨some 4⟩ (.ofNumbers 4 4) operation).1.errorKind? =
        some .repository := by decide +kernel
    rw [done] at failed
    cases failed
  · exact untouched

end DocAccess
