import DocAccess.Proofs.Calls
import DocAccess.Proofs.Failure

/-!
# Refused arguments

Arguments are refused before anything stored is looked at, the lock included. So a refusal
follows from what is asked alone, and tells nothing of the rows.
-/

set_option autoImplicit false

namespace DocAccess

open Relational (Cell Database DatabaseError Row)

variable {α β : Type}

/-- Why the arguments are refused, if that is the failure. -/
def StoreError.invalid? : StoreError → Option String
  | .invalidInput reason => some reason
  | _ => none

namespace Outcome

def invalid? : Outcome α → Option String
  | .error failure => failure.invalid?
  | _ => none

theorem invalid?_eq_some_iff {outcome : Outcome α} {reason : String} :
    outcome.invalid? = some reason ↔ outcome = .error (.invalidInput reason) := by
  cases outcome with
  | ok value => simp [invalid?]
  | error failure => cases failure <;> simp [invalid?, StoreError.invalid?]
  | aborted => simp [invalid?]

end Outcome

/-- Why the arguments of an operation are refused, whatever is stored. -/
def Action.invalid? : Operation α → Option String
  | .listPermissions _ listing => (Outcome.ofExcept listing.validate).invalid?
  | .listDocuments _ listing => (Outcome.ofExcept listing.validate).invalid?
  | _ => none

/-! ## In memory -/

namespace MemoryStore

variable {store : MemoryStore} {moment : Moment}

private theorem invalid?_locked {name : String} {body : Outcome α × MemoryStore}
    (accepts : body.1.invalid? = none) : (store.locked name body).1.invalid? = none := by
  unfold locked
  split
  · rfl
  · exact accepts

private theorem invalid?_found {missing : StoreError} (named : missing.invalid? = none)
    (value : Option α) : (found missing value).invalid? = none := by
  cases value with
  | none => exact named
  | some value => rfl

private theorem invalid?_step (store : MemoryStore) (moment : Moment) (operation : Operation α) :
    (store.step moment operation).1.invalid? = operation.invalid? := by
  cases operation with
  | createDocument creator fields =>
      refine invalid?_locked ?_
      unfold createDocument
      dsimp only
      split
      · rfl
      · cases moment.clock.now? <;> rfl
  | getDocument id => exact invalid?_locked (invalid?_found rfl _)
  | updateDocument id fields =>
      simp only [step]
      split
      · rfl
      · refine invalid?_locked ?_
        unfold updateDocument
        cases store.documents[id]? with
        | none => rfl
        | some document => cases moment.clock.now? <;> rfl
  | deleteDocument id =>
      refine invalid?_locked ?_
      unfold deleteDocument
      split <;> rfl
  | upsertUser user id level =>
      refine invalid?_locked ?_
      unfold upsertUser
      cases store.documents.contains id with
      | false => rfl
      | true =>
          cases moment.clock.now? with
          | none => rfl
          | some now =>
              cases held : store.permissions[(⟨.ofUser user, id⟩ : PermissionKey)]? with
              | none => simp [held, Outcome.invalid?]
              | some permission =>
                  simp only [held, if_true]
                  split <;> rfl
  | updateGuest guest level =>
      refine invalid?_locked ?_
      unfold updateGuest
      cases store.guestPermission? guest with
      | none => rfl
      | some entry => cases moment.clock.now? <;> rfl
  | getPermission id principal => exact invalid?_locked (invalid?_found rfl _)
  | deletePermission principal id =>
      refine invalid?_locked ?_
      unfold deletePermission
      dsimp only
      split <;> rfl
  | listPermissions id listing =>
      simp only [step, Action.invalid?]
      cases listing.validate with
      | error failure => rfl
      | ok checked =>
          refine invalid?_locked ?_
          unfold answer listPermissions
          dsimp only
          split <;> rfl
  | listDocuments principal listing =>
      simp only [step, Action.invalid?]
      cases listing.validate with
      | error failure => rfl
      | ok checked => exact invalid?_locked rfl
  | createGuest creator id level =>
      refine invalid?_locked ?_
      unfold createGuest
      cases store.documents.contains id with
      | false => rfl
      | true =>
          simp only [if_true]
          split
          · rfl
          · cases moment.clock.now? <;> rfl
  | getGuest guest => exact invalid?_locked (invalid?_found rfl _)

end MemoryStore

/-! ## In tables -/

/-- No statement of a body, whatever it finds, leads to a refusal of arguments. -/
def Body.Accepts : Body α → Prop
  | .done result => (Outcome.ofExcept result).invalid? = none
  | .statement run next =>
      (∀ operation, (next (.error (.repository operation .deadlineExceeded))).Accepts) ∧
        ∀ database, (next (.ok (run database).1)).Accepts

namespace Body

variable {report : DatabaseError → StoreError} {cancellation : Cancellation} {name : String}

private theorem accepts_attempt {run : Database → Except DatabaseError (β × Database)}
    {next : β → Body α}
    (reports : ∀ error, (report error).invalid? = none) (accepts : ∀ value, (next value).Accepts) :
    (attempt run report next).Accepts := by
  refine ⟨fun operation => rfl, fun database => ?_⟩
  dsimp only
  cases run database with
  | error error => exact reports error
  | ok found => exact accepts found.1

private theorem invalid?_run {body : Body α} (accepts : body.Accepts) (look : Nat)
    (database : Database) :
    (Outcome.ofExcept (body.run cancellation name look database).1).invalid? = none := by
  induction body generalizing look database with
  | done result => exact accepts
  | statement run next ih =>
      obtain ⟨givenUp, goesOn⟩ := accepts
      rw [Body.run]
      split
      · exact ih _ (givenUp name) _ _
      · exact ih _ (goesOn database) _ _

theorem invalid?_inTransaction {body : Body α} (accepts : body.Accepts) (faults : TransactionFaults)
    (look : Nat) (database : Database) :
    (Outcome.ofExcept (inTransaction cancellation faults name look database body).1).invalid? =
      none := by
  have ran :
      (Outcome.ofExcept (body.run cancellation name (look + 1) database).1).invalid? = none :=
    invalid?_run accepts (look + 1) database
  unfold inTransaction
  split
  · rfl
  · split
    · rfl
    · revert ran
      obtain ⟨result, changed, last⟩ := body.run cancellation name (look + 1) database
      intro ran
      cases result with
      | error failure => exact ran
      | ok value =>
          rw [finish]
          split
          · rfl
          · split <;> rfl

end Body

private theorem StoreError.invalid?_ofInsertion (operation : String) (error : DatabaseError) :
    (StoreError.ofInsertion operation error).invalid? = none := by
  cases error <;> rfl

namespace TableStore

variable {store : TableStore} {cancellation : Cancellation} {name : String} {moment : Moment}

private theorem invalid?_worker {work : Outcome α × TableStore} (accepts : work.1.invalid? = none) :
    (store.worker cancellation name work).1.invalid? = none := by
  unfold worker
  split
  · rfl
  · exact accepts

private theorem invalid?_clocked {work : Timestamp → Outcome α × TableStore}
    (accepts : ∀ now, (work now).1.invalid? = none) :
    (store.clocked name moment work).1.invalid? = none := by
  unfold clocked
  cases moment.clock.now? with
  | none => rfl
  | some now => exact accepts now

private theorem invalid?_transaction {body : Body α} (accepts : body.Accepts) :
    (store.transaction cancellation name body).1.invalid? = none :=
  Body.invalid?_inTransaction accepts _ 2 store.database

private theorem invalid?_execute {report : DatabaseError → StoreError} {unchanged : StoreError}
    {statement : Database → Except DatabaseError (Nat × Database)}
    (reports : ∀ error, (report error).invalid? = none) (named : unchanged.invalid? = none) :
    (store.execute report unchanged statement).1.invalid? = none := by
  unfold execute
  split
  · exact reports .locked
  · split
    · exact reports _
    · exact named
    · rfl

private theorem invalid?_read {table : String} {key : List Cell} {missing : StoreError}
    {ofRow : Row → Except DatabaseError α} (named : missing.invalid? = none) :
    (store.read name table key missing ofRow).invalid? = none := by
  unfold read
  split
  · rfl
  · exact named
  · split <;> rfl

theorem invalid?_stepUnder (cancellation : Cancellation) (store : TableStore) (moment : Moment)
    (operation : Operation α) :
    (store.stepUnder cancellation moment operation).1.invalid? = operation.invalid? := by
  have reports (name : String) (error : DatabaseError) :
      (StoreError.ofDatabase name error).invalid? = none := rfl
  have inserts := StoreError.invalid?_ofInsertion
  cases operation with
  | createDocument creator fields =>
      refine invalid?_worker (invalid?_clocked fun now => invalid?_transaction ?_)
      exact Body.accepts_attempt (reports _) fun _ => Body.accepts_attempt (reports _) fun _ => rfl
  | getDocument id => exact invalid?_worker (invalid?_read rfl)
  | updateDocument id fields =>
      simp only [stepUnder]
      split
      · rfl
      · exact invalid?_worker (invalid?_clocked fun now => invalid?_execute (reports _) rfl)
  | deleteDocument id =>
      refine invalid?_worker (invalid?_transaction ?_)
      refine Body.accepts_attempt (reports _) fun _ => Body.accepts_attempt (reports _) fun _ => ?_
      refine Body.accepts_attempt (reports _) fun deleted => ?_
      by_cases none : deleted = 0
      · rw [if_pos none]
        rfl
      · rw [if_neg none]
        rfl
  | upsertUser user id level =>
      exact invalid?_worker (invalid?_clocked fun now => invalid?_execute (inserts _) rfl)
  | updateGuest guest level =>
      exact invalid?_worker (invalid?_clocked fun now => invalid?_execute (reports _) rfl)
  | getPermission id principal => exact invalid?_worker (invalid?_read rfl)
  | deletePermission principal id => exact invalid?_worker (invalid?_execute (reports _) rfl)
  | listPermissions id listing =>
      simp only [stepUnder, Action.invalid?]
      cases listing.validate with
      | error failure => rfl
      | ok checked =>
          refine invalid?_worker (Body.invalid?_inTransaction ?_ {} 2 store.database)
          refine Body.accepts_attempt (reports _) fun row => ?_
          split
          · rfl
          · exact Body.accepts_attempt (reports _) fun page => rfl
  | listDocuments principal listing =>
      simp only [stepUnder, Action.invalid?]
      cases listing.validate with
      | error failure => rfl
      | ok checked =>
          refine invalid?_worker ?_
          unfold listDocuments
          cases (documentsOf store.database principal checked.1).bind fun rows =>
            readPage DocumentPermission.ofRow
              ((documentOrder listing.cursor.sortField).select rows listing.cursor checked.2)
              listing.cursor with
          | error error => rfl
          | ok page => rfl
  | createGuest creator id level =>
      refine invalid?_worker (invalid?_clocked fun now => invalid?_transaction ?_)
      exact Body.accepts_attempt (inserts _) fun _ => Body.accepts_attempt (inserts _) fun _ => rfl
  | getGuest guest => exact invalid?_worker (invalid?_read rfl)

theorem stepUnder_error {operation : Operation α} {failure : StoreError}
    (fails : (store.stepUnder cancellation moment operation).1 = .error failure) :
    (store.stepUnder cancellation moment operation).2 = store := by
  rcases store.stepUnder_doneOrUntouched cancellation moment operation with
    ⟨value, done, -⟩ | ⟨reason, untouched⟩
  · cases done.symm.trans fails
  · exact congrArg Prod.snd untouched

end TableStore

/-! ## Two runs -/

/-- Two runs of the same refuse its arguments for the same reason or not at all, and leave what
they refuse. -/
structure RefuseAlike {σ : Type} (first second : σ) (one other : Outcome α × σ) : Prop where
  alike (reason : String) :
    one.1 = .error (.invalidInput reason) ↔ other.1 = .error (.invalidInput reason)
  untouched (reason : String) :
    one.1 = .error (.invalidInput reason) → one.2 = first ∧ other.2 = second

private theorem refuseAlike_of_invalid? {σ : Type} {first second : σ} {one other : Outcome α × σ}
    (same : one.1.invalid? = other.1.invalid?)
    (kept : ∀ failure, one.1 = .error failure → one.2 = first)
    (kept' : ∀ failure, other.1 = .error failure → other.2 = second) :
    RefuseAlike first second one other := by
  have alike (reason : String) :
      one.1 = .error (.invalidInput reason) ↔ other.1 = .error (.invalidInput reason) := by
    rw [← Outcome.invalid?_eq_some_iff, ← Outcome.invalid?_eq_some_iff, same]
  exact ⟨alike, fun reason fails => ⟨kept _ fails, kept' _ ((alike reason).1 fails)⟩⟩

namespace StoreKind

variable {kind : StoreKind}

theorem invalid?_step (store : kind.State) (moment : Moment) (operation : Operation α) :
    (Store.step store moment operation).1.invalid? = operation.invalid? := by
  cases kind with
  | memory => exact MemoryStore.invalid?_step store moment operation
  | tables => exact TableStore.invalid?_stepUnder .never store moment operation

theorem step_error (store : kind.State) {moment : Moment} {operation : Operation α}
    {failure : StoreError} (fails : (Store.step store moment operation).1 = .error failure) :
    (Store.step store moment operation).2 = store := by
  cases kind with
  | memory => exact (MemoryStore.change_step store moment operation).unchanged fails
  | tables => exact TableStore.stepUnder_error fails

private theorem list_of_faulty (store : kind.State) (moment : Moment) (scope : Scope α)
    {listing : Listing} (faulty : listing.levels = [] ∨ listing.pageSize = 0) :
    (Store.step store moment (scope.list listing)).1.errorKind? = some .invalidInput := by
  rcases listing.validate_cases with ⟨levels, room, -⟩ | ⟨-, reason, refused⟩
  · rcases faulty with empty | empty
    · exact absurd empty levels
    · exact absurd empty (Nat.ne_of_gt room)
  · have invalid : (scope.list listing).invalid? = some reason := by
      cases scope <;> simp only [Scope.list, Action.invalid?, refused] <;> rfl
    rw [← invalid?_step store moment, Outcome.invalid?_eq_some_iff] at invalid
    rw [invalid]
    rfl

end StoreKind

namespace Service

variable {kind : StoreKind}

/-- Why the arguments of a request are refused, by the service or by any store. -/
def invalid? (config : ServiceConfig) (clock : Clock) (request : Request α) : Option String :=
  match resolve config clock request with
  | .ok operation => operation.invalid?
  | .error failure => failure.invalid?
  | .aborted => none

private theorem invalid?_step (config : ServiceConfig) (store : kind.State) (moment : Moment)
    (request : Request α) :
    (step config store moment request).1.invalid? = invalid? config moment.clock request := by
  unfold step invalid?
  cases resolve config moment.clock request with
  | ok operation => exact StoreKind.invalid?_step store moment operation
  | error failure => rfl
  | aborted => rfl

private theorem step_error {config : ServiceConfig} (store : kind.State) {moment : Moment}
    {request : Request α} {failure : StoreError}
    (fails : (step config store moment request).1 = .error failure) :
    (step config store moment request).2 = store := by
  unfold step at fails ⊢
  cases resolved : resolve config moment.clock request with
  | ok operation =>
      rw [resolved] at fails
      exact StoreKind.step_error store fails
  | error failure => rfl
  | aborted => rfl

private theorem step_of_refusal? {σ : Type} [Store σ] {config : ServiceConfig} {store : σ}
    {moment : Moment} {request : Request α} {failure : StoreError}
    (refused : refusal? request = some failure) :
    step config store moment request = (.error failure, store) := by
  rw [step, resolve, refused]

private theorem refusal?_of_grantsOwner {request : Request α}
    (grants : request.grantsOwner = true) :
    ∃ reason, refusal? request = some (.invalidInput reason) := by
  cases request with
  | upsertUser user id level => exact ⟨_, if_pos (of_decide_eq_true grants)⟩
  | updateGuest guest level => exact ⟨_, if_pos (of_decide_eq_true grants)⟩
  | createGuest creator id level => exact ⟨_, if_pos (of_decide_eq_true grants)⟩
  | _ => cases grants

end Service

/-- Asked the same when the clock shows the same, two stores of one kind refuse the arguments for
the same reason or both do not, whatever they hold and even if a lock is poisoned; so does the
service over them. What is wrong with a listing, a grant of ownership or an update of nothing
comes before all other failures. -/
theorem invalid_input_ignores_state {kind : StoreKind} (first second : kind.State)
    (config : ServiceConfig) (clock : Clock) (drawn other : Uuid) :
    (∀ operation : Operation α, RefuseAlike first second
      (Store.step first ⟨clock, drawn⟩ operation) (Store.step second ⟨clock, other⟩ operation)) ∧
    (∀ request : Request α, RefuseAlike first second
      (Service.step config first ⟨clock, drawn⟩ request)
      (Service.step config second ⟨clock, other⟩ request)) ∧
    (∀ (cancellation later : Cancellation) (one two : TableStore) (operation : Operation α),
      RefuseAlike one two (one.stepUnder cancellation ⟨clock, drawn⟩ operation)
        (two.stepUnder later ⟨clock, other⟩ operation)) ∧
    (∀ {β : Type} (scope : Scope β) (listing : Listing),
      listing.levels = [] ∨ listing.pageSize = 0 →
        (Store.step first ⟨clock, drawn⟩ (scope.list listing)).1.errorKind? =
          some .invalidInput) ∧
    (∀ request : Request α, request.grantsOwner = true →
      (Service.step config first ⟨clock, drawn⟩ request).1.errorKind? = some .invalidInput) ∧
    ∀ (id : DocumentId) (fields : DocumentFields), fields.isEmpty = true →
      (Service.step config first ⟨clock, drawn⟩ (.updateDocument id fields)).1.errorKind? =
        some .invalidInput := by
  refine ⟨?_, ?_, ?_, ?_, ?_, ?_⟩
  · intro operation
    refine refuseAlike_of_invalid? ?_ (fun _ => StoreKind.step_error first) fun _ =>
      StoreKind.step_error second
    rw [StoreKind.invalid?_step, StoreKind.invalid?_step]
  · intro request
    refine refuseAlike_of_invalid? ?_ (fun _ => Service.step_error first) fun _ =>
      Service.step_error second
    rw [Service.invalid?_step, Service.invalid?_step]
  · intro cancellation later one two operation
    refine refuseAlike_of_invalid? ?_ (fun _ => TableStore.stepUnder_error) fun _ =>
      TableStore.stepUnder_error
    rw [TableStore.invalid?_stepUnder, TableStore.invalid?_stepUnder]
  · intro β scope listing faulty
    exact StoreKind.list_of_faulty first _ scope faulty
  · intro request grants
    obtain ⟨reason, refused⟩ := Service.refusal?_of_grantsOwner grants
    rw [Service.step_of_refusal? refused]
    rfl
  · intro id fields empty
    have refused : Service.refusal? (.updateDocument id fields) =
        some (.invalidInput "update document: no fields to update") := if_pos empty
    rw [Service.step_of_refusal? refused]
    rfl

/-- A store whose lock has been poisoned and an empty one refuse to make a second owner in the
same words. -/
theorem owner_refused_behind_poisoned_lock :
    let store := Store.after MemoryStore.empty
      (shortHistory ++ [⟨DocumentId, .ofNumbers (-1) 4, .createDocument ⟨.ofNat 7⟩ {}⟩])
    let listing : Listing := ⟨[], ⟨.createdAt, default, .ofNat 0⟩, 1⟩
    let grant : Request Unit := .upsertUser ⟨.ofNat 8⟩ ⟨.ofNat 1⟩ .owner
    let moment := Moment.ofNumbers 5 5
    store.poisoned = true ∧
      (Service.step {} store moment grant).1 =
        .error (.invalidInput
          "upsert user permission: owner can only be granted by creating a document") ∧
      (Service.step {} store moment grant).1.errorKind? = some .invalidInput ∧
      (Service.step {} store moment (.updateDocument ⟨.ofNat 1⟩ {})).1.errorKind? =
        some .invalidInput ∧
      (store.step moment (.listPermissions ⟨.ofNat 1⟩ listing)).1.errorKind? =
        some .invalidInput := by
  intro store listing grant moment
  obtain ⟨-, requests, -, listings, grants, updates⟩ :=
    @invalid_input_ignores_state Unit .memory store MemoryStore.empty {} moment.clock moment.drawn
      moment.drawn
  refine ⟨by decide +kernel, ((requests grant).alike _).2 rfl, grants grant rfl,
    updates ⟨.ofNat 1⟩ {} rfl, listings (.document ⟨.ofNat 1⟩) listing (.inl rfl)⟩

end DocAccess
