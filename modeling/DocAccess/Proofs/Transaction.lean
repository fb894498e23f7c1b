import DocAccess.Store.Transaction

/-!
# Transactions are whole

A body that is left to run makes its statements one after another and gives its result.
Whenever the flag goes up, a transaction has either done just that or nothing: a run whose
last look sees no flag is the plain run, and every other one is taken back.
-/

set_option autoImplicit false

namespace DocAccess

open Relational (Database DatabaseError)

variable {α : Type}

theorem Cancellation.isRaised_mono {cancellation : Cancellation} {look later : Nat}
    (order : look ≤ later) (raised : cancellation.isRaised look = true) :
    cancellation.isRaised later = true := by
  cases raisedAt : cancellation.raisedAt with
  | none => simp [isRaised, raisedAt] at raised
  | some first =>
      simp only [isRaised, raisedAt, decide_eq_true_eq] at raised ⊢
      exact Nat.le_trans raised order

theorem Cancellation.isRaised_eq_false {cancellation : Cancellation} {look later : Nat}
    (live : cancellation.isRaised later = false) (order : look ≤ later) :
    cancellation.isRaised look = false := by
  cases raised : cancellation.isRaised look with
  | false => rfl
  | true =>
      rw [isRaised_mono order raised] at live
      cases live

namespace Body

/-! ## Plain runs -/

/-- The statements of a body that is left to run, each as what it does to the database. -/
def statements : Database → Body α → List (Database → Database)
  | _, .done _ => []
  | database, .statement run next =>
      (fun database => (run database).2) ::
        statements (run database).2 (next (.ok (run database).1))

/-- What a body gives that is left to run. -/
def result : Database → Body α → Except StoreError α
  | _, .done result => result
  | database, .statement run next => result (run database).2 (next (.ok (run database).1))

/-- The database after all statements of a body. -/
def applied (database : Database) (body : Body α) : Database :=
  (body.statements database).foldl (fun database change => change database) database

variable {cancellation : Cancellation} {operation : String}

private theorem look_le_run (look : Nat) (database : Database) (body : Body α) :
    look ≤ (body.run cancellation operation look database).2.2 := by
  induction body generalizing look database with
  | done result => exact Nat.le_refl look
  | statement run next ih =>
      rw [Body.run]
      split
      · exact Nat.le_of_succ_le (ih _ (look + 1) _)
      · exact Nat.le_of_succ_le (ih _ (look + 1) _)

/-- The flag stays up, so a last look that does not see it vouches for those before. -/
private theorem run_of_last_live {look : Nat} {database : Database} {body : Body α}
    (live : cancellation.isRaised (body.run cancellation operation look database).2.2 = false) :
    body.run cancellation operation look database =
      (body.result database, body.applied database,
        look + (body.statements database).length) := by
  induction body generalizing look database with
  | done result => rfl
  | statement run next ih =>
      have first : cancellation.isRaised look = false :=
        Cancellation.isRaised_eq_false live (look_le_run look database _)
      rw [Body.run, if_neg (Bool.eq_false_iff.1 first)] at live ⊢
      rw [ih _ live]
      simp only [result, applied, statements, List.foldl_cons, List.length_cons]
      rw [Nat.add_right_comm, Nat.add_assoc]

private theorem run_of_live {look : Nat} {database : Database} {body : Body α}
    (live : cancellation.isRaised (look + (body.statements database).length) = false) :
    body.run cancellation operation look database =
      (body.result database, body.applied database,
        look + (body.statements database).length) := by
  induction body generalizing look database with
  | done result => rfl
  | statement run next ih =>
      have first : cancellation.isRaised look = false :=
        Cancellation.isRaised_eq_false live (Nat.le_add_right _ _)
      have shifted : look + (statements database (.statement run next)).length =
          look + 1 + (statements (run database).2 (next (.ok (run database).1))).length := by
        simp only [statements, List.length_cons]
        omega
      rw [shifted] at live ⊢
      rw [Body.run, if_neg (Bool.eq_false_iff.1 first), ih _ live]
      rfl

/-! ## Counting statements -/

/-- A body that makes the same number of statements whenever it succeeds. -/
def Makes (count : Nat) (body : Body α) : Prop :=
  ∀ database value, body.result database = .ok value →
    (body.statements database).length = count

theorem makes_done (result : Except StoreError α) : (done result).Makes 0 :=
  fun _ _ _ => rfl

theorem makes_attempt {β : Type} {run : Database → Except DatabaseError (β × Database)}
    {report : DatabaseError → StoreError} {next : β → Body α} {count : Nat}
    (rest : ∀ value, (next value).Makes count) : (attempt run report next).Makes (count + 1) := by
  intro database value gives
  cases ran : run database with
  | error error => simp [attempt, result, ran] at gives
  | ok made =>
      simp only [attempt, result, ran] at gives
      simp only [attempt, statements, ran, List.length_cons]
      exact congrArg (· + 1) (rest made.1 made.2 value gives)

theorem makes_execute {run : Database → Except DatabaseError Database}
    {report : DatabaseError → StoreError} {next : Body α} {count : Nat}
    (rest : next.Makes count) : (execute run report next).Makes (count + 1) :=
  makes_attempt fun _ => rest

end Body

/-! ## Transactions -/

/-- What a transaction promises, whenever the flag goes up and whatever fails. -/
structure AllOrNothing (cancellation : Cancellation) (faults : TransactionFaults)
    (operation : String) (look : Nat) (database : Database) (body : Body α)
    (ends : Except StoreError α × Database) : Prop where
  /-- It commits just if nothing fails and no look sees the flag, the one before the commit
  included. All statements have been made then. -/
  committed_iff (value : α) (changed : Database) :
    ends = (.ok value, changed) ↔
      (faults.atBegin = none ∧ faults.atCommit = none) ∧
        (∀ seen, seen ≤ look + 1 + (body.statements database).length →
          cancellation.isRaised seen = false) ∧
        body.result database = .ok value ∧ body.applied database = changed
  /-- A failure leaves nothing behind. -/
  rolledBack (failure : StoreError) : ends.1 = .error failure → ends.2 = database
  /-- A flag that is up at the beginning ends it there, whatever the body is. -/
  unbegun : cancellation.isRaised look = true →
    ends = (.error (.repository operation .deadlineExceeded), database)
  /-- The failure of a body that has begun is the one that is reported. -/
  reported (failure : StoreError) : cancellation.isRaised look = false → faults.atBegin = none →
    (body.run cancellation operation (look + 1) database).1 = .error failure →
    ends = (.error failure, database)

section

variable {cancellation : Cancellation} {faults : TransactionFaults} {operation : String}
  {look : Nat} {database : Database} {body : Body α} {value : α}

theorem inTransaction_begun (live : cancellation.isRaised look = false)
    (begins : faults.atBegin = none) :
    inTransaction cancellation faults operation look database body =
      finish cancellation faults operation database
        (body.run cancellation operation (look + 1) database) := by
  rw [inTransaction, if_neg (Bool.eq_false_iff.1 live), begins]

private theorem finish_cases (initial : Database) (ran : Except StoreError α × Database × Nat) :
    (∃ value, ran.1 = .ok value ∧ cancellation.isRaised ran.2.2 = false ∧
        faults.atCommit = none ∧
        finish cancellation faults operation initial ran = (.ok value, ran.2.1)) ∨
      ∃ failure, finish cancellation faults operation initial ran = (.error failure, initial) := by
  obtain ⟨result, reached, last⟩ := ran
  cases result with
  | error failure => exact .inr ⟨failure, rfl⟩
  | ok value =>
      rw [finish]
      cases up : cancellation.isRaised last with
      | true => exact .inr ⟨_, rfl⟩
      | false =>
          cases faults.atCommit with
          | some error => exact .inr ⟨_, rfl⟩
          | none => exact .inl ⟨value, rfl, rfl, rfl, rfl⟩

/-- A transaction commits the plain run of its body or leaves the database alone. -/
theorem inTransaction_cases (cancellation : Cancellation) (faults : TransactionFaults)
    (operation : String) (look : Nat) (database : Database) (body : Body α) :
    (∃ value, (faults.atBegin = none ∧ faults.atCommit = none) ∧
        cancellation.isRaised (look + 1 + (body.statements database).length) = false ∧
        body.result database = .ok value ∧
        inTransaction cancellation faults operation look database body =
          (.ok value, body.applied database)) ∨
      ∃ failure, inTransaction cancellation faults operation look database body =
        (.error failure, database) := by
  cases up : cancellation.isRaised look with
  | true => exact .inr ⟨_, by rw [inTransaction, if_pos up]⟩
  | false =>
      cases begins : faults.atBegin with
      | some error =>
          exact .inr ⟨_, by rw [inTransaction, if_neg (Bool.eq_false_iff.1 up), begins]⟩
      | none =>
          rw [inTransaction_begun up begins]
          rcases finish_cases database (body.run cancellation operation (look + 1) database) with
            ⟨value, gives, live, ends, commits⟩ | undone
          · have plain := Body.run_of_last_live live
            rw [plain] at gives live commits
            exact .inl ⟨value, ⟨rfl, ends⟩, live, gives, plain ▸ commits⟩
          · exact .inr undone

theorem inTransaction_ok (sound : faults.atBegin = none ∧ faults.atCommit = none)
    (live : cancellation.isRaised (look + 1 + (body.statements database).length) = false)
    (gives : body.result database = .ok value) :
    inTransaction cancellation faults operation look database body =
      (.ok value, body.applied database) := by
  have first : cancellation.isRaised look = false :=
    Cancellation.isRaised_eq_false live (by omega)
  rw [inTransaction_begun first sound.1, Body.run_of_live live, gives, finish,
    if_neg (Bool.eq_false_iff.1 live), sound.2]

theorem inTransaction_allOrNothing :
    AllOrNothing cancellation faults operation look database body
      (inTransaction cancellation faults operation look database body) where
  committed_iff value changed := by
    constructor
    · intro commits
      rcases inTransaction_cases cancellation faults operation look database body with
        ⟨given, sound, live, gives, same⟩ | ⟨failure, same⟩
      · cases same.symm.trans commits
        exact ⟨sound, fun _ order => Cancellation.isRaised_eq_false live order, gives, rfl⟩
      · cases same.symm.trans commits
    · intro given
      obtain ⟨sound, live, gives, rfl⟩ := given
      exact inTransaction_ok sound (live _ (Nat.le_refl _)) gives
  rolledBack failure fails := by
    rcases inTransaction_cases cancellation faults operation look database body with
      ⟨value, -, -, -, same⟩ | ⟨failure, same⟩
    · rw [same] at fails
      cases fails
    · rw [same]
  unbegun raised := by rw [inTransaction, if_pos raised]
  reported failure live begins fails := by
    rw [inTransaction_begun live begins]
    cases ran : body.run cancellation operation (look + 1) database with
    | mk result rest =>
        rw [ran] at fails
        cases fails
        rfl

end

end DocAccess
