import DocAccess.Relational.Database
import DocAccess.Store.Error

/-!
# Transactions and giving up

An operation can be given up while it runs: a flag goes up and stays up. The
operation looks at the flag before it begins, at every use of the database and
before it commits, and the first look that sees the flag ends it. Looks are
counted, so the moment at which the flag goes up is the number of the first look
that sees it.

A transaction either commits all that its body wrote or leaves the database as it
was.
-/

set_option autoImplicit false

namespace DocAccess

open Relational (Database DatabaseError)

/-- When an operation is given up, if it is. -/
structure Cancellation where
  /-- The number of the first look that sees the flag up. -/
  raisedAt : Option Nat
  deriving DecidableEq, Repr

namespace Cancellation

/-- The operation is left to run. -/
def never : Cancellation := ⟨none⟩

/-- Whether a look sees the flag up. -/
def isRaised (cancellation : Cancellation) (look : Nat) : Bool :=
  match cancellation.raisedAt with
  | some first => first ≤ look
  | none => false

end Cancellation

/-- What a transaction does between its beginning and its end: statements, each of
which may depend on what the ones before it gave, and a result. A statement gets
the failure of its look at the flag in place of its own result. -/
inductive Body (α : Type) : Type 1 where
  | done (result : Except StoreError α) : Body α
  | statement {β : Type} (run : Database → β × Database) (next : Except StoreError β → Body α) :
      Body α

namespace Body

variable {α β : Type}

/-- Runs a statement that may fail, and ends with its failure or goes on. -/
def attempt (run : Database → Except DatabaseError (β × Database))
    (report : DatabaseError → StoreError) (next : β → Body α) : Body α :=
  .statement
    (fun database =>
      match run database with
      | .ok (value, changed) => (Except.ok value, changed)
      | .error error => (Except.error (report error), database))
    (fun
      | .error failure => .done (.error failure)
      | .ok (.error failure) => .done (.error failure)
      | .ok (.ok value) => next value)

/-- A statement that gives nothing but the changed database. -/
def execute (run : Database → Except DatabaseError Database)
    (report : DatabaseError → StoreError) (next : Body α) : Body α :=
  attempt (fun database => (run database).map fun changed => ((), changed)) report fun _ => next

/-- A statement that reads. -/
def query (run : Database → Except DatabaseError β)
    (report : DatabaseError → StoreError) (next : β → Body α) : Body α :=
  attempt (fun database => (run database).map fun value => (value, database)) report next

/-- Runs a body from a look on. Gives its result, the database and the number of
the next look. -/
def run (cancellation : Cancellation) (operation : String) :
    (look : Nat) → Database → Body α → Except StoreError α × Database × Nat
  | look, database, .done result => (result, database, look)
  | look, database, .statement run next =>
      if cancellation.isRaised look then
        (next (.error (.repository operation .deadlineExceeded))).run cancellation operation
          (look + 1) database
      else
        (next (.ok (run database).1)).run cancellation operation (look + 1) (run database).2

end Body

/-- How beginning and committing fail, if they do. -/
structure TransactionFaults where
  atBegin : Option DatabaseError := none
  atCommit : Option DatabaseError := none
  deriving DecidableEq, Repr

variable {α : Type}

/-- Ends a transaction whose body has run: commits it, or goes back to the
database at its beginning. -/
def finish (cancellation : Cancellation) (faults : TransactionFaults) (operation : String)
    (initial : Database) : Except StoreError α × Database × Nat → Except StoreError α × Database
  | (.error failure, _, _) => (.error failure, initial)
  | (.ok value, changed, look) =>
      if cancellation.isRaised look then
        (.error (.repository operation .deadlineExceeded), initial)
      else
        match faults.atCommit with
        | some error => (.error (.ofDatabase (operation ++ ": commit") error), initial)
        | none => (.ok value, changed)

/-- Runs a body in a transaction. The number of the first look is given, since an
operation may have looked before. -/
def inTransaction (cancellation : Cancellation) (faults : TransactionFaults) (operation : String)
    (look : Nat) (database : Database) (body : Body α) : Except StoreError α × Database :=
  if cancellation.isRaised look then
    (.error (.repository operation .deadlineExceeded), database)
  else
    match faults.atBegin with
    | some error => (.error (.ofDatabase (operation ++ ": begin") error), database)
    | none =>
        finish cancellation faults operation database
          (body.run cancellation operation (look + 1) database)

end DocAccess
