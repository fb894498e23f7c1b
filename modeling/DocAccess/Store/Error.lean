import DocAccess.Relational.Error
import DocAccess.ValueError

/-!
# Errors of the store

An operation fails in one of four ways. The text of a failure of the store
itself names only the operation; its cause is kept apart, so that what a client
is told shows nothing of how things are stored.
-/

set_option autoImplicit false

namespace DocAccess

open Relational (DatabaseError)

inductive BackendError where
  | database (error : DatabaseError)
  /-- The operation was given up, or took too long. -/
  | deadlineExceeded
  /-- The worker that ran the operation broke off. -/
  | workerFailed (detail : String)
  /-- No connection could be had. -/
  | pool (detail : String)
  /-- An earlier operation broke off while it held the lock. -/
  | poisoned
  /-- What is stored does not suit the operation. -/
  | invalidData (detail : String)
  | migration (detail : String)
  deriving DecidableEq, Repr

def BackendError.message : BackendError → String
  | .database error => "database error: " ++ error.message
  | .deadlineExceeded => "deadline exceeded"
  | .workerFailed detail => "worker task failed: " ++ detail
  | .pool detail => "connection pool error: " ++ detail
  | .poisoned => "lock poisoned"
  | .invalidData detail => "invalid data: " ++ detail
  | .migration detail => "migration error: " ++ detail

/-- The kinds of failures that callers tell apart. -/
inductive ErrorKind where
  | notFound
  | uniqueConflict
  | invalidInput
  | repository
  deriving DecidableEq, Repr

def ErrorKind.name : ErrorKind → String
  | .notFound => "NotFound"
  | .uniqueConflict => "UniqueConflict"
  | .invalidInput => "InvalidInput"
  | .repository => "Repository"

def ErrorKind.all : List ErrorKind :=
  [.notFound, .uniqueConflict, .invalidInput, .repository]

inductive StoreError where
  /-- What the operation is about does not exist. -/
  | notFound (what : String)
  /-- Something else stands where the operation would write. -/
  | uniqueConflict (what : String)
  /-- The arguments are refused, whatever is stored. -/
  | invalidInput (reason : String)
  /-- The store itself failed in the named operation. -/
  | repository (operation : String) (cause : BackendError)
  deriving DecidableEq, Repr

namespace StoreError

def kind : StoreError → ErrorKind
  | .notFound _ => .notFound
  | .uniqueConflict _ => .uniqueConflict
  | .invalidInput _ => .invalidInput
  | .repository _ _ => .repository

def message : StoreError → String
  | .notFound what => "not found: " ++ what
  | .uniqueConflict what => "unique conflict: " ++ what
  | .invalidInput reason => "invalid input: " ++ reason
  | .repository operation _ => "repository error: " ++ operation

/-- The cause of a failure of the store itself. -/
def cause? : StoreError → Option BackendError
  | .repository _ cause => some cause
  | _ => none

def isNotFound (error : StoreError) : Bool :=
  error.kind = .notFound

def ofValueError (error : ValueError) : StoreError :=
  .invalidInput error.message

/-- A failure of the database in the named operation. -/
def ofDatabase (operation : String) (error : DatabaseError) : StoreError :=
  .repository operation (.database error)

/-- A failure of the database that no operation has put into its own words. -/
def unclassified (error : DatabaseError) : StoreError :=
  .ofDatabase "database operation failed" error

/-- A failure of an insertion: a key that is taken is a conflict, a reference
without its row means that the document does not exist. -/
def ofInsertion (operation : String) : DatabaseError → StoreError
  | .duplicateKey _ _ => .uniqueConflict (operation ++ ": row already exists")
  | .danglingReference => .notFound (operation ++ ": referenced document does not exist")
  | error => .ofDatabase operation error

end StoreError

/-- How an operation ends. -/
inductive Outcome (α : Type) where
  | ok (value : α)
  | error (failure : StoreError)
  /-- It broke off without an answer: the clock could not be read. -/
  | aborted
  deriving DecidableEq, Repr

namespace Outcome

variable {α β : Type}

/-- Goes on with the value, if there is one. -/
def bind : Outcome α → (α → Outcome β) → Outcome β
  | .ok value, next => next value
  | .error failure, _ => .error failure
  | .aborted, _ => .aborted

theorem bind_eq_ok_iff {outcome : Outcome α} {next : α → Outcome β} {result : β} :
    outcome.bind next = .ok result ↔ ∃ value, outcome = .ok value ∧ next value = .ok result := by
  cases outcome <;> simp [bind]

instance : Monad Outcome where
  pure := .ok
  bind := bind

/-- The outcome of a computation that always answers. -/
def ofExcept : Except StoreError α → Outcome α
  | .ok value => .ok value
  | .error failure => .error failure

def errorKind? : Outcome α → Option ErrorKind
  | .error failure => some failure.kind
  | _ => none

end Outcome
end DocAccess
