import DocAccess.Store.Tables

/-!
# Opening a store on a file

What a path must lead to so that a store can be opened there.
-/

set_option autoImplicit false

namespace DocAccess

/-- What is found at the path of a database. -/
inductive FileState where
  /-- Nothing, in a directory that is there. -/
  | absent
  /-- A file without content. -/
  | blank
  /-- Nothing, and no directory to make a file in. -/
  | unreachable
  | directory
  /-- A file that holds something else. -/
  | foreign
  deriving DecidableEq, Repr

namespace FileState

/-- The database that a file without tables holds, or why no connection to it can
be had. -/
def database : FileState → Except String Relational.Database
  | .absent => .ok .empty
  | .blank => .ok .empty
  | .unreachable => .error "unable to open database file"
  | .directory => .error "unable to open database file"
  | .foreign => .error "file is not a database"

end FileState

namespace TableStore

/-- Opens a store on what is found at a path. -/
def openFile (clock : Clock) (state : FileState) : Outcome TableStore :=
  match state.database with
  | .error detail => .error (.repository "open database" (.pool detail))
  | .ok database =>
      let (outcome, store) := TableStore.open clock database
      outcome.bind fun _ => .ok store

end TableStore
end DocAccess
