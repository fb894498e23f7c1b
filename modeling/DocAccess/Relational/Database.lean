import DocAccess.Relational.Table

/-!
# Databases

Named tables, and the statements that read and change them. Every statement is
a function from a database to an error or a changed database, so one that fails
leaves nothing behind. References are checked as soon as a statement ends.

Only what the store needs of a query language is here: rows are inserted one at
a time, changed and deleted by key, and deleted by a condition.
-/

set_option autoImplicit false

namespace DocAccess.Relational

/-- Which constraints a connection enforces; required columns and keys are
always enforced. -/
structure Enforcement where
  references : Bool := true
  checks : Bool := true
  deriving DecidableEq, Repr

/-- The tables in order of creation, and the indexes by name with the table they
belong to. -/
structure Database where
  tables : List Table := []
  indexes : List (String × String) := []

namespace Database

def empty : Database := {}

def table? (database : Database) (name : String) : Option Table :=
  database.tables.find? fun table => sameName table.schema.name name

def table (database : Database) (name : String) : Except DatabaseError Table :=
  match database.table? name with
  | some table => .ok table
  | none => .error (.rejected ("no such table: " ++ name))

/-- The database with a changed table in place of the one of that name. -/
def setTable (database : Database) (changed : Table) : Database :=
  { database with
    tables := database.tables.map fun table =>
      if table.schema.name = changed.schema.name then changed else table }

/-! ## References -/

/-- Whether a column of a table is its whole key. -/
def isWholeKey (database : Database) (target : String × String) : Bool :=
  match (database.table? target.1).map fun table => table.schema.keyNames with
  | some [column] => sameName column target.2
  | _ => false

/-- Whether a cell, if it has a value, is a key of the table. -/
def finds (database : Database) (name : String) (cell : Cell) : Bool :=
  cell.isNull ||
    match database.table? name with
    | some table => table.keyed.contains [cell]
    | none => false

/-- Whether every column of a form that refers to a table can be checked. -/
def canCheck (database : Database) (schema : TableSchema) : Bool :=
  schema.columns.all fun column =>
    match column.references with
    | some target => database.isWholeKey target
    | none => true

/-- Whether all references of a row have their rows. -/
def refersWell (database : Database) (schema : TableSchema) (row : Row) : Bool :=
  (schema.columns.zip row).all fun (column, cell) =>
    match column.references with
    | some target => database.finds target.1 cell
    | none => true

/-- Whether a row of some table refers to a cell in the key of the named one. -/
def isReferenced (database : Database) (name : String) (cell : Cell) : Bool :=
  database.tables.any fun table => table.rows.any fun row =>
    (table.schema.columns.zip row).any fun (column, other) =>
      match column.references with
      | some target => sameName target.1 name && other = cell
      | none => false

/-! ## Reading -/

def rows (database : Database) (name : String) : Except DatabaseError (List Row) :=
  (database.table name).map Table.rows

def row? (database : Database) (name : String) (key : List Cell) :
    Except DatabaseError (Option Row) :=
  (database.table name).map fun table => table.row? key

/-! ## Writing -/

/-- Adds a row, with the number of the given cell unless that is null. Of several faults
a number that is none is reported first, then a missing value, a value that is not
allowed, a number that is taken, a key that is taken, and a reference without its row. -/
def insert (enforcement : Enforcement) (database : Database) (name : String) (given : Row)
    (number : Cell := .null) : Except DatabaseError Database :=
  match database.table name with
  | .error error => .error error
  | .ok table =>
      if enforcement.references && !database.canCheck table.schema then
        .error (.rejected "a referenced table or its key is missing")
      else
        match table.prepare given number with
        | .error error => .error error
        | .ok added =>
            match table.schema.fault? enforcement.checks added.row with
            | some fault => .error fault
            | none =>
                if table.hasHiddenNumber added.number then
                  .error (.duplicateNumber table.schema.name)
                else if table.hasKey (table.schema.keyOf added.row) then
                  .error (.duplicateKey table.schema.name table.schema.keyNames)
                else
                  let changed := database.setTable (table.put added)
                  if enforcement.references && !changed.refersWell table.schema added.row then
                    .error .danglingReference
                  else .ok changed

/-- Adds a row given by the names of its columns, among which its number may be. -/
def insertNamed (enforcement : Enforcement) (database : Database) (name : String)
    (cells : List (String × Cell)) : Except DatabaseError Database :=
  match database.table name with
  | .error error => .error error
  | .ok table =>
      match table.schema.rowOf cells with
      | .error error => .error error
      | .ok (row, number) => database.insert enforcement name row number

/-- Adds a row or, if there is one with its key that satisfies a guard, changes
that one. Gives the number of rows that were added or changed. The change keeps
the key and the references. -/
def upsert (enforcement : Enforcement) (database : Database) (name : String) (given : Row)
    (guard : Row → Bool) (change : Row → Row) : Except DatabaseError (Nat × Database) :=
  match database.table name with
  | .error error => .error error
  | .ok table =>
      let key := table.schema.keyOf given
      match table.row? key with
      | some existing =>
          if guard existing then .ok (1, database.setTable (table.modify key change))
          else .ok (0, database)
      | none => (database.insert enforcement name given).map fun changed => (1, changed)

/-- Changes the row of a key, if there is one and it satisfies a guard. Gives the
number of rows that were changed. The change keeps the key and the references. -/
def update (database : Database) (name : String) (key : List Cell) (guard : Row → Bool)
    (change : Row → Row) : Except DatabaseError (Nat × Database) :=
  match database.table name with
  | .error error => .error error
  | .ok table =>
      match table.row? key with
      | some existing =>
          if guard existing then .ok (1, database.setTable (table.modify key change))
          else .ok (0, database)
      | none => .ok (0, database)

/-- Deletes the row of a key, unless another row refers to it. Gives the number
of rows that were deleted. -/
def delete (enforcement : Enforcement) (database : Database) (name : String) (key : List Cell) :
    Except DatabaseError (Nat × Database) :=
  match database.table name with
  | .error error => .error error
  | .ok table =>
      match table.row? key with
      | none => .ok (0, database)
      | some _ =>
          let changed := database.setTable (table.erase key)
          if enforcement.references && key.any (changed.isReferenced name) then
            .error .danglingReference
          else .ok (1, changed)

/-- Deletes the rows that satisfy a condition, in a table that no other refers
to. -/
def deleteWhere (database : Database) (name : String) (condition : Row → Bool) :
    Except DatabaseError Database :=
  (database.table name).map fun table =>
    database.setTable (table.filter fun row => !condition row)

/-! ## Definitions -/

def hasName (database : Database) (name : String) : Bool :=
  (database.table? name).isSome || database.indexes.any fun entry => sameName entry.1 name

/-- Adds a table without rows. -/
def createTable (database : Database) (schema : TableSchema) : Except DatabaseError Database :=
  if database.hasName schema.name then
    .error (.rejected ("table " ++ schema.name ++ " already exists"))
  else .ok { database with tables := database.tables ++ [{ schema := schema }] }

/-- Adds a table whose name comes from outside. -/
def createNamed (database : Database) (schema : TableSchema) : Except DatabaseError Database :=
  if isTableName schema.name then database.createTable schema
  else .error (.rejected ("no name for a table: " ++ schema.name))

/-- Adds a table unless there is one of its name. -/
def ensureTable (database : Database) (schema : TableSchema) : Except DatabaseError Database :=
  if (database.table? schema.name).isSome then .ok database else database.createTable schema

def createIndex (database : Database) (name target : String) : Except DatabaseError Database :=
  match database.table target with
  | .error error => .error error
  | .ok _ =>
      if (database.table? name).isSome then .error (.nameTaken name)
      else if database.hasName name then
        .error (.rejected ("index " ++ name ++ " already exists"))
      else .ok { database with indexes := database.indexes ++ [(name, target)] }

/-- Removes a table with its rows and its indexes, unless a row of another table
refers to one of its rows. -/
def dropTable (enforcement : Enforcement) (database : Database) (name : String) :
    Except DatabaseError Database :=
  match database.table name with
  | .error error => .error error
  | .ok table =>
      let others := { database with
        tables := database.tables.filter fun other => !sameName other.schema.name name
        indexes := database.indexes.filter fun entry => !sameName entry.2 name }
      let isReferenced := table.rows.any fun row =>
        (table.schema.keyOf row).any (others.isReferenced name)
      if enforcement.references && isReferenced then .error .danglingReference
      else .ok others

end Database
end DocAccess.Relational
