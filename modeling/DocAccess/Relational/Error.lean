import DocAccess.Relational.Cell

/-!
# Errors of the database

Why a statement failed, or why a row that it gave could not be read. A statement
that fails changes nothing.
-/

set_option autoImplicit false

namespace DocAccess.Relational

/-- The kinds of constraints that a row can violate. -/
inductive Constraint where
  | check
  | foreignKey
  | notNull
  | primaryKey
  /-- A number of a row, which no definition of a table mentions. -/
  | rowNumber
  deriving DecidableEq, Repr

/-- The name of a kind of constraint. -/
def Constraint.name : Constraint → String
  | .check => "CHECK"
  | .foreignKey => "FOREIGN KEY"
  | .notNull => "NOT NULL"
  | .primaryKey => "PRIMARY KEY"
  | .rowNumber => "other"

/-- A failure of a statement or of reading its rows. -/
inductive DatabaseError where
  /-- A row with the same key is there already. -/
  | duplicateKey (table : String) (columns : List String)
  /-- A row with the same number is there already. -/
  | duplicateNumber (table : String)
  /-- A required column has no value. -/
  | missingValue (table column : String)
  /-- A column holds a text that is not among the allowed ones. -/
  | valueNotAllowed (column : String) (allowed : List String)
  /-- A reference without its row. -/
  | danglingReference
  /-- Another connection holds the write lock. -/
  | locked
  /-- A table stands where an index of that name was to be made. -/
  | nameTaken (name : String)
  /-- The statement does not suit the tables there are. -/
  | rejected (reason : String)
  /-- An integer that the reader has no room for. -/
  | integerOutOfRange (index : Nat) (value : Int)
  /-- A cell of a class that the reader does not take. -/
  | columnClass (index : Nat) (column : String) (found : CellClass)
  /-- A cell whose content the reader refuses. -/
  | conversion (index : Nat) (found : CellClass) (reason : String)
  /-- A query that was to give a row gave none. -/
  | noRows
  /-- A row without the column that was asked for. -/
  | noColumn (column : String)
  deriving DecidableEq, Repr

namespace DatabaseError

/-- The constraint that was violated, if it was one. -/
def constraint? : DatabaseError → Option Constraint
  | .duplicateKey _ _ => some .primaryKey
  | .duplicateNumber _ => some .rowNumber
  | .missingValue _ _ => some .notNull
  | .valueNotAllowed _ _ => some .check
  | .danglingReference => some .foreignKey
  | _ => none

/-- A list of texts with a comma and a blank between two. -/
def commaSeparated (texts : List String) : String :=
  String.intercalate ", " texts

/-- The wording of each failure. -/
def message : DatabaseError → String
  | .duplicateKey table columns =>
      "UNIQUE constraint failed: " ++
        commaSeparated (columns.map fun column => table ++ "." ++ column)
  | .duplicateNumber table => "UNIQUE constraint failed: " ++ table ++ ".rowid"
  | .missingValue table column => "NOT NULL constraint failed: " ++ table ++ "." ++ column
  | .valueNotAllowed column allowed =>
      "CHECK constraint failed: " ++ column ++ " IN (" ++
        commaSeparated (allowed.map fun text => "'" ++ text ++ "'") ++ ")"
  | .danglingReference => "FOREIGN KEY constraint failed"
  | .locked => "database is locked"
  | .nameTaken name => "there is already a table named " ++ name
  | .rejected reason => reason
  | .integerOutOfRange index value =>
      "Integer " ++ Numeral.intText value ++ " out of range at index " ++ Numeral.text index
  | .columnClass index column found =>
      "Invalid column type " ++ found.name ++ " at index: " ++ Numeral.text index ++
        ", name: " ++ column
  | .conversion index found reason =>
      "Conversion error from type " ++ found.name ++ " at index: " ++ Numeral.text index ++
        ", " ++ reason
  | .noRows => "Query returned no rows"
  | .noColumn column => "Invalid column name: " ++ column

end DatabaseError
end DocAccess.Relational
