import DocAccess.Relational.Error
import DocAccess.Relational.Name
import Std.Data.ExtTreeMap

/-!
# Tables

A table has columns and rows. Its rows are kept by the cells of its key columns;
rows whose key has a null in it have no key, and there may be any number of
them. The order of rows is nothing that a query shows, so tables with the same
rows by the same keys are equal.

Every row has a number that no other row of its table has. It is given with a new
row, under one of the names that stand for it, or is the one after the greatest in
the table. A table may show the numbers in its key column; in all others only a
number that is taken shows that there are any.
-/

set_option autoImplicit false

namespace DocAccess.Relational

/-- A column and what its cells must satisfy. -/
structure Column where
  name : String
  affinity : Affinity := .asGiven
  required : Bool := false
  /-- The texts that are allowed, if not all are. -/
  allowed : Option (List String) := none
  /-- The table and the column of it, its whole key, in which every cell other
  than null must be found. -/
  references : Option (String × String) := none
  deriving DecidableEq, Repr

structure TableSchema where
  name : String
  columns : List Column
  /-- The positions of the key columns; a table may have none. -/
  key : List Nat := []
  /-- Whether the key is a single column that numbers the rows. -/
  numbered : Bool := false
  deriving DecidableEq, Repr

/-- The cells of a row, in the order of the columns. -/
abbrev Row := List Cell

/-- A row with the number that it has in its table. -/
structure NumberedRow where
  number : Int
  row : Row
  deriving DecidableEq, Repr

namespace Row

/-- The cell at a position; a short row is filled with nulls. -/
def cell (row : Row) (position : Nat) : Cell :=
  row.getD position .null

end Row

namespace TableSchema

def keyNames (schema : TableSchema) : List String :=
  schema.key.filterMap fun position => schema.columns[position]?.map Column.name

def position? (schema : TableSchema) (name : String) : Option Nat :=
  schema.columns.findIdx? fun column => sameName column.name name

def keyOf (schema : TableSchema) (row : Row) : List Cell :=
  schema.key.map row.cell

/-- Whether rows with these key cells are kept by them. -/
def isKey (schema : TableSchema) (key : List Cell) : Bool :=
  !schema.key.isEmpty && key.all fun cell => !cell.isNull

/-- The position of the column that shows the numbers of the rows. -/
def numberColumn? (schema : TableSchema) : Option Nat :=
  match schema.numbered, schema.key with
  | true, [position] => some position
  | _, _ => none

/-- Whether a name stands for the number of a row: it is that of the column that
shows the numbers, or one that stands for them where no column has it. -/
def givesNumber (schema : TableSchema) (name : String) : Bool :=
  match schema.position? name with
  | some position => schema.numberColumn? = some position
  | none => isNumberName name

/-- The row with the given cells by column, at least one, and the cell of its number.
Other columns are null. The first cell of a column counts, but the last of the number,
which its column shows. -/
def rowOf (schema : TableSchema) (cells : List (String × Cell)) :
    Except DatabaseError (Row × Cell) :=
  let isUnknown (name : String) : Bool :=
    (schema.position? name).isNone && !schema.givesNumber name
  match cells.find? fun entry => isUnknown entry.1 with
  | some entry =>
      .error (.rejected ("table " ++ schema.name ++ " has no column named " ++ entry.1))
  | none =>
      if cells.isEmpty then .error (.rejected "no columns are given")
      else
        let row : Row := schema.columns.map fun column =>
          ((cells.find? fun entry => sameName entry.1 column.name).map (·.2)).getD .null
        let number := ((cells.reverse.find? fun entry => schema.givesNumber entry.1).map
          (·.2)).getD .null
        match schema.numberColumn? with
        | some position => .ok (row.set position number, .null)
        | none => .ok (row, number)

/-- The first required column without a value, then the first column with a
value that is not allowed. -/
def fault? (schema : TableSchema) (checks : Bool) (row : Row) : Option DatabaseError :=
  let cells := schema.columns.zip row
  match cells.find? fun (column, cell) => column.required && cell.isNull with
  | some (column, _) => some (.missingValue schema.name column.name)
  | none =>
      if checks then
        cells.findSome? fun (column, cell) =>
          match column.allowed with
          | some allowed =>
              if cell.isNull || allowed.any fun text => cell = .text text then none
              else some (.valueNotAllowed column.name allowed)
          | none => none
      else none

end TableSchema

structure Table where
  schema : TableSchema
  /-- The rows by the cells of their key columns. -/
  keyed : Std.ExtTreeMap (List Cell) NumberedRow := ∅
  /-- The rows without a key, by their numbers. -/
  unkeyed : Std.ExtTreeMap Int Row := ∅

namespace Table

def row? (table : Table) (key : List Cell) : Option Row :=
  table.keyed[key]?.map NumberedRow.row

def rows (table : Table) : List Row :=
  table.keyed.toList.map (·.2.row) ++ table.unkeyed.toList.map (·.2)

def numbers (table : Table) : List Int :=
  table.keyed.toList.map (·.2.number) ++ table.unkeyed.toList.map (·.1)

/-- Whether a row with the given key cells would stand in the way of another. -/
def hasKey (table : Table) (key : List Cell) : Bool :=
  table.schema.isKey key && table.keyed.contains key

/-- Whether a number is taken that no key column shows. -/
def hasHiddenNumber (table : Table) (number : Int) : Bool :=
  table.schema.numberColumn?.isNone && table.numbers.contains number

/-- The table with one more row, in place of one with the same key. -/
def put (table : Table) (added : NumberedRow) : Table :=
  if table.schema.isKey (table.schema.keyOf added.row) then
    { table with keyed := table.keyed.insert (table.schema.keyOf added.row) added }
  else { table with unkeyed := table.unkeyed.insert added.number added.row }

/-- The table with a change of the row of a key, which keeps the key and the number. -/
def modify (table : Table) (key : List Cell) (change : Row → Row) : Table :=
  { table with
    keyed := table.keyed.modify key fun entry => { entry with row := change entry.row } }

def erase (table : Table) (key : List Cell) : Table :=
  { table with keyed := table.keyed.erase key }

def filter (table : Table) (keeps : Row → Bool) : Table :=
  { table with
    keyed := table.keyed.filter fun _ entry => keeps entry.row
    unkeyed := table.unkeyed.filter fun _ row => keeps row }

/-- The number after the greatest of the table; the first is one. -/
def nextNumber (table : Table) : Int :=
  match table.numbers.max? with
  | some greatest => greatest + 1
  | none => 1

private theorem nextNumber_notMem (table : Table) : table.nextNumber ∉ table.numbers := by
  intro member
  cases greatest : table.numbers.max? with
  | none =>
      rw [List.max?_eq_none_iff.1 greatest] at member
      exact List.not_mem_nil member
  | some bound =>
      have below := (List.max?_le_iff greatest).1 (Int.le_refl bound) _ member
      simp only [nextNumber, greatest] at below
      omega

/-- A row that takes the next number meets no other of that number. -/
@[simp]
theorem hasHiddenNumber_nextNumber (table : Table) :
    table.hasHiddenNumber table.nextNumber = false := by
  simp [hasHiddenNumber, nextNumber_notMem]

/-- The number of a new row: the integer that is given for it or, if that is null,
the next one. -/
def numberOf (table : Table) (given : Cell) : Except DatabaseError Int :=
  match Affinity.integer.apply given with
  | .integer number => .ok number
  | .null => .ok table.nextNumber
  | _ => .error (.rejected "datatype mismatch")

/-- A new row as the table keeps it: its cells converted to what the columns prefer,
with its number, which is given by the column that shows it if there is one. -/
def prepare (table : Table) (cells : Row) (number : Cell) : Except DatabaseError NumberedRow :=
  let row : Row :=
    table.schema.columns.zipWith (fun column cell => column.affinity.apply cell) cells
  match table.schema.numberColumn? with
  | some position =>
      (table.numberOf (row.cell position)).map fun number =>
        ⟨number, row.set position (.integer number)⟩
  | none => (table.numberOf number).map fun number => ⟨number, row⟩

@[simp]
theorem schema_put (table : Table) (added : NumberedRow) :
    (table.put added).schema = table.schema := by
  unfold put; split <;> rfl

@[simp]
theorem schema_modify (table : Table) (key : List Cell) (change : Row → Row) :
    (table.modify key change).schema = table.schema := rfl

@[simp]
theorem schema_erase (table : Table) (key : List Cell) :
    (table.erase key).schema = table.schema := rfl

@[simp]
theorem schema_filter (table : Table) (keeps : Row → Bool) :
    (table.filter keeps).schema = table.schema := rfl

theorem row?_put (table : Table) (added : NumberedRow) (key : List Cell)
    (keyed : table.schema.isKey (table.schema.keyOf added.row) = true) :
    (table.put added).row? key =
      if key = table.schema.keyOf added.row then some added.row else table.row? key := by
  simp only [put, keyed, if_true, row?, Std.ExtTreeMap.getElem?_insert, Std.compare_eq_iff_eq]
  by_cases same : key = table.schema.keyOf added.row
  · simp only [same, if_true, Option.map_some]
  · simp only [if_neg same, if_neg (Ne.symm same)]

theorem row?_modify (table : Table) (changed key : List Cell) (change : Row → Row) :
    (table.modify changed change).row? key =
      if key = changed then (table.row? key).map change else table.row? key := by
  simp only [modify, row?, Std.ExtTreeMap.getElem?_modify, Std.compare_eq_iff_eq]
  by_cases same : key = changed
  · subst same
    simp only [if_true, Option.map_map]
    rfl
  · simp only [if_neg same, if_neg (Ne.symm same)]

theorem row?_erase (table : Table) (erased key : List Cell) :
    (table.erase erased).row? key = if key = erased then none else table.row? key := by
  simp only [erase, row?, Std.ExtTreeMap.getElem?_erase, Std.compare_eq_iff_eq]
  by_cases same : key = erased
  · simp only [same, if_true, Option.map_none]
  · simp only [if_neg same, if_neg (Ne.symm same)]

end Table
end DocAccess.Relational
