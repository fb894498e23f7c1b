import DocAccess.Json.Printer
import DocAccess.Relational.Database
import DocAccess.Text.Hex

/-!
# Tables as JSON

A form in which all that a table holds can be compared: each row as an object by
column, and the rows in the order of their texts.
-/

set_option autoImplicit false

namespace DocAccess.Relational

/-- The form of a cell: a real number is only named, and a byte string is an object with
its digits. -/
def Cell.toJson : Cell → Json
  | .null => .null
  | .integer value => Json.int value
  | .real _ => Json.str "real"
  | .text content => Json.str content
  | .blob bytes => Json.record [("blob", Json.str (String.ofList (Hex.encode bytes)))]

/-- The cell of a form. -/
def Cell.ofJson? : Json → Option Cell
  | .null => some .null
  | .text content => content.map .text
  | .number literal => (Json.number literal).int?.map .integer
  | value => do
      let digits ← (← value.member? "blob").str?
      return .blob (← Hex.decode? digits.toList)

/-- The form of a row, its columns in the order of their names. -/
def TableSchema.rowToJson (schema : TableSchema) (row : Row) : Json :=
  let members := (schema.columns.zip row).map fun (column, cell) => (column.name, cell.toJson)
  Json.record (members.mergeSort fun a b => a.1 ≤ b.1)

def Table.toJson (table : Table) : Json :=
  let rows := table.rows.map fun row =>
    let form := table.schema.rowToJson row
    (form.render, form)
  .array ((rows.mergeSort fun a b => a.1 ≤ b.1).map (·.2))

/-- The form of the table of a name, null if there is none. -/
def Database.dump (database : Database) (name : String) : Json :=
  match database.table? name with
  | some table => table.toJson
  | none => .null

end DocAccess.Relational
