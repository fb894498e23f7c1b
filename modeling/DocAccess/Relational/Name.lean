/-!
# Names of tables and columns

Names are compared without regard to the case of their ASCII letters, and keep the
case in which they were given.

A name that comes from outside stands bare in a statement. It must be a single word,
none of the words that the language of statements keeps for itself, and must not
begin as the names of the database's own tables do.
-/

set_option autoImplicit false

namespace DocAccess.Relational

/-- What two spellings of one name have in common. -/
def foldName (name : String) : List Char :=
  name.toList.map Char.toLower

/-- Whether two names are the same. -/
def sameName (a b : String) : Bool :=
  foldName a == foldName b

theorem sameName_self (name : String) : sameName name name = true := by
  simp [sameName]

/-- Names that are the same to a third are the same. -/
theorem sameName_congr {a b : String} (same : sameName a b = true) (name : String) :
    sameName a name = sameName b name := by
  simp only [sameName, beq_iff_eq] at same
  simp [sameName, same]

/-- Words that cannot stand for a name. -/
def reservedWords : List String := [
  "add", "all", "alter", "and", "as", "autoincrement", "between", "case", "check", "collate",
  "commit", "constraint", "create", "default", "deferrable", "delete", "distinct", "drop", "else",
  "escape", "except", "exists", "foreign", "from", "group", "having", "if", "in", "index",
  "insert", "intersect", "into", "is", "isnull", "join", "limit", "not", "nothing", "notnull",
  "null", "on", "or", "order", "primary", "references", "returning", "select", "set", "table",
  "then", "to", "transaction", "union", "unique", "update", "using", "values", "when", "where"]

/-- Whether a character can begin a word. Characters beyond ASCII count as letters. -/
def startsWord (c : Char) : Bool :=
  c.isAlpha || c = '_' || 128 ≤ c.toNat

/-- Whether a character can stand in a word after the first. -/
def continuesWord (c : Char) : Bool :=
  startsWord c || c.isDigit || c = '$'

/-- Whether a name is a single word. -/
def isWord (name : String) : Bool :=
  match name.toList with
  | [] => false
  | c :: rest => startsWord c && rest.all continuesWord

/-- Whether a name is one that the database keeps for its own tables. -/
def isInternal (name : String) : Bool :=
  "sqlite_".toList.isPrefixOf (foldName name)

/-- Whether a table may be given this name from outside. -/
def isTableName (name : String) : Bool :=
  isWord name && !reservedWords.any (sameName name) && !isInternal name

/-- Names that stand for the number of a row in a table without a column of the name. -/
def numberNames : List String := ["rowid", "oid", "_rowid_"]

/-- Whether a name can stand for the number of a row. -/
def isNumberName (name : String) : Bool :=
  numberNames.any (sameName name)

end DocAccess.Relational
