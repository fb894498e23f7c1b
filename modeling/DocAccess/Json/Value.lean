import DocAccess.Text.Numeral

/-!
# JSON values

Values as they stand in a text: members keep their order and repeats, and a
number keeps its digits. An escape may name half of a surrogate pair whose
other half is missing; such a string belongs to the grammar but has no content.
-/

set_option autoImplicit false

namespace DocAccess

/-- A JSON value. -/
inductive Json where
  | null
  | bool (value : Bool)
  /-- A number, by the characters that spell it. -/
  | number (literal : String)
  /-- A string; one whose escapes do not pair has no content. -/
  | text (content : Option String)
  | array (items : List Json)
  /-- Members in the order of the text, whose names are strings. -/
  | object (members : List (Option String × Json))
  deriving Inhabited

namespace Json

/-- The value of a string. -/
def str (content : String) : Json := .text (some content)

/-- The value of an integer. -/
def int (n : Int) : Json := .number (Numeral.intText n)

/-- An object whose members all have a name. -/
def record (members : List (String × Json)) : Json :=
  .object (members.map fun (name, value) => (some name, value))

/-- The value of the first member of a given name. -/
def member? (name : String) : Json → Option Json
  | .object members => (members.find? fun entry => entry.1 = some name).map (·.2)
  | _ => none

/-- The content of a string. -/
def str? : Json → Option String
  | .text content => content
  | _ => none

/-- The value of a number without fraction or exponent. -/
def int? : Json → Option Int
  | .number literal => Numeral.signed? literal.toList
  | _ => none

end Json
end DocAccess
