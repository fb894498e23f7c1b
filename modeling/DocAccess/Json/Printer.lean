import DocAccess.Json.Value
import DocAccess.Text.Hex

/-!
# Writing JSON

The compact form: no blanks, and no escapes but those that the grammar
requires. Quotes, backslashes and control characters are escaped; every other
character stands for itself.

Writing prepends to what follows, so that no text is copied twice.
-/

set_option autoImplicit false

namespace DocAccess.Json

/-- A character as it stands inside a string. -/
def escape (c : Char) : List Char :=
  if c = '"' then ['\\', '"']
  else if c = '\\' then ['\\', '\\']
  else if c = '\x08' then ['\\', 'b']
  else if c = '\x0c' then ['\\', 'f']
  else if c = '\n' then ['\\', 'n']
  else if c = '\r' then ['\\', 'r']
  else if c = '\t' then ['\\', 't']
  else if c.toNat < 32 then
    ['\\', 'u', '0', '0', Hex.digit (c.toNat / 16), Hex.digit (c.toNat % 16)]
  else [c]

/-- The characters of a string and its closing quote, before `rest`. -/
def writeChars : List Char → List Char → List Char
  | [], rest => '"' :: rest
  | c :: chars, rest => escape c ++ writeChars chars rest

/-- A string in quotes, before `rest`. One without content is written empty. -/
def writeText (content : Option String) (rest : List Char) : List Char :=
  '"' :: writeChars (content.getD "").toList rest

mutual

/-- A value, before `rest`. -/
def writeValue : Json → List Char → List Char
  | .null, rest => 'n' :: 'u' :: 'l' :: 'l' :: rest
  | .bool true, rest => 't' :: 'r' :: 'u' :: 'e' :: rest
  | .bool false, rest => 'f' :: 'a' :: 'l' :: 's' :: 'e' :: rest
  | .number literal, rest => literal.toList ++ rest
  | .text content, rest => writeText content rest
  | .array [], rest => '[' :: ']' :: rest
  | .array (item :: items), rest => '[' :: writeValue item (writeItems items rest)
  | .object [], rest => '{' :: '}' :: rest
  | .object ((name, value) :: members), rest =>
      '{' :: writeText name (':' :: writeValue value (writeMembers members rest))

/-- The items after the first and the closing bracket, before `rest`. -/
def writeItems : List Json → List Char → List Char
  | [], rest => ']' :: rest
  | item :: items, rest => ',' :: writeValue item (writeItems items rest)

/-- The members after the first and the closing brace, before `rest`. -/
def writeMembers : List (Option String × Json) → List Char → List Char
  | [], rest => '}' :: rest
  | (name, value) :: members, rest =>
      ',' :: writeText name (':' :: writeValue value (writeMembers members rest))

end

def render (value : Json) : String :=
  String.ofList (writeValue value [])

end DocAccess.Json
