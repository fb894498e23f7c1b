import DocAccess.Uuid
import DocAccess.Text.Hex

/-!
# Text forms of identifiers

An identifier is written as lowercase digits in groups of eight, four, four,
four and twelve, joined by hyphens. It is read from that form, from thirty-two
bare digits, from the grouped form in braces and from the grouped form after
the mark of the name space; digits and mark may be in any case. Nothing else,
no blank in particular, is read.
-/

set_option autoImplicit false

namespace DocAccess.Uuid

/-- The number of digits in each group of the written form. -/
def groups : List Nat := [8, 4, 4, 4, 12]

/-- The mark that may stand before the grouped form, in lowercase. -/
def nameSpaceMark : List Char := "urn:uuid:".toList

/-- The digits in groups, with a hyphen between two groups. -/
def joinGroups : List Nat → List Char → List Char
  | [], _ => []
  | [_], digits => digits
  | size :: sizes, digits =>
      digits.take size ++ '-' :: joinGroups sizes (digits.drop size)

/-- The digits of a grouped form without its hyphens; each must stand exactly
between two groups. -/
def splitGroups? : List Nat → List Char → Option (List Char)
  | [], rest => if rest.isEmpty then some [] else none
  | [size], rest => if rest.length = size then some rest else none
  | size :: sizes, rest =>
      match rest.drop size with
      | '-' :: tail =>
          if (rest.take size).length = size then
            (splitGroups? sizes tail).map (rest.take size ++ ·)
          else none
      | _ => none

def chars (id : Uuid) : List Char :=
  joinGroups groups (Hex.encode id.bytes)

def text (id : Uuid) : String :=
  String.ofList id.chars

/-- The identifier a run of thirty-two digits spells. -/
def ofDigits? (digits : List Char) : Option Uuid := do
  let bytes ← Hex.decode? digits
  ofBytes? bytes

/-- The identifier a grouped form spells. -/
def ofGroups? (source : List Char) : Option Uuid := do
  let digits ← splitGroups? groups source
  ofDigits? digits

/-- The identifier that any accepted form spells; the length of the text tells
which form it can be. -/
def ofChars? (source : List Char) : Option Uuid :=
  match source.length with
  | 32 => ofDigits? source
  | 36 => ofGroups? source
  | 38 =>
      if source.head? = some '{' ∧ source.getLast? = some '}' then
        ofGroups? (source.drop 1).dropLast
      else none
  | 45 =>
      if (source.take 9).map Char.toLower = nameSpaceMark then ofGroups? (source.drop 9)
      else none
  | _ => none

def ofText? (source : String) : Option Uuid :=
  ofChars? source.toList

end DocAccess.Uuid
