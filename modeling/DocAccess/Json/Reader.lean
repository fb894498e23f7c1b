import DocAccess.Json.Value
import DocAccess.Text.Hex

/-!
# Reading JSON

A strict reader of whole texts: no comments, no trailing commas and nothing but
blanks around the value. Arrays and objects may stand in each other as deep as
they like. Every function returns what it read and what follows.
-/

set_option autoImplicit false

namespace DocAccess.Json

def isSpace (c : Char) : Bool :=
  c = ' ' || c = '\t' || c = '\n' || c = '\r'

def skipSpace (source : List Char) : List Char :=
  source.dropWhile isSpace

/-- A part of a string: a character, or the code unit of a numeric escape. -/
inductive Piece where
  | char (c : Char)
  | unit (code : Nat)
  deriving DecidableEq, Repr

def unit? (a b c d : Char) : Option Nat := do
  let a ← Hex.value? a
  let b ← Hex.value? b
  let c ← Hex.value? c
  let d ← Hex.value? d
  return ((a * 16 + b) * 16 + c) * 16 + d

/-- The character that a one-letter escape stands for. -/
def unescape? : Char → Option Char
  | '"' => some '"'
  | '\\' => some '\\'
  | '/' => some '/'
  | 'b' => some '\x08'
  | 'f' => some '\x0c'
  | 'n' => some '\n'
  | 'r' => some '\r'
  | 't' => some '\t'
  | _ => none

/-- The parts of a string up to its closing quote. -/
def readPieces? : List Char → Option (List Piece × List Char)
  | [] => none
  | '"' :: rest => some ([], rest)
  | '\\' :: 'u' :: a :: b :: c :: d :: rest => do
      let code ← unit? a b c d
      let (pieces, tail) ← readPieces? rest
      return (.unit code :: pieces, tail)
  | '\\' :: letter :: rest => do
      let c ← unescape? letter
      let (pieces, tail) ← readPieces? rest
      return (.char c :: pieces, tail)
  | c :: rest =>
      if c.toNat < 32 || c = '\\' then none
      else do
        let (pieces, tail) ← readPieces? rest
        return (.char c :: pieces, tail)

/-- The characters that parts spell. Code units in the surrogate range must
come in pairs, high before low. -/
def joinPieces? : List Piece → Option (List Char)
  | [] => some []
  | .char c :: pieces => (joinPieces? pieces).map (c :: ·)
  | .unit high :: .unit low :: pieces =>
      if 0xD800 ≤ high ∧ high < 0xDC00 then
        if 0xDC00 ≤ low ∧ low < 0xE000 then
          (joinPieces? pieces).map
            (Char.ofNat (0x10000 + (high - 0xD800) * 0x400 + (low - 0xDC00)) :: ·)
        else none
      else if 0xDC00 ≤ high ∧ high < 0xE000 then none
      else (joinPieces? (.unit low :: pieces)).map (Char.ofNat high :: ·)
  | .unit code :: pieces =>
      if 0xD800 ≤ code ∧ code < 0xE000 then none
      else (joinPieces? pieces).map (Char.ofNat code :: ·)

/-- A string after its opening quote. -/
def readText? (source : List Char) : Option (Option String × List Char) := do
  let (pieces, rest) ← readPieces? source
  return ((joinPieces? pieces).map String.ofList, rest)

/-- The longest run of digits in front. -/
def spanDigits (source : List Char) : List Char × List Char :=
  (source.takeWhile Numeral.isDigit, source.dropWhile Numeral.isDigit)

/-- The integer part of a number: a zero alone, or digits that start with
another. -/
def readWhole? (source : List Char) : Option (List Char × List Char) :=
  match source with
  | '0' :: rest => some (['0'], rest)
  | _ =>
      match spanDigits source with
      | ([], _) => none
      | (digits, rest) => some (digits, rest)

/-- The fraction of a number, if there is one. -/
def readFraction? : List Char → Option (List Char × List Char)
  | '.' :: rest =>
      match spanDigits rest with
      | ([], _) => none
      | (digits, tail) => some ('.' :: digits, tail)
  | rest => some ([], rest)

/-- The sign of an exponent, if there is one. -/
def readSign : List Char → List Char × List Char
  | '+' :: rest => (['+'], rest)
  | '-' :: rest => (['-'], rest)
  | rest => ([], rest)

/-- The exponent of a number, if there is one. -/
def readExponent? : List Char → Option (List Char × List Char)
  | [] => some ([], [])
  | c :: rest =>
      if c = 'e' ∨ c = 'E' then
        let (sign, tail) := readSign rest
        match spanDigits tail with
        | ([], _) => none
        | (digits, tail) => some (c :: (sign ++ digits), tail)
      else some ([], c :: rest)

/-- A number, by its characters. -/
def readNumber? (source : List Char) : Option (Json × List Char) := do
  let (sign, rest) := match source with
    | '-' :: rest => (['-'], rest)
    | _ => ([], source)
  let (whole, rest) ← readWhole? rest
  let (fraction, rest) ← readFraction? rest
  let (exponent, rest) ← readExponent? rest
  return (.number (String.ofList (sign ++ whole ++ fraction ++ exponent)), rest)

mutual

/-- A value after any blanks. `fuel` bounds the calls. -/
def readValue? : (fuel : Nat) → List Char → Option (Json × List Char)
  | 0, _ => none
  | fuel + 1, source =>
      match skipSpace source with
      | 'n' :: 'u' :: 'l' :: 'l' :: rest => some (.null, rest)
      | 't' :: 'r' :: 'u' :: 'e' :: rest => some (.bool true, rest)
      | 'f' :: 'a' :: 'l' :: 's' :: 'e' :: rest => some (.bool false, rest)
      | '"' :: rest => (readText? rest).map fun (content, tail) => (.text content, tail)
      | '[' :: rest =>
          match skipSpace rest with
          | ']' :: tail => some (.array [], tail)
          | _ => (readItems? fuel rest).map fun (items, tail) => (.array items, tail)
      | '{' :: rest =>
          match skipSpace rest with
          | '}' :: tail => some (.object [], tail)
          | _ => (readMembers? fuel rest).map fun (members, tail) => (.object members, tail)
      | rest => readNumber? rest

/-- One or more items and the closing bracket. -/
def readItems? : (fuel : Nat) → List Char → Option (List Json × List Char)
  | 0, _ => none
  | fuel + 1, source => do
      let (item, rest) ← readValue? fuel source
      match skipSpace rest with
      | ',' :: rest =>
          let (items, tail) ← readItems? fuel rest
          return (item :: items, tail)
      | ']' :: tail => return ([item], tail)
      | _ => none

/-- One or more members and the closing brace. -/
def readMembers? : (fuel : Nat) → List Char → Option (List (Option String × Json) × List Char)
  | 0, _ => none
  | fuel + 1, source =>
      match skipSpace source with
      | '"' :: rest => do
          let (name, rest) ← readText? rest
          match skipSpace rest with
          | ':' :: rest =>
              let (value, rest) ← readValue? fuel rest
              match skipSpace rest with
              | ',' :: rest =>
                  let (members, tail) ← readMembers? fuel rest
                  return ((name, value) :: members, tail)
              | '}' :: tail => return ([(name, value)], tail)
              | _ => none
          | _ => none
      | _ => none

end

/-- The value of a whole text. Two calls for each character suffice. -/
def parseChars? (source : List Char) : Option Json :=
  match readValue? (2 * source.length + 2) source with
  | some (value, rest) => if (skipSpace rest).isEmpty then some value else none
  | none => none

/-- The value of a whole text, given as a string. -/
def parse? (source : String) : Option Json :=
  parseChars? source.toList

end DocAccess.Json
