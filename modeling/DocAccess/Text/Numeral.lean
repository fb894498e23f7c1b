/-!
# Decimal numerals

Numbers written in base ten, and runs of digits read back. Writing a number
never gives a leading zero; writing it in a fixed width keeps the low digits.
-/

set_option autoImplicit false

namespace DocAccess.Numeral

/-- The digit of a value below ten. -/
def digit (value : Nat) : Char :=
  Char.ofNat (48 + value)

def isDigit (c : Char) : Bool :=
  '0' ≤ c && c ≤ '9'

def digitValue (c : Char) : Nat :=
  c.toNat - 48

/-- The value of a run of digits, most significant first. -/
def value (digits : List Char) : Nat :=
  digits.foldl (fun total c => 10 * total + digitValue c) 0

/-- The digits of a number, without leading zeros; zero is one digit. -/
def ofNat (n : Nat) : List Char :=
  if n < 10 then [digit n] else ofNat (n / 10) ++ [digit (n % 10)]
termination_by n
decreasing_by omega

/-- The lowest `width` digits of a number, zeros included. -/
def fixed : (width : Nat) → (n : Nat) → List Char
  | 0, _ => []
  | width + 1, n => fixed width (n / 10) ++ [digit (n % 10)]

/-- The digits of a number, filled with zeros on the left up to `width`. -/
def padded (width n : Nat) : List Char :=
  if (ofNat n).length ≤ width then fixed width n else ofNat n

/-- The digits of an integer, with a sign only when it is negative. -/
def ofInt : Int → List Char
  | .ofNat n => ofNat n
  | .negSucc n => '-' :: ofNat (n + 1)

def text (n : Nat) : String :=
  String.ofList (ofNat n)

def intText (n : Int) : String :=
  String.ofList (ofInt n)

/-- The longest run of digits at the front, at most `limit` of them, and what
follows it. -/
def takeDigits : (limit : Nat) → List Char → List Char × List Char
  | 0, rest => ([], rest)
  | _ + 1, [] => ([], [])
  | limit + 1, c :: rest =>
      if isDigit c then
        let (digits, tail) := takeDigits limit rest
        (c :: digits, tail)
      else ([], c :: rest)

/-- A number of one to `limit` digits at the front, and what follows it. -/
def read? (limit : Nat) (source : List Char) : Option (Nat × List Char) :=
  match takeDigits limit source with
  | ([], _) => none
  | (digits, rest) => some (value digits, rest)

/-- The number a whole text spells, with at most one plus sign in front. No
blank is allowed and at least one digit is required. -/
def unsigned? (source : List Char) : Option Nat :=
  let digits := match source with
    | '+' :: rest => rest
    | _ => source
  if digits.isEmpty then none
  else if digits.all isDigit then some (value digits)
  else none

/-- The integer a whole text spells: digits with an optional sign. -/
def signed? : List Char → Option Int
  | '-' :: digits =>
      if digits.isEmpty || !digits.all isDigit then none else some (-(value digits : Int))
  | source => (unsigned? source).map Int.ofNat

end DocAccess.Numeral
