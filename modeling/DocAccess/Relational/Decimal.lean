import DocAccess.Relational.Number
import DocAccess.Text.Numeral

/-!
# Numbers as text

A text spells a number if it is a decimal numeral: digits with at most one point,
a sign and an exponent if need be, and blanks around it. It stands for the integer
that it names if there is one, and for a real number otherwise.

Of the digits only the first nineteen or twenty count towards a real number; what is
left out is as good as zero. They are then scaled by their power of ten with 64 binary
digits, so that a numeral just beside the middle of two real numbers may be taken for
the middle itself.
-/

set_option autoImplicit false

namespace DocAccess.Relational

/-- A decimal numeral. -/
structure Decimal where
  isNegative : Bool
  /-- All its digits, those before the point and those after it. -/
  digits : List Char
  /-- The power of ten by which the digits are scaled. -/
  exponent : Int
  /-- Whether it has neither a point nor an exponent. -/
  isPlain : Bool
  deriving DecidableEq, Repr

namespace Decimal

/-- Blanks that may surround a numeral. -/
def isBlank (c : Char) : Bool :=
  c = ' ' || (9 ≤ c.toNat && c.toNat ≤ 13)

/-- A sign, if there is one: whether it is a minus sign, and what follows. -/
def readSign : List Char → Bool × List Char
  | '-' :: rest => (true, rest)
  | '+' :: rest => (false, rest)
  | rest => (false, rest)

/-- The fraction after a point, none without a point. -/
def readFraction : List Char → Option (List Char) × List Char
  | '.' :: rest => (some (rest.takeWhile Numeral.isDigit), rest.dropWhile Numeral.isDigit)
  | rest => (none, rest)

/-- The value of the digits of an exponent. Every digit that follows on ten thousand or
more makes it ten thousand again. -/
def exponentValue (digits : List Char) : Nat :=
  digits.foldl
    (fun total c => if total < 10000 then 10 * total + Numeral.digitValue c else 10000) 0

/-- The exponent after its letter, none without a letter; a letter needs digits. -/
def readExponent? : List Char → Option (Option Int × List Char)
  | [] => some (none, [])
  | c :: rest =>
      if c = 'e' ∨ c = 'E' then
        let (isNegative, rest) := readSign rest
        match rest.takeWhile Numeral.isDigit with
        | [] => none
        | digits =>
            let value : Int := exponentValue digits
            some (some (if isNegative then -value else value), rest.dropWhile Numeral.isDigit)
      else some (none, c :: rest)

/-- The numeral that a whole text is. It has a digit before or after its point. -/
def ofChars? (source : List Char) : Option Decimal := do
  let (isNegative, rest) := readSign (source.dropWhile isBlank)
  let whole := rest.takeWhile Numeral.isDigit
  let (fraction, rest) := readFraction (rest.dropWhile Numeral.isDigit)
  let digits := whole ++ fraction.getD []
  let (exponent, rest) ← readExponent? rest
  if digits.isEmpty || !rest.all isBlank then none
  else some {
    isNegative := isNegative
    digits := digits
    exponent := exponent.getD 0 - ((fraction.getD []).length : Int)
    isPlain := fraction.isNone && exponent.isNone }

/-- The value of the first digits, as many as a word of 64 bits can hold whatever they
are, and how many digits are left out. -/
def leading : (digits : List Char) → (value : Nat) → Nat × Nat
  | [], value => (value, 0)
  | c :: rest, value =>
      if value < 1844674407370955160 then leading rest (10 * value + Numeral.digitValue c)
      else (value, rest.length + 1)

/-- A value into which powers of ten are taken while a word of 64 bits holds it, and the
powers that remain. -/
def takePowers : (value powers : Nat) → Nat × Nat
  | value, 0 => (value, 0)
  | value, powers + 1 =>
      if value < 1844674407370955161 then takePowers (10 * value) powers else (value, powers + 1)

/-- A value from which powers of ten are taken out while it stays whole, and the powers
that remain. -/
def dropPowers : (value powers : Nat) → Nat × Nat
  | value, 0 => (value, 0)
  | value, powers + 1 =>
      if value % 10 = 0 then dropPowers (value / 10) powers else (value, powers + 1)

/-- The number that a numeral's first digits make, its sign left aside. -/
def binary (numeral : Decimal) : Binary :=
  let (value, omitted) := leading numeral.digits 0
  match numeral.exponent + omitted with
  | .ofNat powers =>
      let (value, powers) := takePowers value powers
      Binary.scale ⟨value, 0⟩ powers
  | .negSucc less =>
      let (value, powers) := dropPowers value (less + 1)
      Binary.scale ⟨value, 0⟩ (-(powers : Int))

/-- The number that a numeral stands for. A plain one that names an integer is that
integer. -/
def number (numeral : Decimal) : Number :=
  let signed (value : Nat) : Int := if numeral.isNegative then -value else value
  let named := signed (Numeral.value numeral.digits)
  if numeral.isPlain && fitsWord named then .integer named
  else Number.ofReal (signed (Number.realUnits numeral.binary))

end Decimal

/-- The number that a text spells. -/
def Number.ofText? (source : String) : Option Number :=
  (Decimal.ofChars? source.toList).map Decimal.number

end DocAccess.Relational
