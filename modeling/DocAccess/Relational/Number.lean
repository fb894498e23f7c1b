/-!
# Numbers in tables

A number is an integer of 64 bits or a real number. A real number has 53 binary
digits; all real numbers are whole multiples of the least positive one, and are
counted in it. A number too great to be told from others is infinite.

Numbers that become real ones are worked out with 64 binary digits: every product is
rounded to so many, and only the last result to 53.
-/

set_option autoImplicit false

namespace DocAccess.Relational

/-- Whether a cell can hold an integer. -/
def fitsWord (value : Int) : Bool :=
  -9223372036854775808 ≤ value && value ≤ 9223372036854775807

/-- The integer nearest to a quotient; of two, the even one. -/
def roundQuotient (numerator denominator : Nat) : Nat :=
  let whole := numerator / denominator
  let rest := numerator % denominator
  if 2 * rest < denominator then whole
  else if denominator < 2 * rest then whole + 1
  else whole + whole % 2

/-- An exact quotient stays as it is. -/
@[simp]
theorem roundQuotient_mul (quotient : Nat) {denominator : Nat} (positive : 0 < denominator) :
    roundQuotient (quotient * denominator) denominator = quotient := by
  simp [roundQuotient, Nat.mul_div_cancel _ positive, positive]

/-- A rounded quotient is off by at most a half. -/
theorem roundQuotient_error {denominator : Nat} (numerator : Nat) (positive : 0 < denominator) :
    2 * roundQuotient numerator denominator * denominator ≤ 2 * numerator + denominator ∧
      2 * numerator ≤ 2 * roundQuotient numerator denominator * denominator + denominator := by
  have parts := Nat.div_add_mod numerator denominator
  have small := Nat.mod_lt numerator positive
  have parity : numerator / denominator % 2 = 0 ∨ numerator / denominator % 2 = 1 := by omega
  have below : 2 * (numerator / denominator) * denominator =
      2 * (denominator * (numerator / denominator)) := by
    rw [Nat.mul_assoc, Nat.mul_comm denominator]
  have above : 2 * (numerator / denominator + 1) * denominator =
      2 * (denominator * (numerator / denominator)) + 2 * denominator := by
    rw [Nat.mul_add, Nat.add_mul, below]
  unfold roundQuotient
  simp only
  split
  · omega
  split
  · omega
  rcases parity with even | odd
  · rw [even, Nat.add_zero]
    omega
  · rw [odd]
    omega

/-- A number in binary: its significant digits and the power of two that scales them. -/
structure Binary where
  significand : Nat
  exponent : Int
  deriving DecidableEq, Repr

namespace Binary

/-- The nearest number of 64 binary digits. -/
def round (number : Binary) : Binary :=
  let surplus := Nat.log2 number.significand - 63
  ⟨roundQuotient number.significand (Nat.pow 2 surplus), number.exponent + surplus⟩

/-- The product, rounded. -/
def mul (a b : Binary) : Binary :=
  round ⟨a.significand * b.significand, a.exponent + b.exponent⟩

/-- A power of ten, rounded. -/
def power (n : Nat) : Binary :=
  round ⟨Nat.pow 10 n, 0⟩

/-- The inverse of a power of ten, rounded. -/
def inversePower (n : Nat) : Binary :=
  let places := Nat.log2 (Nat.pow 10 n) + 64
  ⟨roundQuotient (Nat.pow 2 places) (Nat.pow 10 n), -(places : Int)⟩

/-- A number after as many steps as given, each a product with a factor that depends on
how many steps it stands for: a hundred, ten or one. -/
def scaleBySteps (factor : Nat → Binary) (steps : Nat) (number : Binary) : Binary :=
  Nat.repeat (mul (factor 1)) (steps % 10)
    (Nat.repeat (mul (factor 10)) (steps % 100 / 10)
      (Nat.repeat (mul (factor 100)) (steps / 100) number))

/-- A number times a power of ten. -/
def scale (number : Binary) : (exponent : Int) → Binary
  | .ofNat steps => scaleBySteps power steps number
  | .negSucc less => scaleBySteps inversePower (less + 1) number

end Binary

/-- A number as a cell keeps it; a real number by how many of the least positive
one it is. -/
inductive Number where
  | integer (value : Int)
  | real (units : Int)
  deriving DecidableEq, Repr

namespace Number

/-- How many of the least positive real number make one. -/
def unitsPerOne : Nat := Nat.pow 2 1074

/-- The units of the greatest real number. -/
def greatest : Nat := (Nat.pow 2 53 - 1) * Nat.pow 2 2045

/-- What stands for an infinite number: the least number that is too great, in
units. -/
def infinity : Nat := Nat.pow 2 2098

/-- The units of the real number nearest to a number in binary. All numbers above the
greatest real number are infinite. -/
def realUnits (number : Binary) : Nat :=
  let scaled := number.significand * Nat.pow 2 (number.exponent + 1074).toNat
  let divisor := Nat.pow 2 (-(number.exponent + 1074)).toNat
  if greatest * divisor < scaled then infinity
  else
    let step := Nat.pow 2 (Nat.log2 (scaled / divisor) - 52)
    roundQuotient scaled (divisor * step) * step

/-- The number that a real number is kept as: an integer if it is whole and lies
within the range of integers, the least and the greatest left out. -/
def ofReal (units : Int) : Number :=
  let whole := units / unitsPerOne
  if units % unitsPerOne = 0 ∧ -9223372036854775808 < whole ∧ whole < 9223372036854775807 then
    .integer whole
  else .real units

end Number
end DocAccess.Relational
