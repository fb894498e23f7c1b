/-!
# Hexadecimal text

Bytes written as two lowercase digits each. Reading takes digits of either
case, so it inverts writing but does not pin the spelling.
-/

set_option autoImplicit false

namespace DocAccess.Hex

/-- The lowercase digit of a value below sixteen. -/
def digit (value : Nat) : Char :=
  if value < 10 then Char.ofNat (48 + value) else Char.ofNat (87 + value)

/-- The value of a digit in either case. -/
def value? (c : Char) : Option Nat :=
  if '0' ≤ c ∧ c ≤ '9' then some (c.toNat - 48)
  else if 'a' ≤ c ∧ c ≤ 'f' then some (c.toNat - 87)
  else if 'A' ≤ c ∧ c ≤ 'F' then some (c.toNat - 55)
  else none

/-- The two digits of one byte, high half first. -/
def ofByte (byte : UInt8) : List Char :=
  [digit (byte.toNat / 16), digit (byte.toNat % 16)]

def encode (bytes : List UInt8) : List Char :=
  bytes.flatMap ofByte

/-- The bytes written as a run of digits; an odd run or a foreign character
is refused. -/
def decode? : List Char → Option (List UInt8)
  | [] => some []
  | [_] => none
  | high :: low :: rest => do
      let upper ← value? high
      let lower ← value? low
      let tail ← decode? rest
      return UInt8.ofNat (16 * upper + lower) :: tail

theorem value?_digit {value : Nat} (small : value < 16) :
    value? (digit value) = some value := by
  have all : ∀ value, value < 16 → value? (digit value) = some value := by decide
  exact all value small

/-- What `encode` writes, `decode?` reads back, whatever the bytes. -/
theorem decode?_encode (bytes : List UInt8) : decode? (encode bytes) = some bytes := by
  induction bytes with
  | nil => rfl
  | cons byte rest ih =>
      have bound := byte.toNat_lt
      have high : byte.toNat / 16 < 16 := by omega
      have low : byte.toNat % 16 < 16 := by omega
      have whole : UInt8.ofNat (16 * (byte.toNat / 16) + byte.toNat % 16) = byte := by
        rw [show 16 * (byte.toNat / 16) + byte.toNat % 16 = byte.toNat by omega]
        exact UInt8.ofNat_toNat
      have tail : decode? (rest.flatMap ofByte) = some rest := ih
      simp only [encode, List.flatMap_cons, ofByte, List.cons_append, List.nil_append, decode?,
        value?_digit high, value?_digit low, tail, Option.bind_eq_bind, Option.bind_some, whole,
        Option.pure_def]

end DocAccess.Hex
