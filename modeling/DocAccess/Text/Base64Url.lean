/-!
# Base64 with the URL-safe alphabet

Three bytes become four symbols, six bits each; one or two bytes left over
become two or three symbols whose unused low bits are zero. No padding is
written, and none is accepted: a text decodes only if it is the encoding of
the bytes it decodes to.

Texts are handled as bytes, because a refusal names the offset and the value
of the byte at fault.
-/

set_option autoImplicit false

namespace DocAccess.Base64Url

/-- Why a text is not an encoding. -/
inductive Fault where
  /-- A byte outside the alphabet, or a padding sign where no symbol may be missing. -/
  | invalidSymbol (byte : UInt8) (offset : Nat)
  /-- One symbol alone at the end, which holds less than a byte. -/
  | invalidLength (length : Nat)
  /-- A last symbol with bits beyond the last byte. -/
  | invalidLastSymbol (byte : UInt8) (offset : Nat)
  /-- Padding, which is never accepted. -/
  | invalidPadding
  deriving DecidableEq, Repr

def padding : UInt8 := 61

/-- The symbol of a value below sixty-four. -/
def symbol (value : Nat) : UInt8 :=
  if value < 26 then UInt8.ofNat (65 + value)
  else if value < 52 then UInt8.ofNat (71 + value)
  else if value < 62 then UInt8.ofNat (value - 4)
  else if value = 62 then 45
  else 95

/-- The value of a symbol. -/
def value? (byte : UInt8) : Option Nat :=
  let code := byte.toNat
  if 65 ≤ code ∧ code ≤ 90 then some (code - 65)
  else if 97 ≤ code ∧ code ≤ 122 then some (code - 71)
  else if 48 ≤ code ∧ code ≤ 57 then some (code + 4)
  else if code = 45 then some 62
  else if code = 95 then some 63
  else none

def encode : List UInt8 → List UInt8
  | [] => []
  | [a] => [symbol (a.toNat / 4), symbol (a.toNat % 4 * 16)]
  | [a, b] =>
      [symbol (a.toNat / 4), symbol (a.toNat % 4 * 16 + b.toNat / 16), symbol (b.toNat % 16 * 4)]
  | a :: b :: c :: rest =>
      symbol (a.toNat / 4) :: symbol (a.toNat % 4 * 16 + b.toNat / 16) ::
        symbol (b.toNat % 16 * 4 + c.toNat / 64) :: symbol (c.toNat % 64) :: encode rest

/-- The value of the symbol at an offset, or the fault it is. -/
def valueAt (byte : UInt8) (offset : Nat) : Except Fault Nat :=
  match value? byte with
  | some value => .ok value
  | none => .error (.invalidSymbol byte offset)

/-- What a scan of the last quad has found: the symbol values so far and the
offset of the first padding sign. -/
structure Tail where
  values : List Nat
  firstPadding : Option Nat

/-- Scans the last quad from its position `index` on; the quad starts at
`start`. Only its third and fourth bytes may be padding, and nothing but
padding may follow padding. -/
def scanTail (start : Nat) : (index : Nat) → List UInt8 → Tail → Except Fault Tail
  | _, [], found => .ok found
  | index, byte :: rest, found =>
      if byte = padding then
        if index < 2 then .error (.invalidSymbol padding (start + index))
        else scanTail start (index + 1) rest
          { found with firstPadding := found.firstPadding.or (some (start + index)) }
      else
        match found.firstPadding with
        | some offset => .error (.invalidSymbol padding offset)
        | none => do
            let value ← valueAt byte (start + index)
            scanTail start (index + 1) rest { found with values := found.values ++ [value] }

/-- The bytes of the last quad, which starts at `start` and holds one to four
bytes of text. -/
def decodeTail (start : Nat) (quad : List UInt8) : Except Fault (List UInt8) := do
  let found ← scanTail start 0 quad ⟨[], none⟩
  let last := quad.getD (found.values.length - 1) 0
  let fault := Fault.invalidLastSymbol last (start + found.values.length - 1)
  match found.values with
  | [] => .error (.invalidLength start)
  | [_] => .error (.invalidLength (start + 1))
  | [w, x] =>
      if found.firstPadding.isSome then .error .invalidPadding
      else if x % 16 ≠ 0 then .error fault
      else .ok [UInt8.ofNat (w * 4 + x / 16)]
  | [w, x, y] =>
      if found.firstPadding.isSome then .error .invalidPadding
      else if y % 4 ≠ 0 then .error fault
      else .ok [UInt8.ofNat (w * 4 + x / 16), UInt8.ofNat (x % 16 * 16 + y / 4)]
  | w :: x :: y :: z :: _ =>
      .ok [UInt8.ofNat (w * 4 + x / 16), UInt8.ofNat (x % 16 * 16 + y / 4),
        UInt8.ofNat (y % 4 * 64 + z)]

/-- The bytes of a text whose first byte is at `start`. Every quad but the
last must be four symbols. -/
def decodeFrom (start : Nat) : List UInt8 → Except Fault (List UInt8)
  | [] => .ok []
  | a :: b :: c :: d :: next :: rest => do
      let w ← valueAt a start
      let x ← valueAt b (start + 1)
      let y ← valueAt c (start + 2)
      let z ← valueAt d (start + 3)
      let tail ← decodeFrom (start + 4) (next :: rest)
      return UInt8.ofNat (w * 4 + x / 16) :: UInt8.ofNat (x % 16 * 16 + y / 4) ::
        UInt8.ofNat (y % 4 * 64 + z) :: tail
  | quad => decodeTail start quad

/-- The foreign byte that a text one byte too long ends in, if it does. It is
reported before any other fault. -/
def strayLast? (text : List UInt8) : Option Fault :=
  match text.getLast? with
  | some byte =>
      if text.length % 4 = 1 ∧ byte ≠ padding ∧ value? byte = none then
        some (.invalidSymbol byte (text.length - 1))
      else none
  | none => none

def decode (text : List UInt8) : Except Fault (List UInt8) :=
  match strayLast? text with
  | some fault => .error fault
  | none => decodeFrom 0 text

theorem value?_symbol {value : Nat} (small : value < 64) :
    value? (symbol value) = some value := by
  have all : ∀ value, value < 64 → value? (symbol value) = some value := by decide
  exact all value small

end DocAccess.Base64Url
