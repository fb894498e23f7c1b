/-!
# Big-endian words

Numbers as byte strings of a fixed width, most significant byte first.
-/

set_option autoImplicit false

namespace DocAccess

/-- The lowest `width` bytes of a number, most significant first. -/
def bigEndian : (width : Nat) → (n : Nat) → List UInt8
  | 0, _ => []
  | width + 1, n => bigEndian width (n / 256) ++ [UInt8.ofNat (n % 256)]

/-- The number that a byte string spells, most significant byte first. -/
def ofBigEndian (bytes : List UInt8) : Nat :=
  bytes.foldl (fun total byte => 256 * total + byte.toNat) 0

@[simp]
theorem length_bigEndian (width n : Nat) : (bigEndian width n).length = width := by
  induction width generalizing n with
  | zero => rfl
  | succ width ih => simp [bigEndian, ih]

/-- Reading gives back the number up to the width that was kept. -/
theorem ofBigEndian_bigEndian (width n : Nat) :
    ofBigEndian (bigEndian width n) = n % Nat.pow 256 width := by
  induction width generalizing n with
  | zero => simp [bigEndian, ofBigEndian, Nat.pow, Nat.mod_one]
  | succ width ih =>
      have step := ih (n / 256)
      simp only [ofBigEndian] at step
      simp only [bigEndian, ofBigEndian, List.foldl_append, List.foldl_cons, List.foldl_nil, step]
      have low : (UInt8.ofNat (n % 256)).toNat = n % 256 := by
        simp
      have grown : Nat.pow 256 (width + 1) = 256 * Nat.pow 256 width := Nat.mul_comm _ _
      rw [low, grown, Nat.mod_mul]
      omega

end DocAccess
