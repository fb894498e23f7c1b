import DocAccess.Bytes
import DocAccess.Order

/-!
# Universally unique identifiers

An identifier is sixteen bytes, ordered bytewise. Drawn identifiers carry the
version and variant bits of version 4; given identifiers need not.
-/

set_option autoImplicit false

namespace DocAccess

/-- A 128-bit identifier, as its bytes in network order. -/
structure Uuid where
  bytes : List UInt8
  length_eq : bytes.length = 16
  deriving DecidableEq

namespace Uuid

/-- The identifier whose bits are the lowest 128 of a number. -/
def ofNat (n : Nat) : Uuid :=
  ⟨bigEndian 16 n, length_bigEndian 16 n⟩

def zero : Uuid :=
  ⟨List.replicate 16 0, rfl⟩

/-- The identifier with every bit set, above which there is none. -/
def max : Uuid :=
  ⟨List.replicate 16 255, rfl⟩

/-- The identifier a byte string spells, if it has the right length. -/
def ofBytes? (bytes : List UInt8) : Option Uuid :=
  if length_eq : bytes.length = 16 then some ⟨bytes, length_eq⟩ else none

/-- The identifier with the version and variant bits of a random (version 4)
identifier; its other 122 bits are kept. -/
def asRandom (id : Uuid) : Uuid where
  bytes := (id.bytes.modify 6 fun byte => UInt8.ofNat (byte.toNat % 16 + 64)).modify 8
    fun byte => UInt8.ofNat (byte.toNat % 64 + 128)
  length_eq := by simp [id.length_eq]

instance : Inhabited Uuid := ⟨zero⟩

instance : Ord Uuid := ⟨compareOn bytes⟩

instance : Std.TransOrd Uuid := inferInstanceAs (Std.TransCmp (compareOn bytes))

instance : Std.LawfulEqOrd Uuid :=
  lawfulEqCmp_compareOn bytes fun a b same => by cases a; cases b; simp_all

theorem compare_eq (a b : Uuid) : compare a b = compare a.bytes b.bytes := rfl

def before (a b : Uuid) : Bool :=
  compare a b == .lt

@[simp]
theorem ofBytes?_bytes (id : Uuid) : ofBytes? id.bytes = some id := by
  simp [ofBytes?, id.length_eq]

theorem bytes_of_ofBytes? {bytes : List UInt8} {id : Uuid}
    (read : ofBytes? bytes = some id) : id.bytes = bytes := by
  unfold ofBytes? at read
  split at read
  · cases read; rfl
  · cases read

end Uuid
end DocAccess
