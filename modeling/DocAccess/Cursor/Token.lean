import DocAccess.Bytes
import DocAccess.Cursor
import DocAccess.Text.Base64Url

/-!
# Cursor tokens

The form in which a cursor travels. Twenty-six bytes hold a version, the sort
field, the time in whole microseconds as a signed big-endian word, and the
identifier; a token is their encoding in URL-safe base64 without padding. Bytes
and tokens are read strictly: whatever is accepted is what would be written.
-/

set_option autoImplicit false

namespace DocAccess

/-- Why a token or byte string is no cursor. -/
inductive TokenFault where
  | notBase64 (fault : Base64Url.Fault)
  | wrongLength (length : Nat)
  | unsupportedVersion (version : Nat)
  | badValue (error : ValueError)
  deriving DecidableEq, Repr

/-- The wording of each way in which a text is not base64. -/
def Base64Url.Fault.message : Base64Url.Fault → String
  | .invalidSymbol byte offset =>
      "Invalid symbol " ++ Numeral.text byte.toNat ++ ", offset " ++ Numeral.text offset ++ "."
  | .invalidLength length => "Invalid input length: " ++ Numeral.text length
  | .invalidLastSymbol byte offset =>
      "Invalid last symbol " ++ Numeral.text byte.toNat ++ ", offset " ++ Numeral.text offset ++ "."
  | .invalidPadding => "Invalid padding"

namespace Cursor

def version : Nat := 1

def byteLength : Nat := 26

end Cursor

def TokenFault.message : TokenFault → String
  | .notBase64 fault => fault.message
  | .wrongLength length =>
      "expected " ++ Numeral.text Cursor.byteLength ++ " bytes, got " ++ Numeral.text length
  | .unsupportedVersion version => "unsupported version " ++ Numeral.text version
  | .badValue error => error.message

namespace Cursor

/-- The number of words of 64 bits. -/
def wordCount : Int := 18446744073709551616

/-- The unsigned word with the same 64 bits as a signed number. -/
def wordOfInt (n : Int) : Nat :=
  (n % wordCount).toNat

/-- The signed number with the same 64 bits as an unsigned word. -/
def intOfWord (n : Nat) : Int :=
  if 2 * (n : Int) < wordCount then n else n - wordCount

/-- The byte layout of a cursor. Its time is rounded down to microseconds. -/
def toBytes (cursor : Cursor) : List UInt8 :=
  UInt8.ofNat version :: UInt8.ofNat cursor.sortField.code ::
    (bigEndian 8 (wordOfInt cursor.lastSeenTime.micros) ++ cursor.lastSeenId.bytes)

/-- Reads sort field, time and identifier, after the version. -/
def ofFields (sort : UInt8) (time id : List UInt8) : Except TokenFault Cursor := do
  let sortField ← (SortField.ofCode sort.toNat).mapError .badValue
  let lastSeenTime ← (Timestamp.ofMicros (intOfWord (ofBigEndian time))).mapError .badValue
  match Uuid.ofBytes? id with
  | some lastSeenId => return ⟨sortField, lastSeenTime, lastSeenId⟩
  | none => throw (.wrongLength (10 + id.length))

/-- The cursor of a byte layout, or the first fault in it. -/
def ofBytes (bytes : List UInt8) : Except TokenFault Cursor :=
  match bytes with
  | first :: sort :: rest =>
      if bytes.length ≠ byteLength then .error (.wrongLength bytes.length)
      else if first.toNat ≠ version then .error (.unsupportedVersion first.toNat)
      else ofFields sort (rest.take 8) (rest.drop 8)
  | _ => .error (.wrongLength bytes.length)

def toToken (cursor : Cursor) : String :=
  String.ofList ((Base64Url.encode cursor.toBytes).map fun byte => Char.ofNat byte.toNat)

/-- The cursor of a token, or the first fault in it. -/
def ofToken (token : String) : Except TokenFault Cursor := do
  let bytes ← (Base64Url.decode (token.toList.flatMap String.utf8EncodeChar)).mapError .notBase64
  ofBytes bytes

/-- The error that callers see for a faulty token. -/
def malformed (fault : TokenFault) : ValueError :=
  .malformedCursor fault.message

end Cursor
end DocAccess
