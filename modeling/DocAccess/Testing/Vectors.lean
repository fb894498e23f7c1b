import DocAccess.Cursor.Token
import DocAccess.Text.Hex
import DocAccess.Uuid.Text

/-!
# Token vectors

Cursors with the bytes and tokens they must be written as. Tokens are kept by
clients and come back later, so their form is fixed.
-/

set_option autoImplicit false

namespace DocAccess.Testing

/-- A cursor and its fixed forms. -/
structure CursorVector where
  name : String
  sortField : SortField
  micros : Int
  id : Uuid
  expectedHex : String
  expectedToken : String

namespace CursorVector

def all : List CursorVector := [
  { name := "epoch with nil id"
    sortField := .createdAt
    micros := 0
    id := Uuid.zero
    expectedHex := "0100000000000000000000000000000000000000000000000000"
    expectedToken := "AQAAAAAAAAAAAAAAAAAAAAAAAAAAAAAAAAA" },
  { name := "last modified at 2025-01-14T16:00:00Z"
    sortField := .lastModifiedAt
    micros := 1736870400000000
    id := Uuid.ofNat 0x42424242424242424242424242424242
    expectedHex := "010100062baca736800042424242424242424242424242424242"
    expectedToken := "AQEABiuspzaAAEJCQkJCQkJCQkJCQkJCQkI" },
  { name := "pre-epoch with max id"
    sortField := .createdAt
    micros := -1
    id := Uuid.max
    expectedHex := "0100ffffffffffffffffffffffffffffffffffffffffffffffff"
    expectedToken := "AQD_______________________________8" },
  { name := "sub-second time"
    sortField := .lastModifiedAt
    micros := 1700000000123456
    id := Uuid.ofNat 0x0123456789abcdef0123456789abcdef
    expectedHex := "010100060a24182022400123456789abcdef0123456789abcdef"
    expectedToken := "AQEABgokGCAiQAEjRWeJq83vASNFZ4mrze8" }]

/-- The cursor of a vector, if its time is one. -/
def cursor? (vector : CursorVector) : Option Cursor :=
  (Timestamp.atMicros? vector.micros).map fun time => ⟨vector.sortField, time, vector.id⟩

/-- Whether a cursor has the forms of a vector. -/
def isMatchedBy (vector : CursorVector) (cursor : Cursor) : Bool :=
  String.ofList (Hex.encode cursor.toBytes) = vector.expectedHex &&
    cursor.toToken = vector.expectedToken

end CursorVector

structure VectorVerdict where
  vector : CursorVector
  isMatch : Bool
  token : String

/-- The verdicts on all vectors whose time is one. -/
def verifyAllVectors : List VectorVerdict :=
  CursorVector.all.filterMap fun vector =>
    vector.cursor?.map fun cursor => ⟨vector, vector.isMatchedBy cursor, cursor.toToken⟩

end DocAccess.Testing
