import DocAccess.Proofs.Cursor.Layout
import DocAccess.Service

/-!
# Tokens stand for cursors

A cursor in whole microseconds has one token and one byte layout, and nothing else is read
as that cursor: a reader that accepts a form returns the cursor the form was written for.
Every other text or byte string is malformed, whatever is wrong with it.
-/

set_option autoImplicit false

namespace DocAccess

/-! ## Texts and their bytes -/

private theorem flatMap_utf8_inj {text other : String}
    (same : text.toList.flatMap String.utf8EncodeChar =
      other.toList.flatMap String.utf8EncodeChar) : text = other := by
  have encoded : List.utf8Encode text.toList = List.utf8Encode other.toList := by
    rw [List.utf8Encode, List.utf8Encode, same]
  rwa [← String.toByteArray_ofList, ← String.toByteArray_ofList, String.ofList_toList,
    String.ofList_toList, String.toByteArray_inj] at encoded

/-- The characters that stand for themselves in a part of an address. -/
def isUrlSafe (char : Char) : Bool :=
  char.isAlphanum || char = '-' || char = '_'

namespace Base64Url

theorem symbol_char {value : Nat} (small : value < 64) :
    isUrlSafe (Char.ofNat (symbol value).toNat) = true ∧
      String.utf8EncodeChar (Char.ofNat (symbol value).toNat) = [symbol value] := by
  have every : ∀ value : Fin 64, isUrlSafe (Char.ofNat (symbol value).toNat) = true ∧
      String.utf8EncodeChar (Char.ofNat (symbol value).toNat) = [symbol value] := by decide
  exact every ⟨value, small⟩

private theorem isUrlSafe_of_mem_encode {bytes : List UInt8} {byte : UInt8}
    (member : byte ∈ encode bytes) : isUrlSafe (Char.ofNat byte.toNat) = true := by
  obtain ⟨value, small, rfl⟩ := exists_symbol_of_mem_encode member
  exact (symbol_char small).1

private theorem flatMap_utf8_encode (bytes : List UInt8) :
    ((encode bytes).map fun byte => Char.ofNat byte.toNat).flatMap String.utf8EncodeChar =
      encode bytes := by
  have each : ∀ byte ∈ encode bytes, String.utf8EncodeChar (Char.ofNat byte.toNat) = [byte] := by
    intro byte member
    obtain ⟨value, small, rfl⟩ := exists_symbol_of_mem_encode member
    exact (symbol_char small).2
  generalize encode bytes = text at each ⊢
  induction text with
  | nil => rfl
  | cons byte rest ih =>
      obtain ⟨first, others⟩ := List.forall_mem_cons.1 each
      rw [List.map_cons, List.flatMap_cons, first, ih others]
      rfl

end Base64Url

/-! ## Reading -/

namespace Cursor

/-- Reads a byte layout as callers see it. -/
def readBytes (bytes : List UInt8) : Except ValueError Cursor :=
  (ofBytes bytes).mapError malformed

/-- Reads a token as callers see it. -/
def readToken (token : String) : Except ValueError Cursor :=
  (ofToken token).mapError malformed

theorem readBytes_eq_ok_iff {bytes : List UInt8} {cursor : Cursor} :
    readBytes bytes = .ok cursor ↔
      cursor.lastSeenTime.isWhole = true ∧ cursor.toBytes = bytes := by
  rw [readBytes, mapError_eq_ok_iff]
  constructor
  · exact toBytes_of_ofBytes
  · intro given
    obtain ⟨whole, rfl⟩ := given
    rw [ofBytes_toBytes, truncate, (Timestamp.truncate_eq_self_iff _).2 whole]

private theorem utf8_toToken (cursor : Cursor) :
    cursor.toToken.toList.flatMap String.utf8EncodeChar = Base64Url.encode cursor.toBytes := by
  rw [toToken, String.toList_ofList, Base64Url.flatMap_utf8_encode]

theorem readToken_eq_ok_iff {token : String} {cursor : Cursor} :
    readToken token = .ok cursor ↔
      cursor.lastSeenTime.isWhole = true ∧ cursor.toToken = token := by
  have spelled : cursor.toToken = token ↔
      Base64Url.encode cursor.toBytes = token.toList.flatMap String.utf8EncodeChar := by
    rw [← utf8_toToken]
    constructor
    · rintro rfl
      rfl
    · exact flatMap_utf8_inj
  simp only [readToken, ofToken, mapError_eq_ok_iff, bind, except_bind_eq_ok_iff,
    Base64Url.decode_eq_ok_iff, spelled]
  constructor
  · intro given
    obtain ⟨bytes, encoded, read⟩ := given
    obtain ⟨whole, rfl⟩ := toBytes_of_ofBytes read
    exact ⟨whole, encoded⟩
  · intro given
    obtain ⟨whole, encoded⟩ := given
    exact ⟨cursor.toBytes, encoded,
      mapError_eq_ok_iff.1 (readBytes_eq_ok_iff.2 ⟨whole, rfl⟩)⟩

/-! ## Exactness -/

/-- Cursors in whole microseconds and the accepted forms stand for one another. The other
cursors are written as what they round down to, and the other forms are malformed. -/
structure ExactForm {Form : Type} (write : Cursor → Form)
    (read : Form → Except ValueError Cursor) : Prop where
  read_write (cursor : Cursor) : read (write cursor) = .ok cursor.truncate
  restored_iff (cursor : Cursor) :
    read (write cursor) = .ok cursor ↔ cursor.lastSeenTime.isWhole = true
  accepted_iff (form : Form) (cursor : Cursor) :
    read form = .ok cursor ↔ cursor.lastSeenTime.isWhole = true ∧ write cursor = form
  accepted_or_malformed (form : Form) :
    (∃ cursor, read form = .ok cursor) ∨
      ∃ reason, read form = .error (.malformedCursor reason)

private theorem mapError_malformed (read : Except TokenFault Cursor) :
    (∃ cursor, read.mapError malformed = .ok cursor) ∨
      ∃ reason, read.mapError malformed = .error (.malformedCursor reason) := by
  cases read with
  | ok cursor => exact .inl ⟨cursor, rfl⟩
  | error fault => exact .inr ⟨fault.message, rfl⟩

theorem exactForm_of_accepted_iff {Form : Type} {write : Cursor → Form}
    {read : Form → Except TokenFault Cursor}
    (truncated : ∀ cursor : Cursor, write cursor.truncate = write cursor)
    (accepted : ∀ form cursor, (read form).mapError malformed = .ok cursor ↔
      cursor.lastSeenTime.isWhole = true ∧ write cursor = form) :
    ExactForm write fun form => (read form).mapError malformed := by
  have roundTrip (cursor : Cursor) :
      (read (write cursor)).mapError malformed = .ok cursor.truncate :=
    (accepted _ _).2 ⟨Timestamp.isWhole_truncate _, truncated cursor⟩
  refine ⟨roundTrip, ?_, accepted, fun form => mapError_malformed (read form)⟩
  intro cursor
  rw [accepted, and_iff_left rfl]

private theorem toBytes_exact : ExactForm toBytes readBytes :=
  exactForm_of_accepted_iff (fun _ => rfl) fun _ _ => readBytes_eq_ok_iff

theorem toToken_exact : ExactForm toToken readToken :=
  exactForm_of_accepted_iff (fun _ => rfl) fun _ _ => readToken_eq_ok_iff

theorem length_toToken (cursor : Cursor) : cursor.toToken.length = 35 := by
  simp [toToken, Base64Url.length_encode, length_toBytes]

private theorem isUrlSafe_of_mem_toToken {cursor : Cursor} {char : Char}
    (member : char ∈ cursor.toToken.toList) : isUrlSafe char = true := by
  rw [toToken, String.toList_ofList, List.mem_map] at member
  obtain ⟨byte, written, rfl⟩ := member
  exact Base64Url.isUrlSafe_of_mem_encode written

theorem toToken_ne_empty (cursor : Cursor) : cursor.toToken ≠ "" := by
  intro empty
  have sized := cursor.length_toToken
  rw [empty] at sized
  cases sized

end Cursor

/-! ## Tokens that clients send -/

open Cursor Service

theorem decodeCursor_some {token : String} (present : token ≠ "") :
    decodeCursor (some token) =
      match readToken token with
      | .ok cursor => .ok (some cursor)
      | .error error => .error (.ofValueError error) := by
  have filled : token.isEmpty = false := by simpa using present
  rw [decodeCursor, filled, readToken]
  cases ofToken token <;> rfl

/-- Cursors and their tokens are in bijection, and so are cursors and their byte layouts,
both up to the part of a time below a microsecond. A client that sends any other text has
sent an invalid input. -/
theorem cursor_forms_exact :
    ExactForm toBytes readBytes ∧ ExactForm toToken readToken ∧
      (∀ cursor : Cursor, cursor.toBytes.length = 26 ∧ cursor.toToken.length = 35 ∧
        ∀ char ∈ cursor.toToken.toList, isUrlSafe char = true) ∧
      (∀ cursor : Cursor, cursor.truncate.lastSeenTime.nanos =
        1000 * (cursor.lastSeenTime.nanos / 1000)) ∧
      (∀ cursor : Cursor, decodeCursor (some cursor.toToken) = .ok (some cursor.truncate)) ∧
      ∀ token : String, token ≠ "" →
        (∀ cursor : Cursor, cursor.lastSeenTime.isWhole = true → cursor.toToken ≠ token) →
        ∃ failure, decodeCursor (some token) = .error failure ∧ failure.kind = .invalidInput := by
  refine ⟨toBytes_exact, toToken_exact, ?_, fun cursor => cursor.lastSeenTime.nanos_truncate,
    ?_, ?_⟩
  · intro cursor
    exact ⟨cursor.length_toBytes, cursor.length_toToken, fun _ => isUrlSafe_of_mem_toToken⟩
  · intro cursor
    rw [decodeCursor_some cursor.toToken_ne_empty, toToken_exact.read_write]
  · intro token present foreign
    rw [decodeCursor_some present]
    rcases toToken_exact.accepted_or_malformed token with ⟨cursor, accepted⟩ | ⟨_, malformed⟩
    · obtain ⟨whole, spelled⟩ := (toToken_exact.accepted_iff _ _).1 accepted
      exact absurd spelled (foreign cursor whole)
    · rw [malformed]
      exact ⟨_, rfl, rfl⟩

theorem padded_token_invalid :
    ∃ failure, decodeCursor (some "AQ==") = .error failure ∧ failure.kind = .invalidInput := by
  obtain ⟨-, -, shape, -, -, refused⟩ := cursor_forms_exact
  refine refused "AQ==" (by decide) ?_
  intro cursor _ same
  have sized := (shape cursor).2.1
  rw [same] at sized
  exact absurd sized (by decide)

end DocAccess
