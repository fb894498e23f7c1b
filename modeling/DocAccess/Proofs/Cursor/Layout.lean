import DocAccess.Cursor.Token
import DocAccess.Proofs.Text.Base64Url

/-!
# The byte layout of cursors

Words of a fixed width and byte strings of that length stand for one another, and so do
signed numbers and words. So a byte string is read as a cursor exactly if it is what would
be written for that cursor, whose time is then in whole microseconds.
-/

set_option autoImplicit false

namespace DocAccess

/-! ## Words -/

private theorem ofBigEndian_append (bytes : List UInt8) (last : UInt8) :
    ofBigEndian (bytes ++ [last]) = 256 * ofBigEndian bytes + last.toNat := by
  simp [ofBigEndian]

theorem bigEndian_ofBigEndian {width : Nat} {bytes : List UInt8} (sized : bytes.length = width) :
    bigEndian width (ofBigEndian bytes) = bytes := by
  induction width generalizing bytes with
  | zero =>
      cases List.length_eq_zero_iff.1 sized
      rfl
  | succ width ih =>
      rcases List.eq_nil_or_concat bytes with rfl | ⟨most, last, rfl⟩
      · cases sized
      · have shorter : most.length = width := by simpa using sized
        have low := last.toNat_lt
        rw [List.concat_eq_append, ofBigEndian_append, bigEndian,
          show (256 * ofBigEndian most + last.toNat) / 256 = ofBigEndian most by omega,
          show (256 * ofBigEndian most + last.toNat) % 256 = last.toNat by omega, ih shorter,
          UInt8.ofNat_toNat]

namespace Cursor

private theorem intOfWord_wordOfInt {n : Int} (lower : -9223372036854775808 ≤ n)
    (upper : n ≤ 9223372036854775807) : intOfWord (wordOfInt n) = n := by
  unfold intOfWord wordOfInt wordCount
  split <;> omega

private theorem wordOfInt_intOfWord {n : Nat} (small : n < 18446744073709551616) :
    wordOfInt (intOfWord n) = n := by
  unfold intOfWord wordOfInt wordCount
  split <;> omega

private theorem ofBigEndian_lt {bytes : List UInt8} (sized : bytes.length = 8) :
    ofBigEndian bytes < 18446744073709551616 := by
  have same := ofBigEndian_bigEndian 8 (ofBigEndian bytes)
  rw [bigEndian_ofBigEndian sized] at same
  rw [same]
  exact Nat.mod_lt _ (by decide)

end Cursor

/-! ## Fields -/

theorem SortField.ofCode_eq_ok_iff {code : Nat} {field : SortField} :
    ofCode code = .ok field ↔ field.code = code := by
  match code with
  | 0 => cases field <;> simp [ofCode, SortField.code]
  | 1 => cases field <;> simp [ofCode, SortField.code]
  | _ + 2 => cases field <;> simp [ofCode, SortField.code]

theorem Timestamp.ofMicros_eq_ok_iff {micros : Int} {time : Timestamp} :
    ofMicros micros = .ok time ↔ time.micros = micros ∧ time.isWhole = true := by
  constructor
  · intro read
    unfold ofMicros at read
    split at read
    · rename_i found
      cases read
      exact micros_of_atMicros? found
    · cases read
  · intro given
    obtain ⟨rfl, whole⟩ := given
    rw [ofMicros_micros, (truncate_eq_self_iff time).2 whole]

theorem Timestamp.nanos_truncate (time : Timestamp) :
    time.truncate.nanos = 1000 * (time.nanos / 1000) := by
  have below := time.subNanos.isLt
  simp only [truncate, nanos]
  omega

theorem mapError_eq_ok_iff {ε ε' α : Type} {read : Except ε α} {report : ε → ε'} {value : α} :
    read.mapError report = .ok value ↔ read = .ok value := by
  cases read with
  | error fault => constructor <;> intro given <;> cases given
  | ok found => constructor <;> intro given <;> cases given <;> rfl

namespace Cursor

theorem length_toBytes (cursor : Cursor) : cursor.toBytes.length = 26 := by
  simp [toBytes, cursor.lastSeenId.length_eq]

theorem ofFields_eq_ok_iff {sort : UInt8} {time id : List UInt8} {cursor : Cursor} :
    ofFields sort time id = .ok cursor ↔
      cursor.sortField.code = sort.toNat ∧
        (cursor.lastSeenTime.micros = intOfWord (ofBigEndian time) ∧
          cursor.lastSeenTime.isWhole = true) ∧
        cursor.lastSeenId.bytes = id := by
  simp only [ofFields, bind, except_bind_eq_ok_iff, mapError_eq_ok_iff,
    SortField.ofCode_eq_ok_iff, Timestamp.ofMicros_eq_ok_iff]
  constructor
  · intro given
    obtain ⟨field, sorts, micros, timed, read⟩ := given
    split at read
    · rename_i found
      cases read
      exact ⟨sorts, timed, Uuid.bytes_of_ofBytes? found⟩
    · cases read
  · intro given
    obtain ⟨sorts, timed, rfl⟩ := given
    refine ⟨_, sorts, _, timed, ?_⟩
    rw [Uuid.ofBytes?_bytes]
    rfl

theorem ofBytes_toBytes (cursor : Cursor) : ofBytes cursor.toBytes = .ok cursor.truncate := by
  have sized := cursor.length_toBytes
  have lower := cursor.lastSeenTime.lower
  have upper := cursor.lastSeenTime.upper
  have word : intOfWord (ofBigEndian (bigEndian 8 (wordOfInt cursor.lastSeenTime.micros))) =
      cursor.lastSeenTime.micros := by
    have small : wordOfInt cursor.lastSeenTime.micros < 18446744073709551616 := by
      unfold wordOfInt wordCount
      omega
    rw [ofBigEndian_bigEndian, show Nat.pow 256 8 = 18446744073709551616 from rfl,
      Nat.mod_eq_of_lt small, intOfWord_wordOfInt (by omega) (by omega)]
  unfold toBytes at sized ⊢
  simp only [ofBytes, byteLength, sized, ne_eq, not_true_eq_false, if_false]
  rw [if_neg (by decide), ofFields_eq_ok_iff]
  refine ⟨?_, ⟨?_, Timestamp.isWhole_truncate _⟩, ?_⟩
  · cases field : cursor.sortField <;> simp [truncate, field, SortField.code]
  · rw [List.take_left' (length_bigEndian 8 _), word]
    rfl
  · rw [List.drop_left' (length_bigEndian 8 _)]
    rfl

theorem toBytes_of_ofBytes {bytes : List UInt8} {cursor : Cursor}
    (read : ofBytes bytes = .ok cursor) :
    cursor.lastSeenTime.isWhole = true ∧ cursor.toBytes = bytes := by
  unfold ofBytes at read
  split at read
  · rename_i first sort rest
    split at read
    · cases read
    · rename_i sized
      split at read
      · cases read
      · rename_i versioned
        obtain ⟨sorts, ⟨timed, whole⟩, named⟩ := ofFields_eq_ok_iff.1 read
        have sized : (rest.take 8).length = 8 := by
          have : rest.length = 24 := by simpa [byteLength] using sized
          simp [this]
        refine ⟨whole, ?_⟩
        rw [toBytes, sorts, timed, named, wordOfInt_intOfWord (ofBigEndian_lt sized),
          bigEndian_ofBigEndian sized, List.take_append_drop, UInt8.ofNat_toNat,
          ← Classical.not_not.1 versioned, UInt8.ofNat_toNat]
  · cases read

end Cursor
end DocAccess
