import DocAccess.Text.Base64Url

/-!
# Base64 without slack

A text decodes exactly if it is the encoding of some bytes, which are then what it decodes
to. Symbols and values stand for one another, quads are read as they are written, and the
last quad has neither padding nor bits to spare.
-/

set_option autoImplicit false

namespace DocAccess

theorem except_bind_eq_ok_iff {ε α β : Type} {source : Except ε α} {next : α → Except ε β}
    {result : β} :
    source.bind next = .ok result ↔ ∃ value, source = .ok value ∧ next value = .ok result := by
  cases source <;> simp [Except.bind]

namespace Base64Url

/-! ## Symbols -/

theorem ofNat_eq (byte : UInt8) {n : Nat} (same : n = byte.toNat) : UInt8.ofNat n = byte := by
  rw [same, UInt8.ofNat_toNat]

theorem value?_eq_some_iff {byte : UInt8} {value : Nat} :
    value? byte = some value ↔ value < 64 ∧ symbol value = byte := by
  constructor
  · intro read
    simp only [value?] at read
    have small : byte.toNat < 256 := byte.toNat_lt
    split at read
    · cases read
      refine ⟨by omega, ?_⟩
      rw [symbol, if_pos (by omega)]
      exact ofNat_eq byte (by omega)
    · split at read
      · cases read
        refine ⟨by omega, ?_⟩
        rw [symbol, if_neg (by omega), if_pos (by omega)]
        exact ofNat_eq byte (by omega)
      · split at read
        · cases read
          refine ⟨by omega, ?_⟩
          rw [symbol, if_neg (by omega), if_neg (by omega), if_pos (by omega)]
          exact ofNat_eq byte (by omega)
        · split at read
          · rename_i code
            cases read
            exact ⟨by decide, (ofNat_eq byte code.symm : UInt8.ofNat 45 = byte)⟩
          · split at read
            · rename_i code
              cases read
              exact ⟨by decide, (ofNat_eq byte code.symm : UInt8.ofNat 95 = byte)⟩
            · cases read
  · intro given
    obtain ⟨small, rfl⟩ := given
    exact value?_symbol small

private theorem symbol_ne_padding {value : Nat} (small : value < 64) : symbol value ≠ padding := by
  intro same
  have read := value?_symbol small
  rw [same] at read
  cases read

theorem valueAt_eq_ok_iff {byte : UInt8} {offset value : Nat} :
    valueAt byte offset = .ok value ↔ value < 64 ∧ symbol value = byte := by
  rw [← value?_eq_some_iff, valueAt]
  cases value? byte <;> simp

theorem valueAt_symbol {value : Nat} (small : value < 64) (offset : Nat) :
    valueAt (symbol value) offset = .ok value :=
  valueAt_eq_ok_iff.2 ⟨small, rfl⟩

theorem length_encode (bytes : List UInt8) :
    (encode bytes).length = (4 * bytes.length + 2) / 3 := by
  induction bytes using encode.induct with
  | case1 => rfl
  | case2 a => simp [encode]
  | case3 a b => simp [encode]
  | case4 a b c rest ih =>
      simp only [encode, List.length_cons, ih]
      omega

/-! ## Quads -/

/-- Two to four values and the bytes that they hold, with no bits to spare. -/
inductive Holds : List Nat → List UInt8 → Prop where
  | pair {w x : Nat} {a : UInt8} (first : a.toNat = w * 4 + x / 16) (spare : x % 16 = 0)
      (small : x < 64) : Holds [w, x] [a]
  | triple {w x y : Nat} {a b : UInt8} (first : a.toNat = w * 4 + x / 16)
      (second : b.toNat = x % 16 * 16 + y / 4) (spare : y % 4 = 0) (small : x < 64 ∧ y < 64) :
      Holds [w, x, y] [a, b]
  | quad {w x y z : Nat} {a b c : UInt8} (first : a.toNat = w * 4 + x / 16)
      (second : b.toNat = x % 16 * 16 + y / 4) (third : c.toNat = y % 4 * 64 + z)
      (small : x < 64 ∧ y < 64 ∧ z < 64) : Holds [w, x, y, z] [a, b, c]

namespace Holds

theorem quad_ofNat {w x y z : Nat} (first : w < 64) (second : x < 64) (third : y < 64)
    (fourth : z < 64) :
    Holds [w, x, y, z] [UInt8.ofNat (w * 4 + x / 16), UInt8.ofNat (x % 16 * 16 + y / 4),
      UInt8.ofNat (y % 4 * 64 + z)] := by
  refine .quad ?_ ?_ ?_ ⟨second, third, fourth⟩
  · exact UInt8.toNat_ofNat_of_lt' (show w * 4 + x / 16 < 256 by omega)
  · exact UInt8.toNat_ofNat_of_lt' (show x % 16 * 16 + y / 4 < 256 by omega)
  · exact UInt8.toNat_ofNat_of_lt' (show y % 4 * 64 + z < 256 by omega)

theorem encode_append {w x y z : Nat} {a b c : UInt8} (holds : Holds [w, x, y, z] [a, b, c])
    (rest : List UInt8) :
    encode (a :: b :: c :: rest) = [w, x, y, z].map symbol ++ encode rest := by
  cases holds with
  | quad first second third small =>
      rw [encode, show a.toNat / 4 = w by omega,
        show a.toNat % 4 * 16 + b.toNat / 16 = x by omega,
        show b.toNat % 16 * 4 + c.toNat / 64 = y by omega, show c.toNat % 64 = z by omega]
      rfl

theorem encode_eq {values : List Nat} {bytes : List UInt8} (holds : Holds values bytes) :
    encode bytes = values.map symbol := by
  cases holds with
  | @pair w x a first spare small =>
      rw [encode, show a.toNat / 4 = w by omega, show a.toNat % 4 * 16 = x by omega]
      rfl
  | @triple w x y a b first second spare small =>
      rw [encode, show a.toNat / 4 = w by omega,
        show a.toNat % 4 * 16 + b.toNat / 16 = x by omega, show b.toNat % 16 * 4 = y by omega]
      rfl
  | quad first second third small =>
      have holds := Holds.quad first second third small
      exact holds.encode_append []

theorem lt {values : List Nat} {bytes : List UInt8} (holds : Holds values bytes) :
    ∀ value ∈ values, value < 64 := by
  cases holds with
  | @pair w x a first spare small =>
      have := a.toNat_lt
      simp only [List.forall_mem_cons]
      exact ⟨by omega, small, by simp⟩
  | @triple w x y a b first second spare small =>
      have := a.toNat_lt
      simp only [List.forall_mem_cons]
      exact ⟨by omega, small.1, small.2, by simp⟩
  | @quad w x y z a b c first second third small =>
      have := a.toNat_lt
      simp only [List.forall_mem_cons]
      exact ⟨by omega, small.1, small.2.1, small.2.2, by simp⟩

end Holds

theorem holds_one (a : UInt8) : Holds [a.toNat / 4, a.toNat % 4 * 16] [a] := by
  have := a.toNat_lt
  exact .pair (by omega) (by omega) (by omega)

theorem holds_two (a b : UInt8) :
    Holds [a.toNat / 4, a.toNat % 4 * 16 + b.toNat / 16, b.toNat % 16 * 4] [a, b] := by
  have := a.toNat_lt
  have := b.toNat_lt
  exact .triple (by omega) (by omega) (by omega) (by omega)

theorem holds_three (a b c : UInt8) :
    Holds [a.toNat / 4, a.toNat % 4 * 16 + b.toNat / 16, b.toNat % 16 * 4 + c.toNat / 64,
      c.toNat % 64] [a, b, c] := by
  have := a.toNat_lt
  have := b.toNat_lt
  have := c.toNat_lt
  exact .quad (by omega) (by omega) (by omega) (by omega)

private theorem encode_eq_map (bytes : List UInt8) :
    ∃ values : List Nat, (∀ value ∈ values, value < 64) ∧
      encode bytes = values.map symbol := by
  induction bytes using encode.induct with
  | case1 => exact ⟨[], by simp, rfl⟩
  | case2 a => exact ⟨_, (holds_one a).lt, (holds_one a).encode_eq⟩
  | case3 a b => exact ⟨_, (holds_two a b).lt, (holds_two a b).encode_eq⟩
  | case4 a b c rest ih =>
      obtain ⟨values, small, same⟩ := ih
      refine ⟨_ ++ values, List.forall_mem_append.2 ⟨(holds_three a b c).lt, small⟩, ?_⟩
      rw [(holds_three a b c).encode_append, same, List.map_append]

theorem exists_symbol_of_mem_encode {bytes : List UInt8} {byte : UInt8}
    (member : byte ∈ encode bytes) : ∃ value, value < 64 ∧ byte = symbol value := by
  obtain ⟨values, small, same⟩ := encode_eq_map bytes
  rw [same] at member
  obtain ⟨value, listed, rfl⟩ := List.mem_map.1 member
  exact ⟨value, small value listed, rfl⟩

/-! ## The last quad -/

/-- A scan that succeeds has read symbols, and after them nothing but padding. -/
private theorem symbols_of_scanTail {start index : Nat} {quad : List UInt8} {found result : Tail}
    (scanned : scanTail start index quad found = .ok result) :
    ∃ values count, quad = values.map symbol ++ List.replicate count padding ∧
      result.values = found.values ++ values ∧ (∀ value ∈ values, value < 64) ∧
      (found.firstPadding.isSome = true → values = []) ∧
      (0 < count ∨ found.firstPadding.isSome = true → result.firstPadding.isSome = true) := by
  induction quad generalizing index found with
  | nil =>
      cases scanned
      exact ⟨[], 0, rfl, (List.append_nil _).symm, by simp, fun _ => rfl, by simp⟩
  | cons byte rest ih =>
      simp only [scanTail] at scanned
      by_cases pads : byte = padding
      · simp only [pads, if_true] at scanned
        split at scanned
        · cases scanned
        · obtain ⟨values, count, rfl, read, -, alone, seen⟩ := ih scanned
          have marked : (found.firstPadding.or (some (start + index))).isSome = true := by simp
          cases alone marked
          refine ⟨[], count + 1, ?_, read, by simp, fun _ => rfl, fun _ => seen (.inr marked)⟩
          rw [pads]
          rfl
      · simp only [pads, if_false] at scanned
        cases first : found.firstPadding with
        | some offset => simp [first] at scanned
        | none =>
            cases this : valueAt byte (start + index) with
            | error fault => simp [first, this, bind, Except.bind] at scanned
            | ok value =>
                simp only [first, this, bind, Except.bind] at scanned
                obtain ⟨small, rfl⟩ := valueAt_eq_ok_iff.1 this
                obtain ⟨values, count, rfl, read, bounded, -, seen⟩ := ih scanned
                refine ⟨value :: values, count, rfl, ?_, ?_, by simp, ?_⟩
                · simpa using read
                · simpa using ⟨small, bounded⟩
                · simpa using seen

private theorem scanTail_symbols (start index : Nat) (read values : List Nat)
    (small : ∀ value ∈ values, value < 64) :
    scanTail start index (values.map symbol) ⟨read, none⟩ = .ok ⟨read ++ values, none⟩ := by
  induction values generalizing index read with
  | nil => simp [scanTail]
  | cons value rest ih =>
      obtain ⟨first, others⟩ := List.forall_mem_cons.1 small
      simp only [List.map_cons, scanTail, symbol_ne_padding first, if_false,
        valueAt_symbol first, bind, Except.bind]
      rw [ih (index + 1) (read ++ [value]) others]
      simp

private theorem holds_of_decodeTail {start : Nat} {quad bytes : List UInt8}
    (short : quad.length ≤ 4) (decoded : decodeTail start quad = .ok bytes) :
    ∃ values, Holds values bytes ∧ quad = values.map symbol := by
  cases scanned : scanTail start 0 quad ⟨[], none⟩ with
  | error fault => simp [decodeTail, scanned, bind, Except.bind] at decoded
  | ok found =>
      obtain ⟨values, count, rfl, read, small, -, padded⟩ := symbols_of_scanTail scanned
      have unpadded (none : ¬found.firstPadding.isSome = true) :
          values.map symbol ++ List.replicate count padding = values.map symbol := by
        rcases Nat.eq_zero_or_pos count with rfl | some
        · exact List.append_nil _
        · exact absurd (padded (.inl some)) none
      simp only [List.nil_append] at read
      simp only [decodeTail, scanned, bind, Except.bind, read] at decoded
      split at decoded
      · cases decoded
      · cases decoded
      · rename_i w x
        simp only [List.forall_mem_cons] at small
        obtain ⟨first, second, -⟩ := small
        split at decoded
        · cases decoded
        · rename_i none
          split at decoded
          · cases decoded
          · rename_i spare
            cases decoded
            refine ⟨[w, x], .pair ?_ (Classical.not_not.1 spare) second, unpadded none⟩
            exact UInt8.toNat_ofNat_of_lt' (show w * 4 + x / 16 < 256 by omega)
      · rename_i w x y
        simp only [List.forall_mem_cons] at small
        obtain ⟨first, second, third, -⟩ := small
        split at decoded
        · cases decoded
        · rename_i none
          split at decoded
          · cases decoded
          · rename_i spare
            cases decoded
            refine ⟨[w, x, y], .triple ?_ ?_ (Classical.not_not.1 spare) ⟨second, third⟩,
              unpadded none⟩
            · exact UInt8.toNat_ofNat_of_lt' (show w * 4 + x / 16 < 256 by omega)
            · exact UInt8.toNat_ofNat_of_lt' (show x % 16 * 16 + y / 4 < 256 by omega)
      · rename_i w x y z others
        -- Four symbols leave no room for padding.
        have room : others.length = 0 ∧ count = 0 := by
          simp only [List.map_cons, List.length_append, List.length_cons, List.length_map,
            List.length_replicate] at short
          omega
        obtain ⟨alone, rfl⟩ := room
        cases List.length_eq_zero_iff.1 alone
        simp only [List.forall_mem_cons] at small
        obtain ⟨first, second, third, fourth, -⟩ := small
        cases decoded
        exact ⟨[w, x, y, z], .quad_ofNat first second third fourth, rfl⟩

private theorem Holds.decodeTail_eq {start : Nat} {values : List Nat} {bytes : List UInt8}
    (holds : Holds values bytes) : decodeTail start (values.map symbol) = .ok bytes := by
  have scanned := scanTail_symbols start 0 [] values holds.lt
  rw [List.nil_append] at scanned
  unfold decodeTail
  rw [scanned]
  cases holds with
  | @pair w x a first spare _ =>
      simp [bind, Except.bind, spare, ofNat_eq a first.symm]
  | @triple w x y a b first second spare _ =>
      simp [bind, Except.bind, spare, ofNat_eq a first.symm, ofNat_eq b second.symm]
  | @quad w x y z a b c first second third _ =>
      simp [bind, Except.bind, ofNat_eq a first.symm, ofNat_eq b second.symm,
        ofNat_eq c third.symm]

/-! ## Texts -/

private theorem decodeFrom_encode (start : Nat) (bytes : List UInt8) :
    decodeFrom start (encode bytes) = .ok bytes := by
  induction bytes using encode.induct generalizing start with
  | case1 => rfl
  | case2 a => exact (holds_one a).decodeTail_eq
  | case3 a b => exact (holds_two a b).decodeTail_eq
  | case4 a b c rest ih =>
      have holds := holds_three a b c
      specialize ih (start + 4)
      cases more : encode rest with
      | nil =>
          rw [more] at ih
          cases ih
          exact holds.decodeTail_eq
      | cons next others =>
          have small := holds.lt
          simp only [List.forall_mem_cons] at small
          obtain ⟨high, upper, lower, low, -⟩ := small
          rw [more] at ih
          rw [encode, more, decodeFrom, valueAt_symbol high, valueAt_symbol upper,
            valueAt_symbol lower, valueAt_symbol low]
          simp only [bind, Except.bind, ih, pure, Except.pure]
          cases holds with
          | quad first second third _ =>
              rw [ofNat_eq a first.symm, ofNat_eq b second.symm, ofNat_eq c third.symm]

private theorem encode_of_decodeFrom {start : Nat} {text bytes : List UInt8}
    (decoded : decodeFrom start text = .ok bytes) : encode bytes = text := by
  induction start, text using decodeFrom.induct generalizing bytes with
  | case1 =>
      cases decoded
      rfl
  | case2 start a b c d next rest ih =>
      simp only [decodeFrom, bind, except_bind_eq_ok_iff, valueAt_eq_ok_iff] at decoded
      obtain ⟨w, ⟨first, rfl⟩, x, ⟨second, rfl⟩, y, ⟨third, rfl⟩, z, ⟨fourth, rfl⟩, tail, more,
        whole⟩ := decoded
      cases whole
      rw [(Holds.quad_ofNat first second third fourth).encode_append, ih more]
      rfl
  | case3 start text empty long =>
      rw [decodeFrom] at decoded
      · have short : text.length ≤ 4 := by
          match text, long with
          | [], _ => simp
          | [_], _ => simp
          | [_, _], _ => simp
          | [_, _, _], _ => simp
          | [_, _, _, _], _ => simp
          | a :: b :: c :: d :: next :: rest, long => exact (long a b c d next rest rfl).elim
        obtain ⟨values, holds, rfl⟩ := holds_of_decodeTail short decoded
        exact holds.encode_eq
      · exact empty
      · exact long

private theorem strayLast?_encode (bytes : List UInt8) : strayLast? (encode bytes) = none := by
  cases last : (encode bytes).getLast? with
  | none => simp [strayLast?, last]
  | some byte =>
      obtain ⟨value, small, rfl⟩ := exists_symbol_of_mem_encode (List.mem_of_getLast? last)
      simp [strayLast?, last, value?_symbol small]

theorem decode_eq_ok_iff {text bytes : List UInt8} :
    decode text = .ok bytes ↔ encode bytes = text := by
  constructor
  · intro decoded
    unfold decode at decoded
    split at decoded
    · cases decoded
    · exact encode_of_decodeFrom decoded
  · rintro rfl
    rw [decode, strayLast?_encode]
    exact decodeFrom_encode 0 bytes

end Base64Url
end DocAccess
