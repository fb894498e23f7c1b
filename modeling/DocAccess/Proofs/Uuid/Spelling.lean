import DocAccess.Id
import Mathlib.Algebra.GroupWithZero.Nat

/-!
# Spellings of identifiers

A text is read as an identifier exactly if it is one of its spellings: its digits, bare or in
groups, the groups in braces or after the mark of the name space, with letters in either case.
-/

set_option autoImplicit false

namespace DocAccess

namespace Hex

/-! ## Digits in either case -/

private theorem value?_eq_none {c : Char} (large : ¬ c.toNat < 128) : value? c = none := by
  have above (bound : Char) (small : bound.toNat < 128) : ¬ c ≤ bound := fun below =>
    large (Nat.lt_of_le_of_lt (UInt32.le_iff_toNat_le.mp below) small)
  simp [value?, above '9' (by decide), above 'f' (by decide), above 'F' (by decide)]

private theorem toLower_eq_self {c : Char} (large : ¬ c.toNat < 128) : c.toLower = c := by
  have above : ¬ (c.val ≥ 'A'.val ∧ c.val ≤ 'Z'.val) := fun upper =>
    large (Nat.lt_of_le_of_lt (UInt32.le_iff_toNat_le.mp upper.2) (by decide))
  exact dif_neg above

/-- Letters stand for the same values in either case. -/
theorem value?_toLower (c : Char) : value? c.toLower = value? c := by
  have table : ∀ code, code < 128 →
      value? (Char.ofNat code).toLower = value? (Char.ofNat code) := by decide
  by_cases small : c.toNat < 128
  · rw [← Char.ofNat_toNat c]
    exact table _ small
  · rw [toLower_eq_self small]

theorem value?_eq_some_iff {c : Char} {value : Nat} :
    value? c = some value ↔ value < 16 ∧ c.toLower = digit value := by
  have table : ∀ code, code < 128 → ∀ value ∈ value? (Char.ofNat code),
      value < 16 ∧ (Char.ofNat code).toLower = digit value := by decide
  constructor
  · intro read
    by_cases small : c.toNat < 128
    · rw [← Char.ofNat_toNat c] at read ⊢
      exact table _ small value read
    · rw [value?_eq_none small] at read
      cases read
  · rintro ⟨small, lower⟩
    rw [← value?_toLower, lower, value?_digit small]

private theorem ofByte_ofNat {upper lower : Nat} (high : upper < 16) (low : lower < 16) :
    ofByte (UInt8.ofNat (16 * upper + lower)) = [digit upper, digit lower] := by
  have same : (UInt8.ofNat (16 * upper + lower)).toNat = 16 * upper + lower := by
    rw [UInt8.toNat_ofNat']
    omega
  have first : (16 * upper + lower) / 16 = upper := by omega
  have second : (16 * upper + lower) % 16 = lower := by omega
  rw [ofByte, same, first, second]

private theorem decode?_map_toLower (digits : List Char) :
    decode? (digits.map Char.toLower) = decode? digits := by
  induction digits using decode?.induct with
  | case1 => rfl
  | case2 => rfl
  | case3 high low rest ih => simp only [List.map_cons, decode?, value?_toLower, ih]

/-- A run of digits decodes exactly if it is the encoding but for the case of letters. -/
theorem decode?_eq_some_iff {digits : List Char} {bytes : List UInt8} :
    decode? digits = some bytes ↔ digits.map Char.toLower = encode bytes := by
  constructor
  · intro read
    induction digits using decode?.induct generalizing bytes with
    | case1 => cases read; rfl
    | case2 => cases read
    | case3 high low rest ih =>
        simp only [decode?, Option.bind_eq_bind, Option.bind_eq_some_iff, Option.pure_def,
          Option.some.injEq] at read
        obtain ⟨upper, first, lower, second, tail, decoded, rfl⟩ := read
        obtain ⟨upperSmall, upperDigit⟩ := value?_eq_some_iff.mp first
        obtain ⟨lowerSmall, lowerDigit⟩ := value?_eq_some_iff.mp second
        have spelled : rest.map Char.toLower = tail.flatMap ofByte := ih decoded
        rw [encode, List.flatMap_cons, ofByte_ofNat upperSmall lowerSmall, ← spelled]
        simp only [List.map_cons, upperDigit, lowerDigit, List.cons_append, List.nil_append]
  · intro spelled
    rw [← decode?_map_toLower, spelled, decode?_encode]

private theorem length_encode (bytes : List UInt8) : (encode bytes).length = 2 * bytes.length := by
  induction bytes with
  | nil => rfl
  | cons byte bytes ih =>
      have tail : (bytes.flatMap ofByte).length = 2 * bytes.length := ih
      simp only [encode, List.flatMap_cons, ofByte, List.length_append, List.length_cons,
        List.length_nil, tail]
      omega

end Hex

namespace Uuid

/-! ## Groups -/

/-- Hyphens stand exactly between the groups. -/
theorem splitGroups?_eq_some_iff {sizes : List Nat} {rest digits : List Char}
    (inhabited : sizes ≠ []) :
    splitGroups? sizes rest = some digits ↔
      digits.length = sizes.sum ∧ joinGroups sizes digits = rest := by
  induction sizes generalizing rest digits with
  | nil => exact absurd rfl inhabited
  | cons size sizes ih =>
      cases sizes with
      | nil =>
          simp only [splitGroups?, joinGroups, List.sum_cons, List.sum_nil, Nat.add_zero,
            Option.ite_none_right_eq_some, Option.some.injEq]
          constructor
          · rintro ⟨full, rfl⟩
            exact ⟨full, rfl⟩
          · rintro ⟨full, rfl⟩
            exact ⟨full, rfl⟩
      | cons next sizes =>
          simp only [splitGroups?, joinGroups]
          constructor
          · intro read
            split at read
            · rename_i after hyphen
              split at read
              · rename_i full
                obtain ⟨others, tail, rfl⟩ := Option.map_eq_some_iff.mp read
                obtain ⟨length, rfl⟩ := (ih (List.cons_ne_nil _ _)).mp tail
                refine ⟨by simp [full, length], ?_⟩
                rw [List.take_left' full, List.drop_left' full, ← hyphen, List.take_append_drop]
              · cases read
            · cases read
          · rintro ⟨length, rfl⟩
            rw [List.sum_cons] at length
            have full : (digits.take size).length = size := by
              rw [List.length_take]
              omega
            have tail := (ih (List.cons_ne_nil _ _)).mpr
              ⟨show (digits.drop size).length = (next :: sizes).sum by
                rw [List.length_drop]
                omega, rfl⟩
            rw [List.drop_left' full, List.take_left' full]
            simp only [full, if_true, tail, Option.map_some, List.take_append_drop]

/-! ## Forms -/

/-- The digits of an identifier, with letters in either case. -/
def Digits (id : Uuid) (digits : List Char) : Prop :=
  digits.map Char.toLower = Hex.encode id.bytes

inductive Spelling (id : Uuid) : List Char → Prop
  | plain {digits : List Char} : Digits id digits → Spelling id digits
  | grouped {digits : List Char} : Digits id digits → Spelling id (joinGroups groups digits)
  | braced {digits : List Char} : Digits id digits →
      Spelling id ('{' :: joinGroups groups digits ++ ['}'])
  | marked {mark digits : List Char} : mark.map Char.toLower = nameSpaceMark →
      Digits id digits → Spelling id (mark ++ joinGroups groups digits)

variable {id : Uuid}

theorem Digits.length {digits : List Char} (spelled : Digits id digits) : digits.length = 32 := by
  have same := congrArg List.length spelled
  rwa [List.length_map, Hex.length_encode, id.length_eq] at same

theorem ofDigits?_eq_some_iff {digits : List Char} :
    ofDigits? digits = some id ↔ Digits id digits := by
  unfold ofDigits? Digits
  rw [← Hex.decode?_eq_some_iff]
  constructor
  · intro read
    obtain ⟨bytes, decoded, whole⟩ := Option.bind_eq_some_iff.mp read
    rw [decoded, bytes_of_ofBytes? whole]
  · intro decoded
    simp [decoded]

theorem ofGroups?_eq_some_iff {source : List Char} :
    ofGroups? source = some id ↔
      ∃ digits, Digits id digits ∧ joinGroups groups digits = source := by
  constructor
  · intro read
    obtain ⟨digits, split, spelled⟩ := Option.bind_eq_some_iff.mp read
    exact ⟨digits, ofDigits?_eq_some_iff.mp spelled,
      ((splitGroups?_eq_some_iff (by decide)).mp split).2⟩
  · rintro ⟨digits, spelled, rfl⟩
    have split : splitGroups? groups (joinGroups groups digits) = some digits :=
      (splitGroups?_eq_some_iff (by decide)).mpr ⟨spelled.length, rfl⟩
    exact Option.bind_eq_some_iff.mpr ⟨digits, split, ofDigits?_eq_some_iff.mpr spelled⟩

private theorem Digits.length_joinGroups {digits : List Char} (spelled : Digits id digits) :
    (joinGroups groups digits).length = 36 := by
  simp [groups, joinGroups, spelled.length]

/-- What stands between the first and the last character, where these are braces. -/
private theorem eq_braced {source : List Char} (length : source.length = 38)
    (braces : source.head? = some '{' ∧ source.getLast? = some '}') :
    source = '{' :: (source.drop 1).dropLast ++ ['}'] := by
  cases source with
  | nil => cases length
  | cons first rest =>
      have opening : first = '{' := Option.some.inj braces.1
      have inside : rest ≠ [] := by
        rintro rfl
        cases length
      have closing : rest.getLast? = some '}' := by
        rw [← List.getLast?_cons_of_ne_nil inside]
        exact braces.2
      obtain ⟨body, rfl⟩ := List.getLast?_eq_some_iff.mp closing
      rw [opening, List.drop_one, List.tail_cons, List.dropLast_concat, List.cons_append]

private theorem spelling_of_ofChars? {source : List Char} (read : ofChars? source = some id) :
    Spelling id source := by
  unfold ofChars? at read
  split at read
  · exact .plain (ofDigits?_eq_some_iff.mp read)
  · obtain ⟨digits, spelled, rfl⟩ := ofGroups?_eq_some_iff.mp read
    exact .grouped spelled
  · split at read
    · rename_i length braces
      obtain ⟨digits, spelled, inner⟩ := ofGroups?_eq_some_iff.mp read
      rw [eq_braced length braces, ← inner]
      exact .braced spelled
    · cases read
  · split at read
    · rename_i length mark
      obtain ⟨digits, spelled, inner⟩ := ofGroups?_eq_some_iff.mp read
      rw [← List.take_append_drop 9 source, ← inner]
      exact .marked mark spelled
    · cases read
  · cases read

private theorem Spelling.ofChars? {source : List Char} (spelling : Spelling id source) :
    ofChars? source = some id := by
  cases spelling with
  | plain spelled =>
      simp only [Uuid.ofChars?, spelled.length]
      exact ofDigits?_eq_some_iff.mpr spelled
  | grouped spelled =>
      simp only [Uuid.ofChars?, spelled.length_joinGroups]
      exact ofGroups?_eq_some_iff.mpr ⟨_, spelled, rfl⟩
  | @braced digits spelled =>
      have length : ('{' :: joinGroups groups digits ++ ['}']).length = 38 := by
        simp [spelled.length_joinGroups]
      have braces : ('{' :: joinGroups groups digits ++ ['}']).head? = some '{' ∧
          ('{' :: joinGroups groups digits ++ ['}']).getLast? = some '}' :=
        ⟨rfl, List.getLast?_concat⟩
      have inside : (('{' :: joinGroups groups digits ++ ['}']).drop 1).dropLast =
          joinGroups groups digits := by simp
      simp only [Uuid.ofChars?, length, if_pos braces, inside]
      exact ofGroups?_eq_some_iff.mpr ⟨_, spelled, rfl⟩
  | @marked mark digits lowered spelled =>
      have nine : mark.length = 9 := by
        have same := congrArg List.length lowered
        rwa [List.length_map] at same
      have length : (mark ++ joinGroups groups digits).length = 45 := by
        rw [List.length_append, nine, spelled.length_joinGroups]
      simp only [Uuid.ofChars?, length, List.take_left' nine, List.drop_left' nine, lowered]
      exact ofGroups?_eq_some_iff.mpr ⟨_, spelled, rfl⟩

/-- The spellings of an identifier are all the texts that are read as it. -/
theorem ofText?_eq_some_iff {source : String} :
    ofText? source = some id ↔ Spelling id source.toList :=
  ⟨spelling_of_ofChars?, Spelling.ofChars?⟩

theorem digits_encode (id : Uuid) : Digits id (Hex.encode id.bytes) :=
  Hex.decode?_eq_some_iff.mp (Hex.decode?_encode id.bytes)

theorem spelling_text (id : Uuid) : Spelling id id.text.toList := by
  rw [text, String.toList_ofList]
  exact .grouped id.digits_encode

end Uuid

end DocAccess
