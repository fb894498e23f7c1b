import DocAccess.Proofs.Text.Numeral
import DocAccess.Proofs.Time.Calendar
import DocAccess.Time.Rfc3339

/-!
# Times read back

The text of a time is read as that time: one lemma for each part of the text, whatever follows
it. This holds of every year of the calendar, signed ones included, of every fraction and of leap
seconds.
-/

set_option autoImplicit false

namespace DocAccess.Rfc3339

/-! ## Dates -/

@[simp]
theorem skipSign?_cons {sign : Char} (rest : List Char) (visible : isBlank sign = false) :
    skipSign? sign (sign :: rest) = some rest := by
  simp [skipSign?, trimStart, visible]

theorem readField?_fixed {least most n : Nat} (rest : List Char) (lower : least ≤ n)
    (upper : n ≤ most) (small : most < 100) :
    readField? least most (Numeral.fixed 2 n ++ rest) = some (n, rest) := by
  have spelled : Numeral.Spells n (Numeral.fixed 2 n) := Numeral.spells_fixed (by omega)
  have full := Numeral.length_fixed 2 n
  simp [readField?, spelled.trimStart, spelled.read? (Nat.le_of_eq full) (.inl full), lower, upper]

/-- A sign tells that any number of digits follows; without one there are four. -/
private theorem readYear?_yearChars (year : Int) {rest : List Char} (ends : Numeral.NoDigit rest) :
    readYear? (yearChars year ++ rest) = some (year, rest) := by
  have within : (Numeral.padded 4 year.natAbs).length ≤
      (Numeral.padded 4 year.natAbs ++ rest).length := by simp
  have signed := (Numeral.spells_padded 3 year.natAbs).read? within (.inr ends)
  unfold yearChars
  split
  · rename_i negative
    have back : -(year.natAbs : Int) = year := by omega
    simp only [readYear?, trimStart, List.cons_append, show isBlank '-' = false by decide,
      List.dropWhile_cons_of_neg, Bool.false_eq_true, not_false_eq_true, signed, Option.map_some,
      back]
  · split
    · rename_i late
      have back : (year.natAbs : Int) = year := by omega
      simp only [readYear?, trimStart, List.cons_append, show isBlank '+' = false by decide,
        List.dropWhile_cons_of_neg, Bool.false_eq_true, not_false_eq_true, signed, Option.map_some,
        back]
    · have back : (year.natAbs : Int) = year := by omega
      have spelled : Numeral.Spells year.natAbs (Numeral.fixed 4 year.natAbs) :=
        Numeral.spells_fixed (by omega)
      have full := Numeral.length_fixed 4 year.natAbs
      have read : Numeral.read? 4 (Numeral.fixed 4 year.natAbs ++ rest) =
          some (year.natAbs, rest) := spelled.read? (Nat.le_of_eq full) (.inl full)
      unfold readYear?
      rw [spelled.trimStart]
      split
      · rename_i minus
        exact absurd minus (spelled.ne_cons (by decide))
      · rename_i plus
        exact absurd plus (spelled.ne_cons (by decide))
      · simp [read, back]

private theorem readDate?_dateChars {date : CivilDate} (valid : date.isValid = true)
    (rest : List Char) : readDate? (dateChars date ++ rest) = some (date, rest) := by
  have bounds := valid
  simp only [CivilDate.isValid, Bool.and_eq_true, decide_eq_true_eq] at bounds
  obtain ⟨⟨⟨firstMonth, lastMonth⟩, firstDay⟩, lastDay⟩ := bounds
  have longest : date.day ≤ 31 := by
    refine Nat.le_trans lastDay ?_
    unfold CivilDate.daysInMonth
    split
    · split <;> decide
    · split <;> decide
  have dash : Numeral.NoDigit
      ('-' :: Numeral.fixed 2 date.month ++ '-' :: Numeral.fixed 2 date.day ++ rest) :=
    Numeral.noDigit_cons (by decide)
  have visible : isBlank '-' = false := by decide
  simp only [dateChars, List.append_assoc, List.cons_append] at dash ⊢
  simp [readDate?, readYear?_yearChars date.year dash, visible,
    readField?_fixed _ firstMonth lastMonth, readField?_fixed _ firstDay longest, valid]

/-! ## Times of day -/

private theorem readClock?_clockChars {minute : Nat} (second : Fin 61) (rest : List Char)
    (inDay : minute < 1440) :
    readClock? (clockChars minute second.val ++ rest) = some (minute, second, rest) := by
  have hour : minute / 60 ≤ 23 := by omega
  have ofHour : minute % 60 ≤ 59 := by omega
  have inMinute : second.val ≤ 60 := Nat.le_of_lt_succ second.isLt
  have whole : minute / 60 * 60 + minute % 60 = minute := Nat.div_add_mod' minute 60
  have visible : isBlank ':' = false := by decide
  have same : second.val % 61 = second.val := Nat.mod_eq_of_lt second.isLt
  simp only [clockChars, List.append_assoc, List.cons_append]
  simp [readClock?, readField?_fixed _ (Nat.zero_le _) hour, visible,
    readField?_fixed _ (Nat.zero_le _) ofHour, readField?_fixed _ (Nat.zero_le _) inMinute, whole,
    same]

/-- Missing digits of a fraction are zeros. -/
private theorem readFraction?_fixed {width n : Nat} {rest : List Char}
    (small : n < 10 ^ (width + 1)) (within : width + 1 ≤ 9) (ends : Numeral.NoDigit rest) :
    readFraction? ('.' :: Numeral.fixed (width + 1) n ++ rest) =
      some (Fin.ofNat 1000000000 (n * 10 ^ (9 - (width + 1))), rest) := by
  have spelled := Numeral.spells_fixed small
  have length := Numeral.length_fixed (width + 1) n
  have taken := Numeral.takeDigits_append spelled.allDigits
    (Nat.le_trans (Nat.le_of_eq length) within) (.inr ends)
  have kept : rest.dropWhile Numeral.isDigit = rest := by
    cases rest with
    | nil => rfl
    | cons c rest => simp [ends c rfl]
  rw [List.cons_append, readFraction?, taken]
  split
  · rename_i empty
    exact absurd (congrArg Prod.fst empty) spelled.nonempty
  · rename_i digits tail nonempty same
    cases same
    simp only [kept, Numeral.value_append_zeros, spelled.value_eq, length]

private theorem readFraction?_fractionChars (nanos : Fin 1000000000) (rest : List Char) :
    readFraction? (fractionChars nanos.val ++ 'Z' :: rest) = some (nanos, 'Z' :: rest) := by
  have ends : Numeral.NoDigit ('Z' :: rest) := Numeral.noDigit_cons (by decide)
  have small := nanos.isLt
  have back {n : Nat} (same : n = nanos.val) : Fin.ofNat 1000000000 n = nanos := by
    subst same
    exact Fin.ofNat_val_eq_self nanos
  unfold fractionChars
  split
  · rename_i zero
    simp [readFraction?, ← back zero.symm]
  · split
    · rw [readFraction?_fixed (by omega) (by decide) ends, back (by omega)]
    · split
      · rw [readFraction?_fixed (by omega) (by decide) ends, back (by omega)]
      · rw [readFraction?_fixed (by omega) (by decide) ends, back (by omega)]

/-! ## Times -/

private theorem ofLocal?_universal (time : CivilTime) :
    ofLocal? (CivilDate.ofDays (time.minute / minutesPerDay))
      (time.minute % minutesPerDay).toNat time.second time.nanos 0 = some time := by
  have reading : time.minute / minutesPerDay * minutesPerDay +
      ((time.minute % minutesPerDay).toNat : Int) = time.minute := by
    unfold minutesPerDay
    omega
  have inRange : CivilTime.ofMinute? time.minute time.second time.nanos = some time := by
    simp [CivilTime.ofMinute?, time.lower, time.upper]
  have universal : -minutesPerDay < 0 ∧ 0 < minutesPerDay := by decide
  simp only [ofLocal?, CivilDate.toDays_ofDays, reading, if_pos universal, Int.sub_zero, inRange,
    Option.bind_some]

private theorem ofChars?_chars (time : CivilTime) : ofChars? (chars time) = some time := by
  have valid := CivilDate.isValid_ofDays (time.minute / minutesPerDay)
  have inDay : (time.minute % minutesPerDay).toNat < 1440 := by
    unfold minutesPerDay
    omega
  have zone : readOffset? ['Z'] = some (0, []) := by decide
  have ended : trimStart [] = [] := rfl
  simp only [chars, List.append_assoc, List.cons_append]
  simp [ofChars?, readDate?_dateChars valid, readClock?_clockChars _ _ inDay,
    readFraction?_fractionChars, zone, ended, ofLocal?_universal]

/-- What is written is read as the same time, to the nanosecond. -/
@[simp]
theorem ofText?_text (time : CivilTime) : ofText? (text time) = some time := by
  simp [ofText?, text, ofChars?_chars]

end DocAccess.Rfc3339
