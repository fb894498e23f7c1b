import DocAccess.Time.Calendar

/-!
# Days and dates

Every day has one date, which the calendar has and which leads back to the day. A day is cut
into an era, a century, a run of four years, a year and a day of that year; both directions are
sums over these parts.
-/

set_option autoImplicit false

namespace DocAccess.CivilDate

/-! ## Years of an era -/

/-- The parts of a day of an era. The last day of a year is the leap day, which every fourth year
has, but for the last of a century that is not the last. -/
structure EraDay (century quad year day : Int) : Prop where
  centuries : 0 ≤ century ∧ century < 4
  quads : 0 ≤ quad ∧ quad < 25
  years : 0 ≤ year ∧ year < 4
  days : 0 ≤ day ∧ day ≤ 365
  leap : day = 365 → year = 3 ∧ (quad = 24 → century = 3)

theorem EraDay.fourths {century quad year day : Int} (parts : EraDay century quad year day) :
    (100 * century + 4 * quad + year) / 4 = 25 * century + quad := by
  have := parts.years
  omega

theorem EraDay.hundreds {century quad year day : Int} (parts : EraDay century quad year day) :
    (100 * century + 4 * quad + year) / 100 = century := by
  have := parts.quads
  have := parts.years
  omega

private theorem exists_eraDay {dayOfEra : Int} (lower : 0 ≤ dayOfEra) (upper : dayOfEra < 146097) :
    ∃ century quad year day, EraDay century quad year day ∧
      dayOfEra = 36524 * century + 1461 * quad + 365 * year + day := by
  -- The last century of an era and the last of four years are a day longer than the others.
  let century := min (dayOfEra / 36524) 3
  let ofCentury := dayOfEra - 36524 * century
  let quad := ofCentury / 1461
  let year := min (ofCentury % 1461 / 365) 3
  have centuries : 0 ≤ century ∧ century < 4 := by omega
  have inCentury : 0 ≤ ofCentury ∧ ofCentury ≤ 36524 ∧ (ofCentury = 36524 → century = 3) := by
    omega
  exact ⟨century, quad, year, ofCentury % 1461 - 365 * year,
    ⟨centuries, by omega, by omega, by omega, by omega⟩, by omega⟩

private theorem yearOfEra_eq {century quad year day dayOfEra : Int}
    (parts : EraDay century quad year day)
    (whole : 36524 * century + 1461 * quad + 365 * year + day = dayOfEra) :
    (dayOfEra - dayOfEra / 1460 + dayOfEra / 36524 - dayOfEra / 146096) / 365 =
      100 * century + 4 * quad + year := by
  obtain ⟨centuries, quads, years, days, leap⟩ := parts
  have within : 1461 * quad + 365 * year + day < 36524 ∨
      1461 * quad + 365 * year + day = 36524 ∧ century = 3 := by omega
  have hundreds : dayOfEra / 36524 - dayOfEra / 146096 = century := by
    rcases within with inner | ⟨last, three⟩
    · have none : dayOfEra / 146096 = 0 := by omega
      have counted : dayOfEra / 36524 = century := by omega
      omega
    · omega
  have leapDay : day = 365 → dayOfEra / 1460 = 25 * century + quad + 1 := by omega
  have firstDay : day = 0 → dayOfEra / 1460 = 25 * century + quad := by omega
  omega

/-! ## Months of a year -/

/-- The date of a day of a year that begins in March. -/
def ofMarch (year day : Int) : CivilDate :=
  let monthFromMarch := (5 * day + 2) / 153
  let month := if monthFromMarch < 10 then monthFromMarch + 3 else monthFromMarch - 9
  { year := if month ≤ 2 then year + 1 else year
    month := month.toNat
    day := (day - (153 * monthFromMarch + 2) / 5 + 1).toNat }

private theorem toDays_ofMarch {year day : Int} (lower : 0 ≤ day) (upper : day ≤ 365) :
    (ofMarch year day).toDays =
      year / 400 * 146097 + (year % 400 * 365 + year % 400 / 4 - year % 400 / 100 + day) -
        719468 := by
  unfold toDays ofMarch
  generalize march_eq : (5 * day + 2) / 153 = march
  have dayOfMonth : ((day - (153 * march + 2) / 5 + 1).toNat : Int) =
      day - (153 * march + 2) / 5 + 1 := Int.toNat_of_nonneg (by omega)
  by_cases early : march < 10
  · have later : ¬ march + 3 ≤ 2 := by omega
    have month : ¬ (march + 3).toNat ≤ 2 := by omega
    have back : (((march + 3).toNat + 9) % 12 : Nat) = march := by omega
    simp only [if_pos early, if_neg later, if_neg month, back, dayOfMonth]
    omega
  · have later : march - 9 ≤ 2 := by omega
    have month : (march - 9).toNat ≤ 2 := by omega
    have back : (((march - 9).toNat + 9) % 12 : Nat) = march := by omega
    simp only [if_neg early, if_pos later, if_pos month, back, dayOfMonth]
    omega

/-- Months that begin in March have 31 or 30 days by turns, which start anew with August; only
the last ends with the year. -/
private theorem isValid_ofMarch {year day : Int} (lower : 0 ≤ day) (upper : day ≤ 365)
    (leap : day = 365 → isLeap (year + 1) = true) : (ofMarch year day).isValid = true := by
  unfold isValid ofMarch
  generalize march_eq : (5 * day + 2) / 153 = march
  have firstDay : 1 ≤ (day - (153 * march + 2) / 5 + 1).toNat := by omega
  by_cases early : march < 10
  · have later : ¬ march + 3 ≤ 2 := by omega
    have month : 1 ≤ (march + 3).toNat ∧ (march + 3).toNat ≤ 12 := by omega
    simp only [if_pos early, if_neg later, month, firstDay, decide_true, Bool.and_self,
      Bool.true_and, decide_eq_true_eq, daysInMonth]
    rw [if_neg (by omega)]
    split <;> omega
  · have later : march - 9 ≤ 2 := by omega
    have month : 1 ≤ (march - 9).toNat ∧ (march - 9).toNat ≤ 12 := by omega
    simp only [if_neg early, if_pos later, month, firstDay, decide_true, Bool.and_self,
      Bool.true_and, decide_eq_true_eq, daysInMonth]
    by_cases last : day = 365
    · rw [if_pos (by omega), if_pos (leap last)]
      omega
    · split
      · split <;> omega
      · rw [if_neg (by omega)]
        omega

/-! ## All days -/

theorem exists_ofMarch (days : Int) : ∃ era century quad year day : Int,
    EraDay century quad year day ∧
    days + 719468 = 146097 * era + (36524 * century + 1461 * quad + 365 * year + day) ∧
    ofDays days = ofMarch (100 * century + 4 * quad + year + era * 400) day := by
  obtain ⟨century, quad, year, day, parts, inEra⟩ :=
    exists_eraDay (Int.emod_nonneg (days + 719468) (by decide : (146097 : Int) ≠ 0))
      (Int.emod_lt_of_pos (days + 719468) (by decide))
  have dayOfYear : (days + 719468) % 146097 - (365 * (100 * century + 4 * quad + year) +
      (100 * century + 4 * quad + year) / 4 - (100 * century + 4 * quad + year) / 100) = day := by
    rw [parts.fourths, parts.hundreds]
    omega
  refine ⟨(days + 719468) / 146097, century, quad, year, day, parts, by omega, ?_⟩
  unfold ofDays ofMarch
  simp only [yearOfEra_eq parts inEra.symm, dayOfYear]

/-- The date of a day leads back to the day. -/
theorem toDays_ofDays (days : Int) : (ofDays days).toDays = days := by
  obtain ⟨era, century, quad, year, day, parts, whole, date⟩ := exists_ofMarch days
  have eras : (100 * century + 4 * quad + year + era * 400) / 400 = era := by
    obtain ⟨centuries, quads, years, bounds, leap⟩ := parts
    omega
  have inEra : (100 * century + 4 * quad + year + era * 400) % 400 =
      100 * century + 4 * quad + year := by
    obtain ⟨centuries, quads, years, bounds, leap⟩ := parts
    omega
  rw [date, toDays_ofMarch parts.days.1 parts.days.2, eras, inEra, parts.fourths, parts.hundreds]
  omega

/-- The calendar has the date of every day. -/
theorem isValid_ofDays (days : Int) : (ofDays days).isValid = true := by
  obtain ⟨era, century, quad, year, day, parts, whole, date⟩ := exists_ofMarch days
  obtain ⟨centuries, quads, years, bounds, leap⟩ := parts
  rw [date]
  refine isValid_ofMarch bounds.1 bounds.2 fun last => ?_
  obtain ⟨fourth, exception⟩ := leap last
  simp only [isLeap, Bool.and_eq_true, Bool.or_eq_true, decide_eq_true_eq]
  omega

end DocAccess.CivilDate
