import DocAccess.Time.Timestamp

/-!
# Civil time

The time of day as universal time counts it: a minute, a second of that minute
and nanoseconds. A minute may have a second numbered 60, a leap second.

A point in time counted from the epoch never lies in a leap second. Outside leap
seconds the two are the same: every point in time has one civil time, and leads
back from it.
-/

set_option autoImplicit false

namespace DocAccess

/-- A time of the civil calendar, within the calendar's range. -/
structure CivilTime where
  /-- Minutes since the epoch, rounded down; a leap second belongs to the minute
  that it ends. -/
  minute : Int
  /-- The second of the minute; number 60 is a leap second. -/
  second : Fin 61
  nanos : Fin 1000000000
  lower : -138910020480 ≤ minute
  upper : minute < 136837781280
  deriving DecidableEq

namespace CivilTime

/-- The civil time at a count of minutes, if the calendar reaches it. -/
def ofMinute? (minute : Int) (second : Fin 61) (nanos : Fin 1000000000) : Option CivilTime :=
  if inRange : -138910020480 ≤ minute ∧ minute < 136837781280 then
    some ⟨minute, second, nanos, inRange.1, inRange.2⟩
  else none

def isLeap (time : CivilTime) : Bool :=
  time.second = 60

/-- The point in time, which there is outside leap seconds. -/
def timestamp? (time : CivilTime) : Option Timestamp :=
  if regular : time.second.val < 60 then
    some {
      micros := time.minute * 60000000 + (time.second.val * 1000000 + time.nanos.val / 1000 : Nat)
      subNanos := ⟨time.nanos.val % 1000, Nat.mod_lt _ (by decide)⟩
      lower := by have := time.lower; omega
      upper := by have := time.upper; have := time.nanos.isLt; omega }
  else none

end CivilTime

/-- The civil time of a point in time. -/
def Timestamp.civil (time : Timestamp) : CivilTime where
  minute := time.micros / 60000000
  second := ⟨(time.micros % 60000000).toNat / 1000000, by omega⟩
  nanos := ⟨(time.micros % 1000000).toNat * 1000 + time.subNanos.val, by
    have := time.subNanos.isLt; omega⟩
  lower := by have := time.lower; omega
  upper := by have := time.upper; omega

namespace CivilTime

/-- A point in time leads back from its civil time. -/
@[simp]
theorem timestamp?_civil (time : Timestamp) : time.civil.timestamp? = some time := by
  obtain ⟨micros, subNanos, lower, upper⟩ := time
  have small := subNanos.isLt
  have regular : (micros % 60000000).toNat / 1000000 < 60 := by omega
  unfold timestamp? Timestamp.civil
  rw [dif_pos regular]
  simp only [Option.some.injEq, Timestamp.mk.injEq]
  refine ⟨by omega, Fin.ext ?_⟩
  simp only
  omega

/-- A civil time is that of its point in time. -/
theorem civil_of_timestamp? {civil : CivilTime} {time : Timestamp}
    (found : civil.timestamp? = some time) : time.civil = civil := by
  obtain ⟨minute, second, nanos, lower, upper⟩ := civil
  have small := nanos.isLt
  unfold timestamp? at found
  split at found
  · rename_i regular
    cases found
    simp only [Timestamp.civil, CivilTime.mk.injEq]
    simp only at regular
    refine ⟨by omega, Fin.ext ?_, Fin.ext ?_⟩ <;> simp only <;> omega
  · cases found

/-- Only in a leap second is there no point in time. -/
theorem timestamp?_eq_none_iff (time : CivilTime) :
    time.timestamp? = none ↔ time.isLeap = true := by
  have small := time.second.isLt
  unfold timestamp? isLeap
  split
  · rename_i regular
    simp only [reduceCtorEq, decide_eq_true_eq, false_iff]
    intro leap
    rw [leap] at regular
    exact absurd regular (by decide)
  · rename_i leap
    simp only [decide_eq_true_eq, true_iff]
    exact Fin.ext (show time.second.val = 60 by omega)

end CivilTime
end DocAccess
