import DocAccess.ValueError

/-!
# Points in time

A point in time is a whole number of microseconds since the epoch and a
remainder of up to 999 nanoseconds. Stored times have no remainder; a time
that a client hands in may have one.

The clock is a value that callers supply. It may stand before the epoch, where
it cannot be read.
-/

set_option autoImplicit false

namespace DocAccess

/-- A point in time within the calendar's range. -/
structure Timestamp where
  /-- Whole microseconds since the epoch, rounded down. -/
  micros : Int
  /-- The nanoseconds beyond them. -/
  subNanos : Fin 1000
  lower : -8334601228800000000 ≤ micros
  upper : micros ≤ 8210266876799999999
  deriving DecidableEq

namespace Timestamp

def minMicros : Int := -8334601228800000000

def maxMicros : Int := 8210266876799999999

/-- The point in time at a count of microseconds and a remainder, if the
calendar reaches it. -/
def ofParts? (micros : Int) (subNanos : Fin 1000) : Option Timestamp :=
  if inRange : minMicros ≤ micros ∧ micros ≤ maxMicros then
    some ⟨micros, subNanos, inRange.1, inRange.2⟩
  else none

/-- The point in time at a whole count of microseconds, if the calendar reaches
it. -/
def atMicros? (micros : Int) : Option Timestamp :=
  ofParts? micros 0

/-- The point in time at a count of microseconds. -/
def ofMicros (micros : Int) : Except ValueError Timestamp :=
  match atMicros? micros with
  | some time => .ok time
  | none => .error (.timestampOutOfRange micros)

/-- Rounded down to whole microseconds. -/
def truncate (time : Timestamp) : Timestamp :=
  { time with subNanos := 0 }

/-- Whether the time has no remainder below a microsecond. -/
def isWhole (time : Timestamp) : Bool :=
  time.subNanos = 0

/-- Nanoseconds since the epoch, by which times are ordered. -/
def nanos (time : Timestamp) : Int :=
  time.micros * 1000 + time.subNanos.val

/-- Whether one point in time comes before another, to the nanosecond. -/
def before (a b : Timestamp) : Bool :=
  a.nanos < b.nanos

instance : Inhabited Timestamp := ⟨⟨0, 0, by decide, by decide⟩⟩

@[simp]
theorem isWhole_truncate (time : Timestamp) : time.truncate.isWhole = true := by
  simp [isWhole, truncate]

theorem truncate_eq_self_iff (time : Timestamp) : time.truncate = time ↔ time.isWhole = true := by
  cases time
  simp [truncate, isWhole, eq_comm]

/-- The microseconds of a time lead back to it, rounded down. -/
@[simp]
theorem ofMicros_micros (time : Timestamp) : ofMicros time.micros = .ok time.truncate := by
  have inRange : minMicros ≤ time.micros ∧ time.micros ≤ maxMicros := ⟨time.lower, time.upper⟩
  simp [ofMicros, atMicros?, ofParts?, inRange, truncate]

theorem micros_of_atMicros? {micros : Int} {time : Timestamp}
    (found : atMicros? micros = some time) : time.micros = micros ∧ time.isWhole = true := by
  unfold atMicros? ofParts? at found
  split at found
  · cases found; exact ⟨rfl, rfl⟩
  · cases found

end Timestamp

/-- A reading of the clock, which may lie before the epoch. -/
structure Clock where
  micros : Int
  subNanos : Fin 1000
  deriving DecidableEq, Repr

namespace Clock

/-- The current time in whole microseconds. A clock that stands before the
epoch or beyond the calendar cannot be read. -/
def now? (clock : Clock) : Option Timestamp :=
  if 0 ≤ clock.micros then Timestamp.atMicros? clock.micros else none

theorem isWhole_of_now? {clock : Clock} {now : Timestamp} (read : clock.now? = some now) :
    now.isWhole = true := by
  unfold now? at read
  split at read
  · exact (Timestamp.micros_of_atMicros? read).2
  · cases read

/-- The clock moved by a number of microseconds; its nanoseconds stay. -/
def advance (clock : Clock) (micros : Int) : Clock :=
  { clock with micros := clock.micros + micros }

/-- The clock moved, if it can show that: it counts microseconds in 64 bits. -/
def advance? (clock : Clock) (micros : Int) : Option Clock :=
  let moved := clock.advance micros
  if -9223372036854775808 ≤ moved.micros ∧ moved.micros ≤ 9223372036854775807 then some moved
  else none

end Clock
end DocAccess
