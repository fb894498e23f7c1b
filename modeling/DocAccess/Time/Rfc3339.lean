import DocAccess.Text.Blank
import DocAccess.Text.Numeral
import DocAccess.Time.Calendar
import DocAccess.Time.Civil

/-!
# Times as text

A time is written in the profile of RFC 3339 with the zone `Z`. Its fraction
has no digits or three, six or nine, the fewest that are exact; a year above
9999 has a plus sign and a year below zero a minus sign.

Reading is wider: blanks may stand before each number, sign and colon, the
date may be followed by `T` or a blank, numbers may lack leading zeros, and
any offset below a day is taken off. An offset is always required. Any minute
may have a second 60, which is written as it is read.
-/

set_option autoImplicit false

namespace DocAccess.Rfc3339

def minutesPerDay : Int := 1440

/-- The text of a year: four digits, or a sign and at least four. -/
def yearChars (year : Int) : List Char :=
  if year < 0 then '-' :: Numeral.padded 4 year.natAbs
  else if 9999 < year then '+' :: Numeral.padded 4 year.natAbs
  else Numeral.fixed 4 year.natAbs

/-- The fraction of a second with the fewest digits of 0, 3, 6 and 9 that
shows its nanoseconds. -/
def fractionChars (nanos : Nat) : List Char :=
  if nanos = 0 then []
  else if nanos % 1000000 = 0 then '.' :: Numeral.fixed 3 (nanos / 1000000)
  else if nanos % 1000 = 0 then '.' :: Numeral.fixed 6 (nanos / 1000)
  else '.' :: Numeral.fixed 9 nanos

def dateChars (date : CivilDate) : List Char :=
  yearChars date.year ++ '-' :: Numeral.fixed 2 date.month ++ '-' :: Numeral.fixed 2 date.day

/-- The text of a time of day, given as a minute of the day and a second. -/
def clockChars (minute second : Nat) : List Char :=
  Numeral.fixed 2 (minute / 60) ++ ':' :: Numeral.fixed 2 (minute % 60) ++
    ':' :: Numeral.fixed 2 second

def chars (time : CivilTime) : List Char :=
  dateChars (CivilDate.ofDays (time.minute / minutesPerDay)) ++
    'T' :: clockChars (time.minute % minutesPerDay).toNat time.second.val ++
    fractionChars time.nanos.val ++ ['Z']

def text (time : CivilTime) : String :=
  String.ofList (chars time)

/-- A number of one or two digits after blanks, within bounds. -/
def readField? (least most : Nat) (source : List Char) : Option (Nat × List Char) := do
  let (value, rest) ← Numeral.read? 2 (trimStart source)
  if least ≤ value ∧ value ≤ most then some (value, rest) else none

/-- What follows a given sign, blanks before it skipped. -/
def skipSign? (sign : Char) (source : List Char) : Option (List Char) :=
  match trimStart source with
  | [] => none
  | c :: rest => if c = sign then some rest else none

/-- A year: up to four digits, or any number of them after a sign. -/
def readYear? (source : List Char) : Option (Int × List Char) :=
  match trimStart source with
  | '-' :: rest => (Numeral.read? rest.length rest).map fun (value, tail) => (-(value : Int), tail)
  | '+' :: rest => (Numeral.read? rest.length rest).map fun (value, tail) => ((value : Int), tail)
  | rest => (Numeral.read? 4 rest).map fun (value, tail) => ((value : Int), tail)

/-- A date that the calendar has. -/
def readDate? (source : List Char) : Option (CivilDate × List Char) := do
  let (year, rest) ← readYear? source
  let rest ← skipSign? '-' rest
  let (month, rest) ← readField? 1 12 rest
  let rest ← skipSign? '-' rest
  let (day, rest) ← readField? 1 31 rest
  let date : CivilDate := ⟨year, month, day⟩
  if date.isValid then some (date, rest) else none

/-- A time of day: a minute of the day, a second of it, and what follows. -/
def readClock? (source : List Char) : Option (Nat × Fin 61 × List Char) := do
  let (hour, rest) ← readField? 0 23 source
  let rest ← skipSign? ':' rest
  let (minute, rest) ← readField? 0 59 rest
  let rest ← skipSign? ':' rest
  let (second, rest) ← readField? 0 60 rest
  return (hour * 60 + minute, ⟨second % 61, Nat.mod_lt _ (by decide)⟩, rest)

/-- A fraction of a second, in nanoseconds; digits beyond the ninth are
skipped. Without a point there is no fraction. -/
def readFraction? : List Char → Option (Fin 1000000000 × List Char)
  | '.' :: rest =>
      match Numeral.takeDigits 9 rest with
      | ([], _) => none
      | (digits, tail) =>
          let filled := digits ++ List.replicate (9 - digits.length) '0'
          some (Fin.ofNat 1000000000 (Numeral.value filled), tail.dropWhile Numeral.isDigit)
  | rest => some (0, rest)

/-- Hours and minutes of an offset, in minutes; colons and blanks may stand
between them. -/
def readHoursMinutes? (source : List Char) : Option (Nat × List Char) :=
  match source with
  | h₁ :: h₂ :: rest =>
      if Numeral.isDigit h₁ && Numeral.isDigit h₂ then
        match rest.dropWhile fun c => c = ':' || isBlank c with
        | m₁ :: m₂ :: tail =>
            if Numeral.isDigit m₁ && Numeral.isDigit m₂ && Numeral.digitValue m₁ < 6 then
              some (Numeral.value [h₁, h₂] * 60 + Numeral.value [m₁, m₂], tail)
            else none
        | _ => none
      else none
  | _ => none

/-- The offset of a zone from universal time, in minutes. -/
def readOffset? (source : List Char) : Option (Int × List Char) :=
  let source := trimStart source
  if (source.take 3).map Char.toUpper = ['U', 'T', 'C'] then some (0, source.drop 3)
  else
    match source with
    | 'Z' :: rest => some (0, rest)
    | 'z' :: rest => some (0, rest)
    | '+' :: rest => (readHoursMinutes? rest).map fun (value, tail) => ((value : Int), tail)
    | '-' :: rest => (readHoursMinutes? rest).map fun (value, tail) => (-(value : Int), tail)
    | '\u2212' :: rest => (readHoursMinutes? rest).map fun (value, tail) => (-(value : Int), tail)
    | _ => none

/-- The time at a local reading, or none where the calendar ends. Both the
local reading and the time must lie within the calendar. -/
def ofLocal? (date : CivilDate) (minute : Nat) (second : Fin 61) (nanos : Fin 1000000000)
    (offset : Int) : Option CivilTime :=
  let reading := date.toDays * minutesPerDay + minute
  if -minutesPerDay < offset ∧ offset < minutesPerDay then
    (CivilTime.ofMinute? reading second nanos).bind fun _ =>
      CivilTime.ofMinute? (reading - offset) second nanos
  else none

/-- The time that a whole text spells. -/
def ofChars? (source : List Char) : Option CivilTime := do
  let (date, rest) ← readDate? source
  let rest ← match rest with
    | 'T' :: rest => some rest
    | 't' :: rest => some rest
    | ' ' :: rest => some rest
    | _ => none
  let (minute, second, rest) ← readClock? rest
  let (nanos, rest) ← readFraction? rest
  let (offset, rest) ← readOffset? rest
  if (trimStart rest).isEmpty then ofLocal? date minute second nanos offset else none

def ofText? (source : String) : Option CivilTime :=
  ofChars? source.toList

end DocAccess.Rfc3339
