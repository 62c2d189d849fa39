/-!
# Dates

The civil date of a moment that is given in seconds since the start of 1970, and its text. Days
are counted from the first of March of the year zero of the Gregorian calendar, so that a leap
day is the last day of its year and 400 years always have 146097 days.

## Main definitions

* `Moment`: a second, counted from the start of 1970;
* `CivilDate.ofDays`: the date of a day;
* `Moment.text`: date and time in the form `2024-05-01T12:30:00Z`.
-/

namespace ScriptBundle

/-- A **moment** in universal time. A leap second follows the second that is counted. -/
structure Moment where
  seconds : Int
  inLeapSecond : Bool := false
  deriving DecidableEq, Repr

/-- A date of the Gregorian calendar, continued to all years. -/
structure CivilDate where
  year : Int
  month : Nat
  day : Nat
  deriving DecidableEq, Repr

/-- The date of a day that is counted from the first of January 1970. -/
def CivilDate.ofDays (days : Int) : CivilDate :=
  let shifted := days + 719468
  let cycle := shifted.fdiv 146097
  let dayOfCycle := (shifted - cycle * 146097).toNat
  let yearOfCycle :=
    (dayOfCycle - dayOfCycle / 1460 + dayOfCycle / 36524 - dayOfCycle / 146096) / 365
  let dayOfYear := dayOfCycle - (365 * yearOfCycle + yearOfCycle / 4 - yearOfCycle / 100)
  let monthFromMarch := (5 * dayOfYear + 2) / 153
  let day := dayOfYear - (153 * monthFromMarch + 2) / 5 + 1
  let month := if monthFromMarch < 10 then monthFromMarch + 3 else monthFromMarch - 9
  ⟨yearOfCycle + cycle * 400 + (if month ≤ 2 then 1 else 0), month, day⟩

/-- A number with zeros in front of it up to the given number of digits. -/
def zeroPadded (width n : Nat) : String :=
  let digits := Nat.toDigits 10 n
  String.ofList (List.replicate (width - digits.length) '0' ++ digits)

/-- A year in four digits. Years that need a sign or a fifth digit are written with a sign. -/
def yearText (year : Int) : String :=
  let digits := zeroPadded 4 year.natAbs
  if year < 0 then "-" ++ digits else if 9999 < year then "+" ++ digits else digits

/-- A date in the order year, month, day. -/
def CivilDate.text (d : CivilDate) : String :=
  yearText d.year ++ "-" ++ zeroPadded 2 d.month ++ "-" ++ zeroPadded 2 d.day

/-- Date and time of a moment, to the second. -/
def Moment.text (m : Moment) : String :=
  let days := m.seconds.fdiv 86400
  let inDay := (m.seconds - days * 86400).toNat
  let second := inDay % 60 + if m.inLeapSecond then 1 else 0
  (CivilDate.ofDays days).text ++ "T" ++ zeroPadded 2 (inDay / 3600) ++ ":" ++
    zeroPadded 2 (inDay / 60 % 60) ++ ":" ++ zeroPadded 2 second ++ "Z"

end ScriptBundle
