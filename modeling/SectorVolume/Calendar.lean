/-!
# Dates

The date and time of day of a moment that is given in seconds since the beginning of 1970, in the
calendar with a leap year every four years except in three of four century years. Years run from
`-262143` to `262142`; a moment outside these years has no date here.
-/

namespace SectorVolume

/-- A date and a time of day. -/
structure Moment where
  /-- The year; year 0 is the one before year 1. -/
  year : Int
  /-- The month, from 1 on. -/
  month : Nat
  /-- The day of the month, from 1 on. -/
  day : Nat
  /-- The full hours since midnight. -/
  hour : Nat
  /-- The full minutes of the hour. -/
  minute : Nat
  /-- The full seconds of the minute. -/
  second : Nat
  deriving DecidableEq, Repr

namespace Moment

/-- The number of days in 400 years. -/
def daysPerCycle : Nat := 146097

/-- Year, month and day of a day that is counted from the first of March of year 0, so that the leap
day is the last day of its year. -/
def dateOfDay (day : Int) : Int × Nat × Nat :=
  let cycle := day.fdiv daysPerCycle
  let dayOfCycle := (day.fmod daysPerCycle).toNat
  let yearOfCycle :=
    (dayOfCycle - dayOfCycle / 1460 + dayOfCycle / 36524 - dayOfCycle / 146096) / 365
  let dayOfYear := dayOfCycle - (365 * yearOfCycle + yearOfCycle / 4 - yearOfCycle / 100)
  let monthOfYear := (5 * dayOfYear + 2) / 153
  let dayOfMonth := dayOfYear - (153 * monthOfYear + 2) / 5 + 1
  let month := if monthOfYear < 10 then monthOfYear + 3 else monthOfYear - 9
  let year := 400 * cycle + yearOfCycle + (if month ≤ 2 then 1 else 0)
  (year, month, dayOfMonth)

/-- The number of the first day of 1970, counted from the first of March of year 0. -/
def dayOf1970 : Int := 719468

/-- The first second of year `-262143`. -/
def earliest : Int := -8334601228800

/-- The last second of year `262142`. -/
def latest : Int := 8210266876799

/-- The moment `seconds` after the beginning of 1970. -/
def ofSeconds? (seconds : Int) : Option Moment :=
  if seconds < earliest ∨ latest < seconds then none
  else
    let (year, month, day) := dateOfDay (seconds.fdiv 86400 + dayOf1970)
    let time := (seconds.fmod 86400).toNat
    some ⟨year, month, day, time / 3600, time / 60 % 60, time % 60⟩

/-- A number with at least `width` digits. -/
def padded (width n : Nat) : String :=
  let digits := toString n
  String.ofList (List.replicate (width - digits.length) '0') ++ digits

/-- A year: four digits, or a sign and at least four digits. -/
def yearText (year : Int) : String :=
  if 0 ≤ year ∧ year ≤ 9999 then padded 4 year.toNat
  else (if year < 0 then "-" else "+") ++ padded 4 year.natAbs

/-- A moment in words, in the time zone that it is counted in. -/
def text (m : Moment) : String :=
  yearText m.year ++ "-" ++ padded 2 m.month ++ "-" ++ padded 2 m.day ++ "T" ++
  padded 2 m.hour ++ ":" ++ padded 2 m.minute ++ ":" ++ padded 2 m.second ++ "+00:00"

end Moment

end SectorVolume
