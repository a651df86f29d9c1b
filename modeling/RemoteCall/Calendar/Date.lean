import RemoteCall.Text.Padded

/-!
# Dates

A date is a number of days in the proleptic Gregorian calendar; the first of January of the year 1
is day 1. The calendar reaches from the year -262143 to the year 262142.
-/

namespace RemoteCall

/-- A day of the proleptic Gregorian calendar. -/
structure Date where
  /-- Days, counted so that 0001-01-01 is day 1. -/
  days : Int
  /-- The day lies between -262143-01-01 and 262142-12-31. -/
  inRange : -95746129 ≤ days ∧ days ≤ 95745399
  deriving DecidableEq

namespace Date

/-- The date of a day number inside the calendar. -/
def ofDays? (days : Int) : Option Date :=
  if h : -95746129 ≤ days ∧ days ≤ 95745399 then some ⟨days, h⟩ else none

/-- A date is read back from its day count. -/
theorem ofDays?_days (d : Date) : ofDays? d.days = some d := dif_pos d.inRange

/-- Year, month and day of the month. -/
structure Parts where
  year : Int
  month : Nat
  day : Nat
  deriving DecidableEq

/-- Years are counted from the first of March, so that a leap day ends its year. Four centuries
are 146097 days. -/
def parts (d : Date) : Parts :=
  let shifted := d.days + 305
  let cycle := Int.fdiv shifted 146097
  let dayOfCycle := (Int.fmod shifted 146097).toNat
  let yearOfCycle :=
    (dayOfCycle - dayOfCycle / 1460 + dayOfCycle / 36524 - dayOfCycle / 146096) / 365
  let dayOfYear := dayOfCycle - (365 * yearOfCycle + yearOfCycle / 4 - yearOfCycle / 100)
  let monthFromMarch := (5 * dayOfYear + 2) / 153
  let month := if monthFromMarch < 10 then monthFromMarch + 3 else monthFromMarch - 9
  { year := yearOfCycle + cycle * 400 + if month ≤ 2 then 1 else 0
    month
    day := dayOfYear - (153 * monthFromMarch + 2) / 5 + 1 }

/-- A year with four digits, and with a sign if it lies outside 0 to 9999. -/
def yearText (year : Int) : String :=
  let digits := Text.padded 4 year.natAbs
  if 0 ≤ year ∧ year ≤ 9999 then digits else (if year < 0 then "-" else "+") ++ digits

/-- Year, month and day of the month, joined by hyphens. -/
def text (d : Date) : String :=
  let p := d.parts
  yearText p.year ++ "-" ++ Text.padded 2 p.month ++ "-" ++ Text.padded 2 p.day

end Date

end RemoteCall
