/-! Points in universal time as calendars and clocks show them. -/

set_option autoImplicit false

namespace ClearNames

structure Moment where
  year : Nat
  month : Nat
  day : Nat
  hour : Nat
  minute : Nat
  second : Nat
  millisecond : Nat
  deriving DecidableEq, Repr

namespace Moment

/-- The moment that lies some milliseconds after the start of 1970, in universal
time. Years are counted from March, so that a leap day ends one, and in eras
of 400 years. -/
def ofUnixMilliseconds (milliseconds : Nat) : Moment :=
  let seconds := milliseconds / 1000
  let days := seconds / 86400 + 719468
  let dayOfEra := days % 146097
  let yearOfEra := (dayOfEra - dayOfEra / 1460 + dayOfEra / 36524 - dayOfEra / 146096) / 365
  let dayOfYear := dayOfEra - (365 * yearOfEra + yearOfEra / 4 - yearOfEra / 100)
  let fromMarch := (5 * dayOfYear + 2) / 153
  let month := if fromMarch < 10 then fromMarch + 3 else fromMarch - 9
  { year := yearOfEra + days / 146097 * 400 + (if month ≤ 2 then 1 else 0)
    month
    day := dayOfYear - (153 * fromMarch + 2) / 5 + 1
    hour := seconds % 86400 / 3600
    minute := seconds % 3600 / 60
    second := seconds % 60
    millisecond := milliseconds % 1000 }

def dayNumber (year month day : Nat) : Nat :=
  let year := if month ≤ 2 then year - 1 else year
  let fromMarch := (month + 9) % 12
  365 * year + year / 4 - year / 100 + year / 400 + (153 * fromMarch + 2) / 5 + day - 1

def day0 (moment : Moment) : Nat := dayNumber moment.year moment.month moment.day

def weekday (moment : Moment) : Nat := (moment.day0 + 3) % 7

def yearDay (moment : Moment) : Nat := moment.day0 - dayNumber moment.year 1 1

def unixSeconds (moment : Moment) : Nat :=
  (moment.day0 - dayNumber 1970 1 1) * 86400 + moment.hour * 3600 + moment.minute * 60 + moment.second

/-- The year and the number of the week, which belongs to the year that has
its Thursday. -/
def week (moment : Moment) : Nat × Nat :=
  let thursday := moment.day0 + 3 - (moment.weekday + 6) % 7
  let year :=
    if thursday < dayNumber moment.year 1 1 then moment.year - 1
    else if thursday < dayNumber (moment.year + 1) 1 1 then moment.year else moment.year + 1
  (year, (thursday - dayNumber year 1 1) / 7 + 1)

end Moment

end ClearNames
