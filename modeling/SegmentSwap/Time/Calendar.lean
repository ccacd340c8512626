/-!
# The calendar

Dates of the Gregorian calendar, extended to all years from 1 on, and their ordinals: the number of
days up to the date, the first of January of year 1 counting as day one. `Date.ofOrdinal` goes back
by splitting the days before the date into cycles of 400, 100, 4 and 1 years.
-/

namespace SegmentSwap.Time

/-- Whether a year has 366 days. -/
def isLeap (year : Nat) : Bool :=
  year % 4 == 0 && (year % 100 != 0 || year % 400 == 0)

/-- The lengths of the months of a year. -/
def monthLengths (leap : Bool) : List Nat :=
  [31, if leap then 29 else 28, 31, 30, 31, 30, 31, 31, 30, 31, 30, 31]

/-- The number of days in a month of a year, none for a month out of range. -/
def daysInMonth (year month : Nat) : Nat :=
  if month = 0 then 0 else (monthLengths (isLeap year)).getD (month - 1) 0

/-- The number of days before the first of January of a year. -/
def daysBeforeYear (year : Nat) : Nat :=
  let y := year - 1
  365 * y + y / 4 - y / 100 + y / 400

/-- A date. -/
structure Date where
  year : Nat
  month : Nat
  day : Nat
  deriving DecidableEq, Repr

namespace Date

/-- Whether the date exists in a year between 1 and 9999. -/
def isValid (d : Date) : Bool :=
  decide (1 ≤ d.year) && decide (d.year ≤ 9999) && decide (1 ≤ d.month) && decide (d.month ≤ 12) &&
    decide (1 ≤ d.day) && decide (d.day ≤ daysInMonth d.year d.month)

/-- The number of days up to the date. -/
def ordinal (d : Date) : Nat :=
  let before := (monthLengths (isLeap d.year)).take (d.month - 1)
  daysBeforeYear d.year + before.foldr (· + ·) 0 + d.day

/-- The month and the day with `rest` days before them among months of the given lengths. -/
def splitMonth (month : Nat) : List Nat → (rest : Nat) → Nat × Nat
  | [], rest => (month, rest + 1)
  | length :: lengths, rest =>
    if rest < length then (month, rest + 1) else splitMonth (month + 1) lengths (rest - length)

/-- The date with the given ordinal. -/
def ofOrdinal (n : Nat) : Date :=
  let days := n - 1
  let centuries := min 3 (days % 146097 / 36524)
  let rest := days % 146097 - 36524 * centuries
  let years := min 3 (rest % 1461 / 365)
  let year := 400 * (days / 146097) + 100 * centuries + 4 * (rest / 1461) + years + 1
  let (month, day) := splitMonth 1 (monthLengths (isLeap year)) (rest % 1461 - 365 * years)
  ⟨year, month, day⟩

/-- The day of the week of an ordinal, Monday being 0. -/
def weekday (ordinal : Nat) : Nat := (ordinal + 6) % 7

/-- The ordinal of the Monday that starts the first week of a year: the week of the year's first
Thursday. -/
def firstMonday (year : Nat) : Int :=
  let first : Int := daysBeforeYear year + 1
  let day : Int := weekday (daysBeforeYear year + 1)
  if day ≤ 3 then first - day else first - day + 7

/-- Whether a year has a fifty-third week. -/
def hasLongWeekYear (year : Nat) : Bool :=
  let day := weekday (daysBeforeYear year + 1)
  day == 3 || (day == 2 && isLeap year)

/-- The date of a day in a week of a year, if the year has that week and the week that day. The
weeks of year 0 lie before the calendar, which has no months there. -/
def ofWeek? (year week day : Nat) : Option Date :=
  if week = 0 || 53 < week || (week == 53 && !hasLongWeekYear year) then none
  else if day = 0 || 7 < day then none
  else if year = 0 then some ⟨1, 0, day⟩
  else some (ofOrdinal (firstMonday year + (week - 1) * 7 + (day - 1)).toNat)

end Date

end SegmentSwap.Time
