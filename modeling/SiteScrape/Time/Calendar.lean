/-!
# The Gregorian calendar

A day is a whole number, counted from 1970-01-01. Years run from -262143 to
262142. Weekdays are numbered from Monday, 0 to 6.
-/

namespace SiteScrape.Calendar

def minYear : Int := -262143
def maxYear : Int := 262142

def isLeap (year : Int) : Bool :=
  year % 4 == 0 && (year % 100 != 0 || year % 400 == 0)

def daysInYear (year : Int) : Nat := if isLeap year then 366 else 365

/-- The length of a month, numbered from 1. -/
def daysInMonth (year : Int) (month : Nat) : Nat :=
  match month with
  | 2 => if isLeap year then 29 else 28
  | 4 | 6 | 9 | 11 => 30
  | _ => 31

/-- The days of the year before a month. -/
def daysBeforeMonth (year : Int) (month : Nat) : Nat :=
  (List.range (month - 1)).foldl (fun days m => days + daysInMonth year (m + 1)) 0

/-- The day of January 1st. -/
def yearStart (year : Int) : Int :=
  let y := year - 1
  365 * y + y / 4 - y / 100 + y / 400 - 719162

/-- The year that a day falls into. -/
def yearOf (day : Int) : Int :=
  let guess := 1970 + day * 400 / 146097
  if day < yearStart guess then guess - 1
  else if yearStart (guess + 1) ≤ day then guess + 1
  else guess

/-- The place of a day in its year, from 1. -/
def ordinalOf (day : Int) : Nat := (day - yearStart (yearOf day)).toNat + 1

/-- The month and the day of the month at a place in the year, from `month` on. -/
def monthAndDay (year : Int) (month : Nat) (ordinal : Nat) : Nat → Nat × Nat
  | 0 => (month, ordinal)
  | later + 1 =>
    let length := daysInMonth year month
    if ordinal ≤ length then (month, ordinal)
    else monthAndDay year (month + 1) (ordinal - length) later

/-- A day written as year, month and day of the month. -/
structure Date where
  year : Int
  month : Nat
  day : Nat
  deriving DecidableEq, Repr

/-- The written form of a day. -/
def dateOf (day : Int) : Date :=
  let (month, dayOfMonth) := monthAndDay (yearOf day) 1 (ordinalOf day) 11
  ⟨yearOf day, month, dayOfMonth⟩

def weekdayOf (day : Int) : Nat := ((day + 3) % 7).toNat

def inRange (year : Int) : Bool := minYear ≤ year && year ≤ maxYear

/-- The day at a place in a year, from 1. -/
def ofOrdinal? (year : Int) (ordinal : Nat) : Option Int :=
  if inRange year && 1 ≤ ordinal && ordinal ≤ daysInYear year then
    some (yearStart year + (ordinal - 1 : Nat))
  else none

/-- The day that a date names. -/
def ofDate? (d : Date) : Option Int :=
  if 1 ≤ d.month && d.month ≤ 12 && 1 ≤ d.day && d.day ≤ daysInMonth d.year d.month then
    ofOrdinal? d.year (daysBeforeMonth d.year d.month + d.day)
  else none

/-- The week of a day by the rule that a week belongs to the year of its
Thursday: year and week, from 1. -/
def isoWeekOf (day : Int) : Int × Nat :=
  let thursday := day - weekdayOf day + 3
  (yearOf thursday, (ordinalOf thursday - 1) / 7 + 1)

/-- The day of a weekday in a numbered week of a year. -/
def ofIsoWeek? (year : Int) (week weekday : Nat) : Option Int :=
  let january4 := yearStart year + 3
  let day := january4 - weekdayOf january4 + 7 * ((week : Int) - 1) + weekday
  if isoWeekOf day = (year, week) && inRange (yearOf day) then some day else none

/-- The days from weekday `start` to weekday `w`, going forward. -/
def daysSince (w start : Nat) : Nat := (w + 7 - start) % 7

/-- The week of a day when weeks begin on weekday `start` and the days before
the first such day form week 0. -/
def weekFrom (start : Nat) (day : Int) : Nat :=
  (ordinalOf day + 6 - daysSince (weekdayOf day) start) / 7

/-- The day of a weekday in a week counted as `weekFrom` does. -/
def ofWeek? (year : Int) (week weekday start : Nat) : Option Int := do
  let first ← ofOrdinal? year 1
  let weekStart := 1 + daysSince start (weekdayOf first)
  let ordinal := (weekStart : Int) + ((week : Int) - 1) * 7 + daysSince weekday start
  if ordinal ≤ 0 then none else ofOrdinal? year ordinal.toNat

/-- The same day `months` months earlier; a day that the month lacks becomes
its last. -/
def monthsBefore? (day : Int) (months : Nat) : Option Int :=
  let d := dateOf day
  let count := d.year * 12 + (d.month : Int) - 1 - months
  let year := count / 12
  let month := (count % 12).toNat + 1
  ofDate? ⟨year, month, min d.day (daysInMonth year month)⟩

example : (dateOf 0, weekdayOf 0) = (⟨1970, 1, 1⟩, 3) := by decide
example : ofDate? ⟨2024, 2, 29⟩ = some 19782 ∧ dateOf 19782 = ⟨2024, 2, 29⟩ := by decide
example : ofDate? ⟨1900, 2, 29⟩ = none := by decide
example : isoWeekOf 19723 = (2024, 1) ∧ ofIsoWeek? 2020 53 6 = some 18630 := by decide

end SiteScrape.Calendar
