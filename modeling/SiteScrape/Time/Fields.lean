import SiteScrape.Time.Moment
import SiteScrape.Time.Pattern

/-!
# Collected parts of a date and time

Reading a text under a pattern collects parts, each within its own range. Two
parts of one kind must agree, and so must parts that say the same thing in
different ways, such as a weekday and a day of the month.
-/

namespace SiteScrape.Time

/-- A part in its stored form. -/
inductive Slot where
  | year
  | century
  | yearOfCentury
  | isoYear
  | isoYearOfCentury
  | quarter
  | month
  | day
  | weekFromSunday
  | weekFromMonday
  | isoWeek
  | weekday
  | dayOfYear
  | half
  | hourOfHalf
  | minute
  | second
  | nanosecond
  | epochSecond
  | offset
  deriving DecidableEq, Repr

/-- The least and the greatest value of a part. -/
def Slot.range : Slot → Int × Int
  | .year | .isoYear => (-0x80000000, 0x7fffffff)
  | .century => (0, 0x7fffffff)
  | .yearOfCentury | .isoYearOfCentury => (0, 99)
  | .quarter => (1, 4)
  | .month => (1, 12)
  | .day => (1, 31)
  | .weekFromSunday | .weekFromMonday => (0, 53)
  | .isoWeek => (1, 53)
  | .weekday => (0, 6)
  | .dayOfYear => (1, 366)
  | .half => (0, 1)
  | .hourOfHalf => (0, 11)
  | .minute => (0, 59)
  | .second => (0, 60)
  | .nanosecond => (0, 999999999)
  | .epochSecond => (-0x8000000000000000, 0x7fffffffffffffff)
  | .offset => (-0x80000000, 0x7fffffff)

/-- The parts collected so far. -/
abbrev Parts := List (Slot × Int)

namespace Parts

/-- The value of a part. -/
def get? (p : Parts) (s : Slot) : Option Int := p.lookup s

/-- Adds a part, if it is in range and agrees with one already there. -/
def put? (p : Parts) (s : Slot) (value : Int) : Option Parts :=
  if s.range.1 ≤ value && value ≤ s.range.2 then
    match p.get? s with
    | some old => if old = value then some p else none
    | none => some ((s, value) :: p)
  else none

/-- Adds the hour of the day as half and hour of the half. -/
def putHour? (p : Parts) (hour : Int) : Option Parts := do
  (← p.put? .half (hour / 12)).put? .hourOfHalf (hour % 12)

/-- Adds what a number stands for. -/
def putNumber? (p : Parts) (part : NumberPart) (n : Int) : Option Parts :=
  match part with
  | .year => p.put? .year n
  | .century => p.put? .century n
  | .yearOfCentury => p.put? .yearOfCentury n
  | .isoYear => p.put? .isoYear n
  | .isoYearOfCentury => p.put? .isoYearOfCentury n
  | .quarter => p.put? .quarter n
  | .month => p.put? .month n
  | .day => p.put? .day n
  | .weekFromSunday => p.put? .weekFromSunday n
  | .weekFromMonday => p.put? .weekFromMonday n
  | .isoWeek => p.put? .isoWeek n
  | .weekdayFromSunday => if n ≤ 6 then p.put? .weekday ((n + 6) % 7) else none
  | .weekdayFromMonday => p.put? .weekday (n - 1)
  | .dayOfYear => p.put? .dayOfYear n
  | .hour => p.putHour? n
  | .hourOfHalf => if 1 ≤ n && n ≤ 12 then p.put? .hourOfHalf (n % 12) else none
  | .minute => p.put? .minute n
  | .second => p.put? .second n
  | .nanosecond => p.put? .nanosecond n
  | .epochSecond => p.put? .epochSecond n

/-- Why parts do not make a date or a time. -/
inductive Fault where
  | outOfRange
  | impossible
  | notEnough
  deriving DecidableEq, Repr

/-- The year out of a full year, a century and a year of the century. A lone
year of a century lies from 1970 to 2069. -/
def year (full century ofCentury : Option Int) : Except Fault (Option Int) :=
  match full, century, ofCentury with
  | y, none, none => .ok y
  | some y, q, r =>
    if 0 ≤ y && q.getD (y / 100) == y / 100 && r.getD (y % 100) == y % 100 then .ok (some y)
    else .error .impossible
  | none, some q, some r =>
    if q * 100 + r < 0x80000000 then .ok (some (q * 100 + r)) else .error .outOfRange
  | none, none, some r => .ok (some (if r < 70 then r + 2000 else r + 1900))
  | none, some _, none => .error .notEnough

/-- A part has this value if it stands. -/
def agrees (p : Parts) (s : Slot) (value : Int) : Bool := (p.get? s).getD value == value

/-- A part stands only if it has a value to agree with. -/
def agreesIfAny (p : Parts) (s : Slot) (value : Option Int) : Bool :=
  match p.get? s with
  | some v => value == some v
  | none => true

/-- Year, month and day agree with a day. -/
def agreesWithDate (p : Parts) (day : Int) : Bool :=
  let d := Calendar.dateOf day
  let positive := 0 ≤ d.year
  p.agrees .year d.year &&
  p.agreesIfAny .century (if positive then some (d.year / 100) else none) &&
  p.agreesIfAny .yearOfCentury (if positive then some (d.year % 100) else none) &&
  p.agrees .month d.month && p.agrees .day d.day

/-- The week and the weekday agree with a day. -/
def agreesWithWeek (p : Parts) (day : Int) : Bool :=
  let (year, week) := Calendar.isoWeekOf day
  p.agrees .isoYear year &&
  p.agreesIfAny .isoYearOfCentury (if 0 ≤ year then some (year % 100) else none) &&
  p.agrees .isoWeek week && p.agrees .weekday (Calendar.weekdayOf day)

/-- The place in the year and the plain week numbers agree with a day. -/
def agreesWithOrdinal (p : Parts) (day : Int) : Bool :=
  p.agrees .dayOfYear (Calendar.ordinalOf day) &&
  p.agrees .weekFromSunday (Calendar.weekFrom 6 day) &&
  p.agrees .weekFromMonday (Calendar.weekFrom 0 day)

/-- The day from the first complete set of parts. -/
def day (p : Parts) : Except Fault Int := do
  let y ← year (p.get? .year) (p.get? .century) (p.get? .yearOfCentury)
  let isoY ← year (p.get? .isoYear) none (p.get? .isoYearOfCentury)
  let orRange (d : Option Int) : Except Fault Int :=
    match d with
    | some d => .ok d
    | none => .error .outOfRange
  let day ←
    match y, p.get? .month, p.get? .day, p.get? .dayOfYear, p.get? .weekFromSunday,
      p.get? .weekFromMonday, p.get? .weekday, isoY, p.get? .isoWeek with
    | some y, some m, some d, _, _, _, _, _, _ =>
      orRange (Calendar.ofDate? ⟨y, m.toNat, d.toNat⟩)
    | some y, _, _, some o, _, _, _, _, _ => orRange (Calendar.ofOrdinal? y o.toNat)
    | some y, _, _, _, some w, _, some d, _, _ =>
      orRange (Calendar.ofWeek? y w.toNat d.toNat 6)
    | some y, _, _, _, _, some w, some d, _, _ =>
      orRange (Calendar.ofWeek? y w.toNat d.toNat 0)
    | _, _, _, _, _, _, some d, some y, some w =>
      orRange (Calendar.ofIsoWeek? y w.toNat d.toNat)
    | _, _, _, _, _, _, _, _, _ => .error .notEnough
  if p.agreesWithDate day && p.agreesWithWeek day && p.agreesWithOrdinal day &&
      p.agrees .quarter (((Calendar.dateOf day).month + 2) / 3 : Nat) then .ok day
  else .error .impossible

/-- The nanoseconds since midnight; a sixtieth second runs over. -/
def time (p : Parts) : Except Fault Int := do
  let some half := p.get? .half | throw .notEnough
  let some hour := p.get? .hourOfHalf | throw .notEnough
  let some minute := p.get? .minute | throw .notEnough
  if (p.get? .nanosecond).isSome && (p.get? .second).isNone then throw .notEnough
  let seconds := (half * 12 + hour) * 3600 + minute * 60 + (p.get? .second).getD 0
  return seconds * 1000000000 + (p.get? .nanosecond).getD 0

/-- Seconds since the beginning of 1970. -/
def epochSeconds (day time : Int) : Int := day * 86400 + time / 1000000000

/-- Milliseconds since the beginning of 1970. -/
def epochMillis (day time : Int) : Int := day * Moment.day + time / 1000000

/-- The parts of a count of seconds since 1970, added to the others. -/
def withEpoch? (p : Parts) (seconds : Int) : Option Parts := do
  let _ ← Moment.within? (seconds * 1000)
  let (p, seconds) ←
    if p.get? .second = some 60 then
      match seconds % 60 with
      | 59 => some (p, seconds)
      | 0 => some (p, seconds - 1)
      | _ => none
    else (p.put? .second (seconds % 60)).map (·, seconds)
  let day := seconds / 86400
  let p ← p.put? .year (Calendar.yearOf day)
  let p ← p.put? .dayOfYear (Calendar.ordinalOf day)
  let p ← p.putHour? (seconds % 86400 / 3600)
  p.put? .minute (seconds % 3600 / 60)

/-- The local date and time that the parts name, in milliseconds since 1970. -/
def localMillis? (p : Parts) : Option Int :=
  match p.day, p.time with
  | .ok day, .ok time =>
    let seconds := epochSeconds day time
    match p.get? .epochSecond with
    | none => some (epochMillis day time)
    | some given =>
      if given = seconds || (p.get? .second = some 60 && given = seconds - 1) then
        some (epochMillis day time)
      else none
  | day, time =>
    match p.get? .epochSecond with
    | none => none
    | some given =>
      let broken (r : Except Fault Int) : Bool :=
        match r with
        | .error .outOfRange | .error .impossible => true
        | _ => false
      if broken day || broken time then none
      else do
        let p ← p.withEpoch? given
        let day ← p.day.toOption
        let time ← p.time.toOption
        some (epochMillis day time)

end Parts

end SiteScrape.Time
