import SiteScrape.Time.Calendar

/-!
# Moments

A moment is a number of milliseconds from the beginning of 1970 in UTC, inside
the years of the calendar. An offset is a number of seconds east of UTC, less
than a day either way.
-/

namespace SiteScrape.Moment

def second : Int := 1000
def minute : Int := 60 * second
def hour : Int := 60 * minute
def day : Int := 24 * hour

/-- The first moment of the calendar. -/
def earliest : Int := Calendar.yearStart Calendar.minYear * day

/-- The first moment behind the calendar. -/
def bound : Int := Calendar.yearStart (Calendar.maxYear + 1) * day

/-- The milliseconds `ms`, if they are a moment of the calendar. -/
def within? (ms : Int) : Option Int :=
  if earliest ≤ ms && ms < bound then some ms else none

/-- The day of a moment. -/
def dayOf (ms : Int) : Int := ms / day

/-- The milliseconds of a moment since midnight. -/
def timeOfDay (ms : Int) : Int := ms % day

/-- The same time of day `months` months earlier. -/
def monthsBefore? (ms : Int) (months : Nat) : Option Int :=
  (Calendar.monthsBefore? (dayOf ms) months).map fun d => d * day + timeOfDay ms

/-- The moment that a local date and time names at an offset. -/
def ofLocal? (offset : Int) (localMs : Int) : Option Int :=
  (within? (localMs / second * second - offset * second)).map (· + localMs % second)

theorem within?_eq_some {ms t : Int} : within? ms = some t ↔ ms = t ∧ earliest ≤ t ∧ t < bound := by
  unfold within?
  split <;> simp_all <;> omega

end SiteScrape.Moment
