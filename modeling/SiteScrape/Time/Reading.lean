import SiteScrape.Decimal.Power
import SiteScrape.Decimal.Reading
import SiteScrape.Text.Find
import SiteScrape.Time.Fields

/-!
# Reading dates

A text is read item by item under a date pattern and must be used up. A number
may be preceded by blanks, takes at most as many digits as its part has, and
more only for a year with a sign. Full moments in the form
`2024-01-02T03:04:05.678+08:00` are read on their own.
-/

namespace SiteScrape.Time

/-- The most digits a part is written with; nothing when there is no limit. -/
def NumberPart.width : NumberPart → Option Nat
  | .year | .isoYear => some 4
  | .quarter | .weekdayFromSunday | .weekdayFromMonday => some 1
  | .dayOfYear => some 3
  | .nanosecond => some 9
  | .epochSecond => none
  | _ => some 2

/-- May be written with a sign. -/
def NumberPart.isSigned : NumberPart → Bool
  | .year | .isoYear => true
  | _ => false

/-- A number of at least `least` and at most `most` digits below `2^63`, and the rest. -/
def number? (least : Nat) (most : Option Nat) (cs : List Char) : Option (Int × List Char) :=
  let digits := (match most with
    | some n => cs.take n
    | none => cs).takeWhile Char.isDigit
  let n := Decimal.natOf digits
  if digits.length < least || 0x8000000000000000 ≤ n then none
  else some (n, cs.drop digits.length)

/-- A number for a part, with a sign if the part may have one. -/
def numberFor? (part : NumberPart) (cs : List Char) : Option (Int × List Char) :=
  let cs := Text.trimLeft Text.isBlank cs
  match part.isSigned, cs with
  | true, '-' :: rest => (number? 1 none rest).map fun (n, rest) => (-n, rest)
  | true, '+' :: rest => number? 1 none rest
  | _, _ => number? 1 part.width cs

/-- The digits of a fraction as nanoseconds; those beyond the ninth are skipped. -/
def nanoseconds? (cs : List Char) : Option (Int × List Char) := do
  let (n, rest) ← number? 1 (some 9) cs
  let digits := cs.length - rest.length
  some (n * Decimal.tenTo (9 - digits), rest.dropWhile Char.isDigit)

/-- Exactly `digits` digits of a fraction as nanoseconds. -/
def exactNanoseconds? (digits : Nat) (cs : List Char) : Option (Int × List Char) :=
  (number? digits (some digits) cs).map fun (n, rest) => (n * Decimal.tenTo (9 - digits), rest)

def monthNames : List (String × String) :=
  [("jan", "uary"), ("feb", "ruary"), ("mar", "ch"), ("apr", "il"), ("may", ""), ("jun", "e"),
    ("jul", "y"), ("aug", "ust"), ("sep", "tember"), ("oct", "ober"), ("nov", "ember"),
    ("dec", "ember")]

def weekdayNames : List (String × String) :=
  [("mon", "day"), ("tue", "sday"), ("wed", "nesday"), ("thu", "rsday"), ("fri", "day"),
    ("sat", "urday"), ("sun", "day")]

/-- What follows `lead`, a text in small letters, whatever the case of ASCII letters. -/
def afterName (lead : String) (cs : List Char) : Option (List Char) :=
  if (cs.take lead.length).map Char.toLower = lead.toList then some (cs.drop lead.length) else none

/-- The place of the name that `cs` starts with, and the rest; the long form
takes the whole name if it is there. -/
def name? (names : List (String × String)) (long : Bool) (cs : List Char) :
    Option (Nat × List Char) :=
  names.zipIdx.findSome? fun ((short, more), i) =>
    (afterName short cs).map fun rest =>
      (i, if long then (afterName more rest).getD rest else rest)

/-- A sign, two digits of hours, a separator and two digits of minutes, as
seconds east of UTC. -/
def offset? (separator : List Char → Option (List Char)) (zulu minutesOptional : Bool)
    (cs : List Char) : Option (Int × List Char) := do
  let twoDigits (cs : List Char) : Option (Nat × List Char) :=
    match cs with
    | a :: b :: rest =>
      if a.isDigit && b.isDigit then some (Decimal.natOf [a, b], rest) else none
    | _ => none
  match zulu, cs with
  | true, 'Z' :: rest | true, 'z' :: rest => some (0, rest)
  | _, _ =>
    let (sign, cs) ←
      match cs with
      | '+' :: rest => some ((1 : Int), rest)
      | '-' :: rest | '−' :: rest => some (-1, rest)
      | _ => none
    let (hours, cs) ← twoDigits cs
    let cs ← separator cs
    if minutesOptional && cs.isEmpty then some (sign * (hours * 3600 : Nat), [])
    else
      let (minutes, rest) ← twoDigits cs
      if minutes ≤ 59 then some (sign * (hours * 3600 + minutes * 60 : Nat), rest) else none

/-- Skips colons and blanks. -/
def skipColons (cs : List Char) : Option (List Char) :=
  some (cs.dropWhile fun c => c = ':' || Text.isBlank c)

/-- Takes one character that must be there. -/
def expect (c : Char) (cs : List Char) : Option (List Char) :=
  match cs with
  | d :: rest => if c = d then some rest else none
  | [] => none

/-- Takes the letter or blank between date and time. -/
def expectTime (cs : List Char) : Option (List Char) :=
  match cs with
  | 'T' :: rest | 't' :: rest | ' ' :: rest => some rest
  | _ => none

/-- Reads one item other than a full moment. -/
def readSimple? (item : Item) (p : Parts) (cs : List Char) : Option (Parts × List Char) := do
  match item with
  | .literal text => some (p, ← Text.afterLead text cs)
  | .blanks => some (p, Text.trimLeft Text.isBlank cs)
  | .number part =>
    let (n, rest) ← numberFor? part cs
    some (← p.putNumber? part n, rest)
  | .monthName long =>
    let (i, rest) ← name? monthNames long cs
    some (← p.put? .month (i + 1), rest)
  | .weekdayName long =>
    let (i, rest) ← name? weekdayNames long cs
    some (← p.put? .weekday i, rest)
  | .halfOfDay =>
    match afterName "am" cs, afterName "pm" cs with
    | some rest, _ => some (← p.put? .half 0, rest)
    | _, some rest => some (← p.put? .half 1, rest)
    | _, _ => none
  | .fraction digits =>
    match cs with
    | '.' :: rest =>
      let (n, rest) ← match digits with
        | some d => exactNanoseconds? d rest
        | none => nanoseconds? rest
      some (← p.put? .nanosecond n, rest)
    | _ => some (p, cs)
  | .bareFraction digits =>
    let (n, rest) ← exactNanoseconds? digits cs
    some (← p.put? .nanosecond n, rest)
  | .zoneName => some (p, cs.dropWhile fun c => !Text.isBlank c)
  | .offset minutesOptional =>
    let (seconds, rest) ←
      offset? skipColons minutesOptional minutesOptional (Text.trimLeft Text.isBlank cs)
    some (← p.put? .offset seconds, rest)
  | .fullMoment => none

/-- Reads items other than full moments one after the other. -/
def readItems? (items : List Item) (p : Parts) (cs : List Char) : Option (Parts × List Char) :=
  items.foldlM (fun (p, cs) item => readSimple? item p cs) (p, cs)

/-- The items of a time of day with blanks and a fraction. -/
def looseTime : List Item :=
  [.number .hour, .blanks, .literal [':'], .number .minute, .blanks, .literal [':'],
    .number .second, .fraction none, .blanks]

/-- Reads a full moment that may hold blanks between its parts. -/
def readMoment? (p : Parts) (cs : List Char) : Option (Parts × List Char) := do
  let (p, cs) ← readItems?
    [.number .year, .blanks, .literal ['-'], .number .month, .blanks, .literal ['-'],
      .number .day] p cs
  let (p, cs) ← readItems? looseTime p (← expectTime cs)
  match afterName "utc" cs with
  | some rest => some (← p.put? .offset 0, rest)
  | none =>
    let (seconds, rest) ← offset? skipColons true false cs
    some (← p.put? .offset seconds, rest)

/-- Reads one item. -/
def readItem? (item : Item) (p : Parts) (cs : List Char) : Option (Parts × List Char) :=
  match item with
  | .fullMoment => readMoment? p cs
  | item => readSimple? item p cs

/-- The parts of a text under a pattern. -/
def parts? (pattern : String) (cs : List Char) : Option Parts := do
  let items ← items? pattern.toList
  let (p, rest) ← items.foldlM (fun (p, cs) item => readItem? item p cs) ([], cs)
  if rest.isEmpty then some p else none

/-- The local date and time of a text under a pattern, in milliseconds since
1970; a date without a time is its midnight. -/
def local? (pattern : String) (cs : List Char) : Option Int := do
  let p ← parts? pattern cs
  p.localMillis?.or (p.day.toOption.map (· * Moment.day))

/-- A moment written as date, `T` and time with an offset. -/
def moment? (cs : List Char) : Option Int := do
  let four := number? 4 (some 4)
  let two := number? 2 (some 2)
  let (year, cs) ← four cs
  let (month, cs) ← two (← expect '-' cs)
  let (day, cs) ← two (← expect '-' cs)
  let (hour, cs) ← two (← expectTime cs)
  let (minute, cs) ← two (← expect ':' cs)
  let (second, cs) ← two (← expect ':' cs)
  let (fraction, cs) ←
    match cs with
    | '.' :: rest => nanoseconds? rest
    | _ => some (0, cs)
  let (offset, cs) ← offset? (expect ':') true false cs
  if !cs.isEmpty || 86400 ≤ offset.natAbs then none
  else
    let p : Parts := []
    let p ← p.put? .year year
    let p ← p.put? .month month
    let p ← p.put? .day day
    let p ← p.putHour? hour
    let p ← p.put? .minute minute
    let p ← p.put? .second second
    let p ← p.put? .nanosecond fraction
    Moment.ofLocal? offset (← p.localMillis?)

/-- The patterns that apply when none are given, in order. -/
def defaultPatterns : List String :=
  ["%Y-%m-%d %H:%M:%S", "%Y-%m-%d %H:%M", "%Y-%m-%dT%H:%M:%S", "%Y/%m/%d %H:%M:%S",
    "%Y/%m/%d %H:%M", "%d/%m/%Y %H:%M:%S", "%d/%m/%Y %H:%M", "%b %d %Y, %H:%M",
    "%d %b %Y, %H:%M", "%Y-%m-%d", "%Y/%m/%d", "%d/%m/%Y"]

/-- The moment that a text names: a full moment, or else local time at `offset`
under the first pattern that fits. -/
def parse? (patterns : List String) (offset : Int) (text : String) : Option Int :=
  let cs := Text.trimBoth Text.isBlank text.toList
  (moment? cs).or
    (patterns.findSome? fun pattern => (local? pattern cs).bind (Moment.ofLocal? offset))

end SiteScrape.Time
