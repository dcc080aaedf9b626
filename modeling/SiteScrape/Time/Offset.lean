import SiteScrape.Decimal.Reading
import SiteScrape.Text.Blank
import SiteScrape.Text.Find

/-!
# Offsets from UTC

An offset is written with a sign, one or two digits of hours and, with or
without a colon, two digits of minutes; `UTC` or `GMT` may stand before it.
-/

namespace SiteScrape.Time

/-- Hours and minutes behind the sign. Digits without a colon are hours up to
two, and one or two digits of hours before two of minutes beyond that. -/
def hoursAndMinutes? (cs : List Char) : Option (Nat × Nat) :=
  let digits := cs.takeWhile Char.isDigit
  match digits.length, cs.drop digits.length with
  | 1, [] | 2, [] | 1, [':'] | 2, [':'] => some (Decimal.natOf digits, 0)
  | 3, [] => some (Decimal.natOf (digits.take 1), Decimal.natOf (digits.drop 1))
  | 4, [] => some (Decimal.natOf (digits.take 2), Decimal.natOf (digits.drop 2))
  | 1, [':', a, b] | 2, [':', a, b] =>
    if a.isDigit && b.isDigit then some (Decimal.natOf digits, Decimal.natOf [a, b]) else none
  | _, _ => none

/-- The text behind a leading `UTC` or `GMT`. -/
def afterZoneName (cs : List Char) : List Char :=
  match cs with
  | 'U' :: 'T' :: 'C' :: rest => rest
  | 'G' :: 'M' :: 'T' :: rest => rest
  | cs => cs

/-- The seconds east of UTC that a text names. -/
def offsetOfText? (text : String) : Option Int := do
  let cs := Text.trimLeft Text.isAsciiBlank (afterZoneName (Text.trimBoth Text.isBlank text.toList))
  let (sign, cs) ←
    match cs with
    | '+' :: rest => some ((1 : Int), rest)
    | '-' :: rest => some (-1, rest)
    | _ => none
  let (hours, minutes) ← hoursAndMinutes? cs
  let seconds := hours * 3600 + minutes * 60
  if seconds < 86400 then some (sign * seconds) else none

end SiteScrape.Time
