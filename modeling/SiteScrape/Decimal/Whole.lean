import SiteScrape.Decimal.Reading

/-!
# Whole numbers in texts

A whole number is written with an optional sign and at least one ASCII digit,
and nothing else. One that does not fit its type is refused.
-/

namespace SiteScrape.Decimal

/-- Digits only, and at least one. -/
def digits? (cs : List Char) : Option Nat :=
  if !cs.isEmpty && cs.all Char.isDigit then some (natOf cs) else none

/-- A number below `bound` with an optional plus sign. -/
def natBelow? (bound : Nat) (s : String) : Option Nat :=
  let cs := match s.toList with
    | '+' :: rest => rest
    | cs => cs
  (digits? cs).filter (· < bound)

/-- A number of 64 bits without a sign bit. -/
def index? (s : String) : Option Nat := natBelow? 0x10000000000000000 s

/-- A number from `-2^63` to `2^63 - 1`. -/
def int64? (s : String) : Option Int64 :=
  match s.toList with
  | '-' :: rest =>
    (digits? rest).bind fun n => if n ≤ 0x8000000000000000 then some (Int64.ofInt (-(n : Int))) else none
  | '+' :: rest => (digits? rest).bind fun n => if n < 0x8000000000000000 then some (Int64.ofInt n) else none
  | cs => (digits? cs).bind fun n => if n < 0x8000000000000000 then some (Int64.ofInt n) else none

end SiteScrape.Decimal
