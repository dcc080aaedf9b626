import SiteScrape.Decimal.Double

/-!
# Reading decimal digits

`nearest` is the double nearest to a written decimal. `scaled` is the quicker
reading used for JSON text: the digits that fit 64 bits, as a double, times or
over one power of ten. The two differ by at most the last bit.
-/

namespace SiteScrape.Decimal

/-- The number that the digits `cs` spell. -/
def natOf (cs : List Char) : Nat :=
  cs.foldl (fun n c => 10 * n + (c.toNat - '0'.toNat)) 0

/-- The double nearest to the decimal with these digits before and after the point. -/
def nearest (whole fraction : List Char) : Float :=
  Float.ofScientific (natOf (whole ++ fraction)) true fraction.length

/-- The double nearest to the decimal with these digits before and after the
point, times `10^exponent`. -/
def nearestShifted (whole fraction : List Char) (exponent : Int) : Float :=
  let digits := (whole ++ fraction).dropWhile (· == '0')
  let shift := exponent - fraction.length
  let place := digits.length + shift
  if digits.isEmpty || place < -330 then 0.0
  else if place > 310 then 1.0 / 0.0
  else Float.ofScientific (natOf digits) (shift < 0) shift.natAbs

/-- The double nearest to `10^n`, for `n` up to 308. -/
def powerOfTen (n : Nat) : Float := Float.ofScientific 1 false n

/-- `value · 10^exponent`, dividing by `10^308` as often as a very small
exponent needs; nothing when the result is too large. -/
def scaled (fuel : Nat) (value : Float) (exponent : Int) : Option Float :=
  if exponent.natAbs ≤ 308 then
    if 0 ≤ exponent then
      let product := value * powerOfTen exponent.toNat
      if Double.isFinite product then some product else none
    else some (value / powerOfTen exponent.natAbs)
  else if value == 0.0 then some value
  else if 0 ≤ exponent then none
  else
    match fuel with
    | 0 => some 0.0
    | fuel + 1 => scaled fuel (value / powerOfTen 308) (exponent + 308)

end SiteScrape.Decimal
