import SiteScrape.Decimal.Double
import SiteScrape.Decimal.Power

/-!
# The shortest decimal of a double

`shortest m q` finds the fewest digits that read back as `m · 2^q`. The reals
that round to a double form an interval around it, with both ends included
iff `m` is even. On the grids of one digit, two digits, and so on, the two
neighbours of the value are tried; the first grid with a hit wins, of two
hits the nearer one, and the even one on an exact tie.
-/

namespace SiteScrape.Decimal

/-- A positive fraction. -/
structure Ratio where
  num : Nat
  den : Nat
  deriving DecidableEq, Repr

/-- `m · 2^q` as a fraction. -/
def Ratio.ofDyadic (m : Nat) (q : Int) : Ratio :=
  match q with
  | .ofNat k => ⟨m <<< k, 1⟩
  | .negSucc k => ⟨m, 1 <<< (k + 1)⟩

/-- `m · 10^q` as a fraction. -/
def Ratio.ofDecimal (m : Nat) (q : Int) : Ratio :=
  match q with
  | .ofNat k => ⟨m * tenTo k, 1⟩
  | .negSucc k => ⟨m, tenTo (k + 1)⟩

def Ratio.lt (a b : Ratio) : Bool := a.num * b.den < b.num * a.den

def Ratio.le (a b : Ratio) : Bool := a.num * b.den ≤ b.num * a.den

/-- The distance of two fractions. -/
def Ratio.dist (a b : Ratio) : Ratio :=
  ⟨a.num * b.den - b.num * a.den + (b.num * a.den - a.num * b.den), a.den * b.den⟩

/-- The reals that round to one double. -/
structure Interval where
  lower : Ratio
  upper : Ratio
  closed : Bool
  deriving Repr

/-- The interval around `m · 2^q`: half a step to each side, and only a quarter
below a power of two, where the steps are half as wide. -/
def Interval.around (m : Nat) (q : Int) : Interval where
  lower :=
    if m = 0x10000000000000 && q > -1074 then .ofDyadic (4 * m - 1) (q - 2)
    else .ofDyadic (2 * m - 1) (q - 1)
  upper := .ofDyadic (2 * m + 1) (q - 1)
  closed := m % 2 == 0

def Interval.contains (i : Interval) (r : Ratio) : Bool :=
  if i.closed then i.lower.le r && r.le i.upper else i.lower.lt r && r.lt i.upper

/-- Digits, most significant first, with the power of ten of the last one. -/
structure Digits where
  value : Nat
  exponent : Int
  deriving DecidableEq, Repr

/-- The quotient of `r` by `10^e`, rounded down. -/
def Ratio.floorAt (r : Ratio) (e : Int) : Nat :=
  match e with
  | .ofNat k => r.num / (r.den * tenTo k)
  | .negSucc k => r.num * tenTo (k + 1) / r.den

/-- The neighbour of `r` on the grid of multiples of `10^e` that lies in `i`. -/
def gridHit (i : Interval) (r : Ratio) (e : Int) : Option Digits :=
  let below := r.floorAt e
  let above := below + 1
  let lowHit := below ≠ 0 && i.contains (.ofDecimal below e)
  let highHit := i.contains (.ofDecimal above e)
  if lowHit && highHit then
    let dBelow := r.dist (.ofDecimal below e)
    let dAbove := r.dist (.ofDecimal above e)
    if dBelow.lt dAbove then some ⟨below, e⟩
    else if dAbove.lt dBelow then some ⟨above, e⟩
    else some ⟨if below % 2 = 0 then below else above, e⟩
  else if lowHit then some ⟨below, e⟩
  else if highHit then some ⟨above, e⟩
  else none

/-- An upper bound for the number of digits before the point of `m · 2^q`. -/
def topExponent (m : Nat) (q : Int) : Int :=
  ((Nat.log2 m : Int) + q + 1) * 30103 / 100000 + 1

/-- The first hit on the grids from `10^e` down, within `steps` grids. -/
def firstHit (i : Interval) (r : Ratio) : Nat → Int → Option Digits
  | 0, _ => none
  | steps + 1, e =>
    match gridHit i r e with
    | some d => some d
    | none => firstHit i r steps (e - 1)

/-- The shortest decimal of the positive double `m · 2^q`. -/
def shortest (m : Nat) (q : Int) : Digits :=
  (firstHit (.around m q) (.ofDyadic m q) 25 (topExponent m q)).getD ⟨0, 0⟩

/-- The digits of `n`, at least one. -/
def digitsOf (n : Nat) : List Char := (Nat.repr n).toList

/-- `n` zeros. -/
def zeros (n : Nat) : List Char := List.replicate n '0'

/-- Where positional notation ends: it covers from `10^-5` up to below `10^16`. -/
structure PositionalRange where
  /-- The least power of ten written without an exponent. -/
  least : Int
  /-- The first power of ten written with an exponent. -/
  first : Int

/-- Numbers from `10^-5` up to `10^16` are written in full. -/
def positional : PositionalRange := ⟨-5, 16⟩

/-- Whole numbers end in `.0`; an exponent shows its sign; one digit alone
stands without a point before the exponent. -/
def written (d : Digits) : List Char :=
  let ds := digitsOf d.value
  let top := d.exponent + ds.length - 1
  if positional.least ≤ top && top < positional.first then
    if 0 ≤ d.exponent then ds ++ zeros d.exponent.toNat ++ ['.', '0']
    else if 0 ≤ top then ds.take (top.toNat + 1) ++ '.' :: ds.drop (top.toNat + 1)
    else '0' :: '.' :: zeros (-top - 1).toNat ++ ds
  else
    let exponent :=
      'e' :: (if top < 0 then '-' else '+') :: digitsOf top.natAbs
    match ds with
    | [] => []
    | [c] => c :: exponent
    | c :: rest => c :: '.' :: rest ++ exponent

/-- The text of a finite double: the fewest digits that read back. -/
def ofFloat (f : Float) : Option String :=
  match Double.shape f with
  | .finite negative m q =>
    let body := if m = 0 then ['0', '.', '0'] else written (shortest m q)
    some (String.ofList (if negative then '-' :: body else body))
  | _ => none

end SiteScrape.Decimal
