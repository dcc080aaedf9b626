import SiteScrape.Filter.Number
import SiteScrape.Decimal.Whole

/-!
# Lenient readings of values

A record takes what a page gives: numbers in texts, texts for numbers, and
nothing where there is nothing to read.
-/

namespace SiteScrape.Lenient

/-- The text of a scalar without blanks at its ends, unless it is empty. -/
def text? (v : Json) : Option String :=
  match v with
  | .null | .arr _ | .obj _ => none
  | v =>
    let s := match v with
      | .str s => Text.trim s
      | v => v.asText
    if s.isEmpty then none else some s

/-- A number, a text with a digit, or a truth value as one or zero. -/
def float? (v : Json) : Option Float :=
  match v with
  | .num n => some n.toFloat
  | .str s => if s.toList.any Char.isDigit then some (Filter.numberIn s) else none
  | .bool b => some (if b then 1.0 else 0.0)
  | _ => none

/-- The nearest number of 64 bits with a sign. -/
def int64? (v : Json) : Option Int64 :=
  match v with
  | .num n => n.toInt64?.or (some (Double.clampInt64 (Double.round n.toFloat)))
  | v => (float? v).map fun f => Double.clampInt64 (Double.round f)

/-- A moment: a number, or a text that holds a whole number and nothing else. -/
def moment? (v : Json) : Option Int64 :=
  match v with
  | .num _ => int64? v
  | .str s => Decimal.int64? (Text.trim s)
  | _ => none

/-- The nearest number of 64 bits without a sign; nothing for negative numbers. -/
def uint64? (v : Json) : Option UInt64 :=
  ((float? v).filter (· ≥ 0.0)).map fun f => Double.clampUInt64 (Double.round f)

end SiteScrape.Lenient
