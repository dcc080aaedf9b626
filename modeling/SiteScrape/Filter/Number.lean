import SiteScrape.Json.Writer
import SiteScrape.Decimal.Reading
import SiteScrape.Text.Blank

/-!
# Sizes and numbers in texts

`sizeIn` finds the first number with or without a byte unit, `numberIn` the
first number. Commas are skipped by both, blanks only by the latter. A text
without a number counts as zero.
-/

namespace SiteScrape

/-- A whole number if the double is one of up to fifteen digits or so, else the
double; zero for what JSON cannot hold. -/
def Json.ofAmount (f : Float) : Json :=
  if Double.isWhole f && f.abs < 9.0e15 then .ofInt (Double.truncate f)
  else if Double.isFinite f then .num (.float f)
  else .ofInt 0

namespace Filter

/-- A decimal as written, without sign. -/
structure Digits where
  whole : List Char
  fraction : List Char
  deriving DecidableEq, Repr

/-- The double nearest to the decimal. -/
def Digits.value (d : Digits) : Float := Decimal.nearest d.whole d.fraction

/-- The decimal that `cs` starts with, and the rest: digits with or without a
point and more digits, or a point and digits. -/
def decimal? (cs : List Char) : Option (Digits × List Char) :=
  let whole := cs.takeWhile Char.isDigit
  let behind := cs.dropWhile Char.isDigit
  let fraction := match behind with
    | '.' :: rest => rest.takeWhile Char.isDigit
    | _ => []
  if whole.isEmpty && fraction.isEmpty then none
  else some (⟨whole, fraction⟩,
    if fraction.isEmpty then behind else behind.drop (fraction.length + 1))

/-- The first decimal of a text, and what follows it. -/
def firstDecimal? : List Char → Option (Digits × List Char)
  | [] => none
  | c :: rest => (decimal? (c :: rest)).or (firstDecimal? rest)

/-- The letters of the units from 1024 bytes up, each 1024 times the one before. -/
def unitLetters : List Char := ['K', 'M', 'G', 'T', 'P', 'E', 'Z', 'Y']

/-- The power of 1024 that a unit stands for; zero without a unit. -/
def unitExponent (cs : List Char) : Nat :=
  match cs with
  | c :: rest =>
    let tail := match rest with
      | 'i' :: t | 'I' :: t => t
      | t => t
    match tail with
    | 'b' :: _ | 'B' :: _ => ((unitLetters.idxOf? c.toUpper).map (· + 1)).getD 0
    | _ => 0
  | [] => 0

/-- The first size of a text, in bytes; units count in powers of 1024. -/
def sizeIn (text : String) : Float :=
  match firstDecimal? (text.toList.filter (· != ',')) with
  | some (d, rest) =>
    d.value * Double.ofInt (1 <<< (10 * unitExponent (Text.trimLeft Text.isAsciiBlank rest)) : Nat)
  | none => 0.0

/-- The first number of a text, which a hyphen right before it makes negative. -/
def signedDecimal? : List Char → Option Float
  | [] => none
  | c :: rest =>
    match (if c = '-' then decimal? rest else none) with
    | some (d, _) => some (-d.value)
    | none =>
      match decimal? (c :: rest) with
      | some (d, _) => some d.value
      | none => signedDecimal? rest

/-- The first number of a text. -/
def numberIn (text : String) : Float :=
  (signedDecimal? (text.toList.filter fun c => c != ',' && !Text.isBlank c)).getD 0.0

/-- The size in a value; numbers stay as they are. -/
def parseSize (v : Json) : Json :=
  match v with
  | .num _ => v
  | _ => .ofAmount (sizeIn v.asText)

/-- The number in a value; numbers stay as they are. -/
def parseNumber (v : Json) : Json :=
  match v with
  | .num _ => v
  | _ => .ofAmount (numberIn v.asText)

end Filter

end SiteScrape
