import SiteScrape.Decimal.Reading
import SiteScrape.Json.Basic
import SiteScrape.Text.Find

/-!
# TOML scalars

Texts in four kinds of quotes, numbers, truth values and moments, each read
off the start of a text. A moment is kept as its normal text, as the only
entry of an object.
-/

namespace SiteScrape.Toml

/-- Blanks within a line. -/
def isSpace (c : Char) : Bool := c == ' ' || c == '\t'

def skipSpace (cs : List Char) : List Char := cs.dropWhile isSpace

/-- A character that may stand unescaped in texts and comments, line ends apart. -/
def isPrintable (c : Char) : Bool := c == '\t' || (' ' ≤ c && c != '\x7f')

/-- The text behind a line end. -/
def afterNewline? : List Char → Option (List Char)
  | '\n' :: rest => some rest
  | '\r' :: '\n' :: rest => some rest
  | _ => none

/-- The text behind blanks and a comment. -/
def afterComment (cs : List Char) : List Char :=
  match skipSpace cs with
  | '#' :: rest => rest.dropWhile isPrintable
  | rest => rest

/-! ## Texts -/

/-- The value of hexadecimal digits. -/
def hexNat? (cs : List Char) : Option Nat :=
  cs.foldlM (fun n c =>
    if c.isDigit then some (16 * n + (c.toNat - 48))
    else if 'a' ≤ c && c ≤ 'f' then some (16 * n + (c.toNat - 87))
    else if 'A' ≤ c && c ≤ 'F' then some (16 * n + (c.toNat - 55))
    else none) 0

/-- The character of a number of `count` hexadecimal digits. -/
def hexChar? (count : Nat) (cs : List Char) : Option (Char × List Char) := do
  let digits := cs.take count
  if digits.length < count then none
  let n ← hexNat? digits
  if n > 0x10ffff || (0xd800 ≤ n && n ≤ 0xdfff) then none
  some (Char.ofNat n, cs.drop count)

/-- The character of an escape; the backslash has been taken. -/
def escape? : List Char → Option (Char × List Char)
  | 'b' :: rest => some ('\x08', rest)
  | 't' :: rest => some ('\t', rest)
  | 'n' :: rest => some ('\n', rest)
  | 'f' :: rest => some ('\x0c', rest)
  | 'r' :: rest => some ('\r', rest)
  | '"' :: rest => some ('"', rest)
  | '\\' :: rest => some ('\\', rest)
  | 'u' :: rest => hexChar? 4 rest
  | 'U' :: rest => hexChar? 8 rest
  | _ => none

/-- A line of text up to a double quote. -/
def basic? : Nat → List Char → Option (List Char × List Char)
  | 0, _ => none
  | fuel + 1, cs =>
    match cs with
    | '"' :: rest => some ([], rest)
    | '\\' :: rest => do
      let (c, rest) ← escape? rest
      let (more, rest) ← basic? fuel rest
      some (c :: more, rest)
    | c :: rest =>
      if isPrintable c then do
        let (more, rest) ← basic? fuel rest
        some (c :: more, rest)
      else none
    | [] => none

/-- A line of text up to an apostrophe. -/
def literal? (cs : List Char) : Option (List Char × List Char) :=
  let body := cs.takeWhile fun c => isPrintable c && c != '\''
  match cs.drop body.length with
  | '\'' :: rest => some (body, rest)
  | _ => none

/-- Blanks and line ends. -/
def skipLines : Nat → List Char → List Char
  | 0, cs => cs
  | fuel + 1, cs =>
    match afterNewline? cs with
    | some rest => skipLines fuel rest
    | none =>
      match cs with
      | c :: rest => if isSpace c then skipLines fuel rest else cs
      | [] => []

/-- Three quotes close a text of several lines; up to two more before them
belong to it. -/
def closing? (quote : Char) (cs : List Char) : Option (List Char × List Char) :=
  let quotes := (cs.take 5).takeWhile (· == quote)
  if quotes.length < 3 then none
  else some (quotes.drop 3, cs.drop quotes.length)

/-- Lines of text up to three double quotes. A backslash at the end of a line
takes the blanks and line ends behind it away. -/
def basicLines? : Nat → List Char → Option (List Char × List Char)
  | 0, _ => none
  | fuel + 1, cs =>
    match closing? '"' cs, afterNewline? cs with
    | some found, _ => some found
    | none, some rest => do
      let (more, rest) ← basicLines? fuel rest
      some ('\n' :: more, rest)
    | none, none =>
      match cs with
      | '\\' :: rest =>
        match afterNewline? (skipSpace rest) with
        | some rest => basicLines? fuel (skipLines rest.length rest)
        | none => do
          let (c, rest) ← escape? rest
          let (more, rest) ← basicLines? fuel rest
          some (c :: more, rest)
      | c :: rest =>
        if isPrintable c then do
          let (more, rest) ← basicLines? fuel rest
          some (c :: more, rest)
        else none
      | [] => none

/-- Lines of text up to three apostrophes. -/
def literalLines? : Nat → List Char → Option (List Char × List Char)
  | 0, _ => none
  | fuel + 1, cs =>
    match closing? '\'' cs, afterNewline? cs with
    | some found, _ => some found
    | none, some rest => do
      let (more, rest) ← literalLines? fuel rest
      some ('\n' :: more, rest)
    | none, none =>
      match cs with
      | c :: rest =>
        if isPrintable c then do
          let (more, rest) ← literalLines? fuel rest
          some (c :: more, rest)
        else none
      | [] => none

/-- The line end right behind the opening quotes does not count. -/
def afterOpening (cs : List Char) : List Char := (afterNewline? cs).getD cs

/-- A text on one line. -/
def lineText? : List Char → Option (List Char × List Char)
  | '"' :: rest => basic? (rest.length + 1) rest
  | '\'' :: rest => literal? rest
  | _ => none

/-- A text. -/
def text? : List Char → Option (List Char × List Char)
  | '"' :: '"' :: '"' :: rest => basicLines? (rest.length + 1) (afterOpening rest)
  | '\'' :: '\'' :: '\'' :: rest => literalLines? (rest.length + 1) (afterOpening rest)
  | cs => lineText? cs

/-! ## Numbers -/

/-- Digits with single underscores between them, without the underscores. -/
def grouped? (isDigit : Char → Bool) : List Char → Option (List Char × List Char)
  | [] => none
  | c :: rest =>
    if isDigit c then some (go [c] rest) else none
where
  go (digits : List Char) : List Char → List Char × List Char
    | '_' :: d :: rest =>
      if isDigit d then go (d :: digits) rest else (digits.reverse, '_' :: d :: rest)
    | d :: rest => if isDigit d then go (d :: digits) rest else (digits.reverse, d :: rest)
    | [] => (digits.reverse, [])

/-- A sign, if there is one: is it a minus? -/
def sign (cs : List Char) : Bool × List Char :=
  match cs with
  | '-' :: rest => (true, rest)
  | '+' :: rest => (false, rest)
  | _ => (false, cs)

/-- Decimal digits without leading zeros. -/
def decimal? : List Char → Option (List Char × List Char)
  | '0' :: rest => some (['0'], rest)
  | cs => grouped? Char.isDigit cs

/-- A whole number of 64 bits with a sign. -/
def whole? (negative : Bool) (n : Nat) : Option Json :=
  let value : Int := if negative then -(n : Int) else n
  if -0x8000000000000000 ≤ value && value < 0x8000000000000000 then some (.ofInt value)
  else none

/-- Digits in another base, behind its mark. -/
def based? (base : Nat) (cs : List Char) : Option (Json × List Char) := do
  let value (c : Char) : Option Nat := (hexNat? [c]).filter (· < base)
  let (digits, rest) ← grouped? (fun c => (value c).isSome) cs
  let n := digits.foldl (fun n c => base * n + (value c).getD 0) 0
  some (← whole? false n, rest)

/-- The exponent of a number, if there is one. -/
def exponent? (cs : List Char) : Option (Int × List Char) :=
  match cs with
  | e :: rest =>
    if e == 'e' || e == 'E' then do
      let (negative, rest) := sign rest
      let (digits, rest) ← grouped? Char.isDigit rest
      let n : Int := Decimal.natOf digits
      some (if negative then -n else n, rest)
    else none
  | [] => none

/-- A number with a fraction or an exponent. Too large a positive one is refused. -/
def fractional? (negative : Bool) (whole cs : List Char) : Option (Json × List Char) := do
  let (fraction, exponent, rest) ← match cs with
    | '.' :: rest => do
      let (fraction, rest) ← grouped? Char.isDigit rest
      let (exponent, rest) := (exponent? rest).getD (0, rest)
      some (fraction, exponent, rest)
    | _ => do
      let (exponent, rest) ← exponent? cs
      some ([], exponent, rest)
  let size := Decimal.nearestShifted whole fraction exponent
  if !negative && !Double.isFinite size then none
  some (.num (.float (if negative then -size else size)), rest)

/-- The names of numbers that are not finite. -/
def special? (negative : Bool) : List Char → Option (Json × List Char)
  | 'i' :: 'n' :: 'f' :: rest =>
    some (.num (.float (if negative then -1.0 / 0.0 else 1.0 / 0.0)), rest)
  | 'n' :: 'a' :: 'n' :: rest => some (.num (.float (0.0 / 0.0)), rest)
  | _ => none

/-- A number. -/
def number? (cs : List Char) : Option (Json × List Char) :=
  match cs with
  | '0' :: 'x' :: rest => based? 16 rest
  | '0' :: 'o' :: rest => based? 8 rest
  | '0' :: 'b' :: rest => based? 2 rest
  | _ =>
    let (negative, cs) := sign cs
    match decimal? cs with
    | some (digits, rest) =>
      (fractional? negative digits rest).or
        ((whole? negative (Decimal.natOf digits)).map fun v => (v, rest))
    | none => special? negative cs

/-! ## Moments -/

/-- A number of `count` digits from `least` to `most`, as written. -/
def field? (count least most : Nat) (cs : List Char) : Option (List Char × List Char) :=
  let digits := cs.take count
  let n := Decimal.natOf digits
  if digits.length = count && digits.all Char.isDigit && least ≤ n && n ≤ most then
    some (digits, cs.drop count)
  else none

/-- A given character. -/
def expect? (c : Char) : List Char → Option (List Char)
  | d :: rest => if c == d then some rest else none
  | [] => none

def daysIn (year month : Nat) : Nat :=
  if month = 2 then if year % 4 = 0 && (year % 100 ≠ 0 || year % 400 = 0) then 29 else 28
  else if month = 4 || month = 6 || month = 9 || month = 11 then 30
  else 31

/-- A date. -/
def date? (cs : List Char) : Option (List Char × List Char) := do
  let (year, rest) ← field? 4 0 9999 cs
  let (month, rest) ← field? 2 1 12 (← expect? '-' rest)
  let (day, rest) ← field? 2 1 31 (← expect? '-' rest)
  if daysIn (Decimal.natOf year) (Decimal.natOf month) < Decimal.natOf day then none
  some (year ++ '-' :: month ++ '-' :: day, rest)

/-- A fraction of a second, to nine digits and without zeros at its end. -/
def secondFraction (cs : List Char) : List Char × List Char :=
  match cs with
  | '.' :: rest =>
    let digits := rest.takeWhile Char.isDigit
    let shown := ((digits.take 9).reverse.dropWhile (· == '0')).reverse
    if digits.isEmpty then ([], cs)
    else (if shown.isEmpty then [] else '.' :: shown, rest.drop digits.length)
  | _ => ([], cs)

/-- A time of day. -/
def time? (cs : List Char) : Option (List Char × List Char) := do
  let (hour, rest) ← field? 2 0 23 cs
  let (minute, rest) ← field? 2 0 59 (← expect? ':' rest)
  let (second, rest) ← field? 2 0 60 (← expect? ':' rest)
  let (fraction, rest) := secondFraction rest
  some (hour ++ ':' :: minute ++ ':' :: second ++ fraction, rest)

/-- An offset from UTC. -/
def offset? : List Char → Option (List Char × List Char)
  | 'Z' :: rest => some (['Z'], rest)
  | 'z' :: rest => some (['Z'], rest)
  | sign :: rest =>
    if sign == '+' || sign == '-' then do
      let (hour, rest) ← field? 2 0 23 rest
      let (minute, rest) ← field? 2 0 59 (← expect? ':' rest)
      let sign := if Decimal.natOf (hour ++ minute) = 0 then '+' else sign
      some (sign :: hour ++ ':' :: minute, rest)
    else none
  | [] => none

/-- The time of day behind a date. -/
def behindDate? : List Char → Option (List Char × List Char)
  | mark :: rest =>
    if mark == 'T' || mark == 't' || mark == ' ' then do
      let (time, rest) ← time? rest
      let (offset, rest) := (offset? rest).getD ([], rest)
      some ('T' :: time ++ offset, rest)
    else none
  | [] => none

/-- A date, a time of day, or both with or without an offset. -/
def moment? (cs : List Char) : Option (Json × List Char) :=
  let text := match date? cs with
    | some (date, rest) =>
      let (time, rest) := (behindDate? rest).getD ([], rest)
      some (date ++ time, rest)
    | none => time? cs
  text.map fun (text, rest) =>
    (.obj [("$__toml_private_datetime", .str (String.ofList text))], rest)

end SiteScrape.Toml
