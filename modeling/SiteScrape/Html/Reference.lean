import Std.Data.HashMap
import SiteScrape.Html.NamedCharacters

/-!
# Character references

A reference behind `&` names a character or gives its number. The longest
known name counts. In attribute values a name without a semicolon does not
count when a letter, a digit or `=` follows.
-/

namespace SiteScrape.Html

/-- The value of a hexadecimal digit. -/
def hexDigitValue? (c : Char) : Option Nat :=
  if c.isDigit then some (c.toNat - '0'.toNat)
  else if 'a' ≤ c && c ≤ 'f' then some (c.toNat - 'a'.toNat + 10)
  else if 'A' ≤ c && c ≤ 'F' then some (c.toNat - 'A'.toNat + 10)
  else none

/-- The number that hexadecimal digits spell. -/
def hexNumber (cs : List Char) : Nat :=
  cs.foldl (fun n c => 16 * n + (hexDigitValue? c).getD 0) 0

/-- The characters that codes joined by plus signs stand for. -/
def charactersOfCodes (codes : String) : List Char :=
  (codes.splitOn "+").map fun code => Char.ofNat (hexNumber code.toList)

/-- Pairs of names and characters off a row of words. -/
def pairsOfWords : List String → List (String × List Char)
  | name :: codes :: rest => (name, charactersOfCodes codes) :: pairsOfWords rest
  | _ => []

/-- The characters of every name. -/
def namedCharacters : Std.HashMap String (List Char) :=
  Std.HashMap.ofList (namedCharacterRows.flatMap fun row => pairsOfWords (row.splitOn " "))

/-- No name is longer than this. -/
def longestName : Nat := 33

/-- The longest name among the first `length` characters of `cs`: its
characters, its last letter and the rest. -/
def longestNamed (cs : List Char) : Nat → Option (List Char × Char × List Char)
  | 0 => none
  | length + 1 =>
    let name := cs.take (length + 1)
    match namedCharacters[String.ofList name]? with
    | some found => some (found, name.getLastD ';', cs.drop (length + 1))
    | none => longestNamed cs length

/-- What the numbers 128 to 159 stand for, where that is not a control. -/
def c1Characters : List Nat :=
  [0x20ac, 0x81, 0x201a, 0x192, 0x201e, 0x2026, 0x2020, 0x2021, 0x2c6, 0x2030, 0x160, 0x2039,
    0x152, 0x8d, 0x17d, 0x8f, 0x90, 0x2018, 0x2019, 0x201c, 0x201d, 0x2022, 0x2013, 0x2014,
    0x2dc, 0x2122, 0x161, 0x203a, 0x153, 0x9d, 0x17e, 0x178]

/-- The replacement character. -/
def replacement : Char := '\ufffd'

/-- The character of a number. -/
def characterOfNumber (n : Nat) : Char :=
  if n = 0 || 0x10ffff < n || (0xd800 ≤ n && n ≤ 0xdfff) then replacement
  else if 0x80 ≤ n && n ≤ 0x9f then Char.ofNat (c1Characters.getD (n - 0x80) n)
  else Char.ofNat n

/-- The number that decimal digits spell. -/
def decimalNumber (cs : List Char) : Nat :=
  cs.foldl (fun n c => 10 * n + (c.toNat - '0'.toNat)) 0

/-- The text behind an optional semicolon. -/
def afterSemicolon (cs : List Char) : List Char :=
  match cs with
  | ';' :: rest => rest
  | cs => cs

def isHexDigit (c : Char) : Bool := (hexDigitValue? c).isSome

/-- A reference by number, behind `#`. -/
def numericReference? (cs : List Char) : Option (List Char × List Char) :=
  match cs with
  | 'x' :: rest | 'X' :: rest =>
    let digits := rest.takeWhile isHexDigit
    if digits.isEmpty then none
    else some ([characterOfNumber (hexNumber digits)], afterSemicolon (rest.dropWhile isHexDigit))
  | cs =>
    let digits := cs.takeWhile Char.isDigit
    if digits.isEmpty then none
    else
      some ([characterOfNumber (decimalNumber digits)], afterSemicolon (cs.dropWhile Char.isDigit))

/-- A reference by name. -/
def namedReference? (inValue : Bool) (cs : List Char) : Option (List Char × List Char) := do
  let (found, last, rest) ← longestNamed cs (min longestName cs.length)
  let runsOn := match rest with
    | c :: _ => c = '=' || c.isAlphanum
    | [] => false
  if inValue && last != ';' && runsOn then none else some (found, rest)

/-- The characters that a reference behind `&` stands for, and the rest. -/
def reference? (inValue : Bool) (cs : List Char) : Option (List Char × List Char) :=
  match cs with
  | '#' :: rest => numericReference? rest
  | c :: _ => if c.isAlphanum then namedReference? inValue cs else none
  | [] => none

/-- Text with every reference replaced by what it stands for. -/
def decodeReferences (inValue : Bool) (cs : List Char) : List Char :=
  match cs with
  | [] => []
  | '&' :: rest =>
    match reference? inValue rest with
    | some (found, behind) =>
      if _h : behind.length ≤ rest.length then found ++ decodeReferences inValue behind
      else found
    | none => '&' :: decodeReferences inValue rest
  | c :: rest => c :: decodeReferences inValue rest
termination_by cs.length

end SiteScrape.Html
