import SiteScrape.Text.Utf8

/-!
# Percent escapes

`%XX` stands for one byte. Encoding escapes the bytes outside a set of
characters; decoding leaves a percent sign that is not followed by two
hexadecimal digits as it is.
-/

namespace SiteScrape.Url.Percent

/-- The capital hexadecimal digit of a number below sixteen. -/
def hexDigit (n : Nat) : Char := (Nat.digitChar n).toUpper

/-- The value of a hexadecimal digit. -/
def hexValue? (c : Char) : Option Nat :=
  if '0' ≤ c && c ≤ '9' then some (c.toNat - '0'.toNat)
  else if 'a' ≤ c && c ≤ 'f' then some (c.toNat - 'a'.toNat + 10)
  else if 'A' ≤ c && c ≤ 'F' then some (c.toNat - 'A'.toNat + 10)
  else none

/-- The escape of a byte. -/
def escapeByte (b : UInt8) : List Char :=
  ['%', hexDigit (b.toNat / 16), hexDigit (b.toNat % 16)]

/-- A character as it is when `keep` holds, else the escapes of its bytes. -/
def encodeChar (keep : Char → Bool) (c : Char) : List Char :=
  if keep c then [c] else (String.utf8EncodeChar c).flatMap escapeByte

/-- `cs` with every character outside `keep` escaped. -/
def encodeChars (keep : Char → Bool) (cs : List Char) : List Char :=
  cs.flatMap (encodeChar keep)

/-- `s` with every character outside `keep` escaped. -/
def encode (keep : Char → Bool) (s : String) : String :=
  String.ofList (encodeChars keep s.toList)

/-- The bytes that an escaped text stands for. -/
def decodeBytes : List Char → List UInt8
  | [] => []
  | '%' :: a :: b :: rest =>
    match hexValue? a, hexValue? b with
    | some hi, some lo => UInt8.ofNat (hi * 16 + lo) :: decodeBytes rest
    | _, _ => String.utf8EncodeChar '%' ++ decodeBytes (a :: b :: rest)
  | c :: rest => String.utf8EncodeChar c ++ decodeBytes rest

/-- Letters, digits and `-._~` need no escape anywhere. -/
def isUnreserved (c : Char) : Bool :=
  c.isAlphanum || c = '-' || c = '.' || c = '_' || c = '~'

/-- `s` as a component: only unreserved characters stay. -/
def encodeComponent (s : String) : String := encode isUnreserved s

/-- The text behind the escapes, if their bytes are well formed. -/
def decodeComponent? (s : String) : Option String :=
  Text.Utf8.decode? (decodeBytes s.toList)

/-- The text behind the escapes, with replacement characters where it is ill formed. -/
def decodeLossy (s : String) : String :=
  Text.Utf8.decodeLossy (decodeBytes s.toList)

end SiteScrape.Url.Percent
