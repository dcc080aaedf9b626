import SiteScrape.Text.Blank
import SiteScrape.Text.Case
import SiteScrape.Text.Find
import SiteScrape.Url.Percent
import SiteScrape.Url.Punycode
import SiteScrape.Decimal.Reading

/-!
# Hosts

A host is a domain in ASCII letters, an IPv4 or IPv6 address, or, where the
scheme gives hosts no meaning, any text without delimiters.
-/

namespace SiteScrape.Url

/-- A host. An empty name is the host of a file on this machine. -/
inductive Host where
  | name (s : String)
  | ipv4 (value : Nat)
  | ipv6 (groups : List Nat)
  deriving DecidableEq, Repr

namespace Host

/-- Characters that no host may hold. -/
def isDelimiter (c : Char) : Bool :=
  c = '\x00' || c = '\t' || c = '\n' || c = '\r' || c = ' ' || c = '#' || c = '/' || c = ':' ||
  c = '<' || c = '>' || c = '?' || c = '@' || c = '[' || c = '\\' || c = ']' || c = '^' || c = '|'

/-- Characters that no domain may hold. -/
def isForbiddenInDomain (c : Char) : Bool :=
  isDelimiter c || c.toNat < 32 || c = '%' || c = '\x7f'

/-- Characters that a domain drops: soft hyphen and joiners of no width. -/
def isIgnored (c : Char) : Bool :=
  c = '\u00ad' || c = '\u200b' || c = '\u2060' || c = '\ufeff'

/-- The character of a domain that `c` stands for: small, of normal width, and
one dot for every full stop. -/
def mapChar (c : Char) : List Char :=
  if isIgnored c then []
  else if c = '\u3002' || c = '\uff0e' || c = '\uff61' then ['.']
  else if '\uff01' ≤ c && c ≤ '\uff5e' then
    Text.lowerChar (Char.ofNat (c.toNat - 0xff01 + 0x21))
  else Text.lowerChar c

/-- The mark of a label that holds letters outside ASCII. -/
def encodedMark : List Char := ['x', 'n', '-', '-']

/-- Characters outside ASCII that no domain may hold: replacement and control
characters, blanks, and those for private use. -/
def isRefused (c : Char) : Bool :=
  c = '\ufffd' || ('\x80' ≤ c && Text.isBlank c) || ('\x7f' ≤ c && c ≤ '\u009f') ||
  ('\ue000' ≤ c && c ≤ '\uf8ff') || 0xf0000 ≤ c.toNat

/-- A label in ASCII letters; a marked label must hold what its mark says. -/
def asciiLabel? (label : List Char) : Option (List Char) :=
  match Text.afterLead encodedMark label with
  | some code =>
    (Punycode.decode? code).bind fun plain =>
      if plain.any (·.toNat ≥ 128) && !plain.any isRefused then some label else none
  | none =>
    if label.any (·.toNat ≥ 128) then some (encodedMark ++ Punycode.encode label) else some label

/-- A domain in ASCII letters. -/
def asciiDomain? (cs : List Char) : Option (List Char) := do
  if cs.any isRefused then none
  let labels ← ((Text.splitBy ['.'] (by simp) (cs.flatMap mapChar))).mapM asciiLabel?
  some (['.'].intercalate labels)

/-- The digits of an address part in base `radix`. -/
def radixNat? (radix : Nat) (cs : List Char) : Option Nat :=
  cs.foldlM (fun n c => do
    let d ← Percent.hexValue? c
    if d < radix then some (n * radix + d) else none) 0

/-- An address part: hexadecimal behind `0x`, octal behind `0`, else decimal. -/
def addressPart? (cs : List Char) : Option Nat :=
  match cs with
  | [] => none
  | '0' :: 'x' :: rest => radixNat? 16 rest
  | '0' :: 'X' :: rest => radixNat? 16 rest
  | '0' :: c :: rest => radixNat? 8 (c :: rest)
  | cs => radixNat? 10 cs

/-- The dotted parts, without an empty one at the end. -/
def dottedParts (cs : List Char) : List (List Char) :=
  let parts := Text.splitBy ['.'] (by simp) cs
  if parts.getLast? = some [] then parts.dropLast else parts

/-- A domain whose last part is a number must be an address. -/
def endsInNumber (cs : List Char) : Bool :=
  match (dottedParts cs).getLast? with
  | some part => (!part.isEmpty && part.all Char.isDigit) || (addressPart? part).isSome
  | none => false

/-- An IPv4 address of up to four parts; the last part fills what is left. -/
def ipv4? (cs : List Char) : Option Nat := do
  let parts := dottedParts cs
  if parts.length > 4 then none
  let numbers ← parts.mapM addressPart?
  let last ← numbers.getLast?
  let lead := numbers.dropLast
  if lead.any (· > 255) || last ≥ 1 <<< (8 * (4 - lead.length)) then none
  some ((lead.zipIdx.map fun (n, i) => n <<< (8 * (3 - i))).foldl (· + ·) last)

/-- Four decimal parts below 256 without leading zeros, as two groups. -/
def embeddedIpv4? (cs : List Char) : Option (List Nat) := do
  let parts := Text.splitBy ['.'] (by simp) cs
  if parts.length ≠ 4 then none
  let numbers ← parts.mapM fun part => do
    if part.isEmpty || part.length > 3 || (part.length > 1 && part.head? == some '0') then none
    let n ← radixNat? 10 part
    if n < 256 then some n else none
  match numbers with
  | [a, b, c, d] => some [a * 256 + b, c * 256 + d]
  | _ => none

/-- Groups between colons; the last one may be an embedded address. -/
def groups? (cs : List Char) : Option (List Nat) :=
  if cs.isEmpty then some []
  else
    let parts := Text.splitBy [':'] (by simp) cs
    let whole (part : List Char) : Option Nat :=
      if part.isEmpty || part.length > 4 then none else radixNat? 16 part
    match parts.getLast? with
    | some last =>
      if last.contains '.' then do
        some ((← parts.dropLast.mapM whole) ++ (← embeddedIpv4? last))
      else parts.mapM whole
    | none => some []

/-- Eight groups; one double colon stands for at least one group of zero. -/
def ipv6? (cs : List Char) : Option (List Nat) :=
  match Text.cut [':', ':'] cs with
  | some (before, rest) => do
    let lead ← groups? before
    let tail ← groups? rest
    if before.contains '.' || lead.length + tail.length > 7 then none
    some (lead ++ List.replicate (8 - lead.length - tail.length) 0 ++ tail)
  | none => (groups? cs).filter (·.length == 8)

/-- The first longest run of zeros of at least two: where it starts and its length. -/
def longestZeros (groups : List Nat) : Option (Nat × Nat) :=
  let runs := (List.range groups.length).map fun i =>
    (i, ((groups.drop i).takeWhile (· == 0)).length)
  runs.foldl (fun best run =>
    if run.2 < 2 then best
    else
      match best with
      | some b => if run.2 > b.2 then some run else best
      | none => some run) none

/-- A number in base sixteen, with small letters. -/
def hexText (n : Nat) : String := String.ofList (Nat.toDigits 16 n)

/-- The groups with the longest run of zeros as a double colon. -/
def ipv6Text (groups : List Nat) : String :=
  let text (gs : List Nat) := ":".intercalate (gs.map hexText)
  match longestZeros groups with
  | some (i, n) => text (groups.take i) ++ "::" ++ text (groups.drop (i + n))
  | none => text groups

/-- The four parts of an IPv4 address. -/
def ipv4Text (n : Nat) : String :=
  ".".intercalate ([n / 0x1000000, n / 0x10000 % 256, n / 0x100 % 256, n % 256].map toString)

def text : Host → String
  | .name s => s
  | .ipv4 n => ipv4Text n
  | .ipv6 groups => "[" ++ ipv6Text groups ++ "]"

/-- An address in brackets. -/
def bracketed? (cs : List Char) : Option Host :=
  if cs.getLast? = some ']' then (ipv6? (cs.drop 1).dropLast).map .ipv6 else none

/-- The host of a scheme whose hosts are domains or addresses. -/
def domain? (cs : List Char) : Option Host :=
  if cs.head? = some '[' then bracketed? cs
  else do
    let decoded := (Text.Utf8.decodeLossy (Percent.decodeBytes cs)).toList
    let domain ← asciiDomain? decoded
    if domain.isEmpty || domain.any isForbiddenInDomain then none
    if endsInNumber domain then (ipv4? domain).map .ipv4
    else some (.name (String.ofList domain))

/-- The host of any other scheme. -/
def uninterpreted? (cs : List Char) : Option Host :=
  if cs.head? = some '[' then bracketed? cs
  else if cs.any isDelimiter then none
  else
    some (.name (String.ofList (Percent.encodeChars (fun c => 32 ≤ c.toNat && c.toNat < 127) cs)))

end Host

end SiteScrape.Url
