import SiteScrape.Config.Basic
import SiteScrape.Decimal.Whole
import SiteScrape.Text.Blank
import SiteScrape.Toml.Reading

/-!
# Settings from the environment

A variable whose name begins with the mark of the program is a setting: the
rest of its name, cut at underscores, is the way to it. Its value is a truth
value, a number, a text, a list or a table, and a plain text if it is none of
these. Settings lie on top of those of the configuration file.
-/

namespace SiteScrape.Environment

/-- How the names of settings begin, in any case of letters. -/
def lead : String := "TRACKHUB_"

/-- The variable that names the configuration file is no setting. -/
def fileName : String := "config"

/-- Blanks around values. -/
def isSpace (c : Char) : Bool :=
  c == ' ' || c == '\t' || c == '\n' || c == '\r' || c == '\x0c'

def skipSpace (cs : List Char) : List Char := cs.dropWhile isSpace

/-- A character that ends a value without quotes. -/
def isSeparator (c : Char) : Bool :=
  c == ',' || c == '\x7b' || c == '\x7d' || c == '[' || c == ']'

/-- A character of a key without quotes. -/
def isKeyChar (c : Char) : Bool := c.isAlphanum || c == '_' || c == '-'

/-- The characters of a text up to its closing quote, which a backslash keeps
from closing it, and what follows. -/
def quoted? : List Char → Option (List Char × List Char)
  | '"' :: rest => some ([], rest)
  | '\\' :: c :: rest => (quoted? rest).map fun (body, rest) => ('\\' :: c :: body, rest)
  | c :: rest => (quoted? rest).map fun (body, rest) => (c :: body, rest)
  | [] => none

/-- A text with its escapes replaced. -/
def unescape? : Nat → List Char → Option (List Char)
  | 0, _ => none
  | _ + 1, [] => some []
  | fuel + 1, '\\' :: rest => do
    let (c, rest) ← Toml.escape? rest
    some (c :: (← unescape? fuel rest))
  | fuel + 1, c :: rest => (unescape? fuel rest).map (c :: ·)

/-- A text in double quotes. -/
def string? : List Char → Option (String × List Char)
  | '"' :: rest => do
    let (body, rest) ← quoted? rest
    some (String.ofList (← unescape? (body.length + 1) body), rest)
  | _ => none

/-- The double that a text with a point in it spells. -/
def fractional? (cs : List Char) : Option Json := do
  let (negative, rest) := Toml.sign cs
  let whole := rest.takeWhile Char.isDigit
  let rest := rest.dropWhile Char.isDigit
  let (fraction, rest) := match rest with
    | '.' :: rest => (rest.takeWhile Char.isDigit, rest.dropWhile Char.isDigit)
    | rest => ([], rest)
  if whole.isEmpty && fraction.isEmpty then none
  let exponent : Int ← match rest with
    | [] => some 0
    | e :: rest =>
      let (negative, rest) := Toml.sign rest
      if (e == 'e' || e == 'E') && !rest.isEmpty && rest.all Char.isDigit then
        let n : Int := Decimal.natOf rest
        some (if negative then -n else n)
      else none
  let size := Decimal.nearestShifted whole fraction exponent
  some (.num (.float (if negative then -size else size)))

/-- What a value without quotes stands for. -/
def bare (cs : List Char) : Json :=
  let text := String.ofList cs
  match if cs.contains '.' then fractional? cs else none with
  | some v => v
  | none =>
    match Decimal.index? text, Decimal.int64? text with
    | some n, _ => .ofInt n
    | none, some n => .ofInt64 n
    | none, none => .str text

/-- The key of a pair. -/
def key? (cs : List Char) : Option (String × List Char) :=
  match cs with
  | '"' :: _ => string? cs
  | _ =>
    let word := cs.takeWhile isKeyChar
    if word.isEmpty then none else some (String.ofList word, cs.dropWhile isKeyChar)

mutual

/-- A value with blanks around it. -/
def value? : Nat → List Char → Option (Json × List Char)
  | 0, _ => none
  | fuel + 1, cs =>
    let found : Option (Json × List Char) := match skipSpace cs with
      | 't' :: 'r' :: 'u' :: 'e' :: rest => some (.bool true, rest)
      | 'f' :: 'a' :: 'l' :: 's' :: 'e' :: rest => some (.bool false, rest)
      | '\x7b' :: rest => (pairs? fuel [] rest).map fun (es, rest) => (.obj es, rest)
      | '[' :: rest => (items? fuel rest).map fun (vs, rest) => (.arr vs, rest)
      | '"' :: rest => (string? ('"' :: rest)).map fun (s, rest) => (.str s, rest)
      | '\'' :: c :: '\'' :: rest => some (.str c.toString, rest)
      | '\'' :: _ => none
      | rest =>
        let word := rest.takeWhile fun c => !isSeparator c
        some (bare (Text.trimBoth Text.isBlank word), rest.drop word.length)
    found.map fun (v, rest) => (v, skipSpace rest)

/-- The items of a list and its closing bracket. -/
def items? : Nat → List Char → Option (List Json × List Char)
  | 0, _ => none
  | fuel + 1, cs =>
    match cs with
    | ']' :: rest => some ([], rest)
    | cs => do
      let (v, rest) ← value? fuel cs
      match rest with
      | ',' :: rest =>
        let (more, rest) ← items? fuel rest
        some (v :: more, rest)
      | ']' :: rest => some ([v], rest)
      | _ => none

/-- The pairs of a table and its closing brace. -/
def pairs? : Nat → Fields → List Char → Option (Fields × List Char)
  | 0, _, _ => none
  | fuel + 1, es, cs =>
    match cs with
    | '\x7d' :: rest => some (es, rest)
    | cs => do
      let (key, rest) ← key? (skipSpace cs)
      let rest ← Toml.expect? '=' (skipSpace rest)
      let (v, rest) ← value? fuel rest
      let es := Assoc.place es key v
      match rest with
      | ',' :: rest => pairs? fuel es rest
      | '\x7d' :: rest => some (es, rest)
      | _ => none

end

/-- The value that a text stands for. -/
def valueOf (s : String) : Json :=
  match value? (s.length + 1) s.toList with
  | some (v, []) => v
  | _ => .str s

/-- The way that the name of a variable leads, if it is that of a setting. -/
def path? (name : String) : Option (List String) := do
  let rest ← Text.stripLead (Text.asciiLower lead) (Text.asciiLower (Text.trim name))
  if rest == fileName then none
  let parts := Text.splitOn "." (Text.replaceAll "_" "." rest)
  if parts.any String.isEmpty then none else some parts

/-- A value at the end of a way. -/
def nested (v : Json) : List String → Json
  | [] => v
  | key :: path => .obj [(key, nested v path)]

mutual

/-- One value on top of another: tables are joined, anything else is replaced. -/
def overlay (lower : Json) : Json → Json
  | .obj upper =>
    match lower with
    | .obj lower => .obj (overlayFields lower upper)
    | _ => .obj upper
  | upper => upper

def overlayFields (lower : Fields) : List (String × Json) → Fields
  | [] => lower
  | (key, v) :: rest =>
    let v := match Assoc.get? lower key with
      | some below => overlay below v
      | none => v
    overlayFields (Assoc.place lower key v) rest

end

/-- The settings of variables together, later ones on top. -/
def settings (vars : List (String × String)) : Json :=
  vars.foldl (fun v (name, text) =>
    match path? name with
    | some path => overlay v (nested (valueOf text) path)
    | none => v) (.obj [])

/-- A value with the settings of some variables on top. -/
def apply (v : Json) (vars : List (String × String)) : Json :=
  overlay v (settings vars)

end SiteScrape.Environment
