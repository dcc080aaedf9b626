import SiteScrape.Json.Writer
import SiteScrape.Pattern.Match
import SiteScrape.Text.Blank
import SiteScrape.Text.Case
import SiteScrape.Text.Find
import SiteScrape.Url.Percent
import SiteScrape.Url.Query

/-!
# Text filters

Each of these takes a value and a list of arguments. Values that are not texts
are written as texts first, except where a filter says otherwise.
-/

namespace SiteScrape.Filter

/-- The arguments as texts; an array stands for its items. -/
def textArgs (args : List Json) : List String :=
  args.flatMap fun
    | .arr items => items.map Json.asText
    | arg => [arg.asText]

/-- The first query parameter with one of the given names, or the empty text;
the name is `id` unless another is given. -/
def queryParameter (v : Json) (args : List Json) : Json :=
  let names := textArgs args
  let names := if names.isEmpty then ["id"] else names
  .str ((Url.parameter? v.asText names).getD "")

/-- Texts under `f`, other values unchanged. -/
def mapText (f : String → String) (v : Json) : Json :=
  match v with
  | .str s => .str (f s)
  | v => v

def firstText (args : List Json) : String := (args.head?.map Json.asText).getD ""

def append (v : Json) (args : List Json) : Json := .str (v.asText ++ firstText args)

def prepend (v : Json) (args : List Json) : Json := .str (firstText args ++ v.asText)

/-- Replaces every occurrence of the first argument by the second; an absent or
empty first argument changes nothing. -/
def replace (v : Json) (args : List Json) : Json :=
  if (firstText args).isEmpty then v
  else .str (Text.replaceAll (firstText args) (firstText (args.drop 1)) v.asText)

def urlEncode (v : Json) : Json := .str (Url.Percent.encodeComponent v.asText)

/-- Undoes `urlEncode`; a text whose escapes are no UTF-8 stays as it is. -/
def urlDecode (v : Json) : Json :=
  .str ((Url.Percent.decodeComponent? v.asText).getD v.asText)

/-- The item at `index`, counted from the end when negative. -/
def itemAt? (items : List String) (index : Int) : Option String :=
  if 0 ≤ index then items[index.toNat]?
  else if index.natAbs ≤ items.length then items[items.length - index.natAbs]?
  else none

/-- The part of the text between separators (a space by default) at an index. -/
def split (v : Json) (args : List Json) : Json :=
  let separator := (args.head?.map Json.asText).getD " "
  let index : Int :=
    match args with
    | _ :: .num (.int n _ _) :: _ => if n < 0x8000000000000000 then n else 0
    | _ => 0
  .str ((itemAt? (Text.splitOn separator v.asText) index).getD "")

/-- Drops at both ends the characters of the first argument, or else blanks. -/
def trim (v : Json) (args : List Json) : Json :=
  let chars := (firstText args).toList
  let drops : Char → Bool := if chars.isEmpty then Text.isBlank else chars.contains
  .str (String.ofList (Text.trimBoth drops v.asText.toList))

/-- The group, number 1 by default, of the first match of a pattern, or the
whole match when the group takes no part; the empty text without a match.
A pattern that cannot be read changes nothing. -/
def capture (v : Json) (args : List Json) : Json :=
  match args.head? with
  | none => v
  | some pattern =>
    match Pattern.compile? pattern.asText with
    | none => v
    | some compiled =>
      let group := match args with
        | _ :: .num n :: _ => (n.toUInt64?.map UInt64.toNat).getD 1
        | _ => 1
      let groups := (Pattern.captures? compiled v.asText).getD []
      .str (((groups[group]?.join).or groups.head?.join).getD "")

def toLowerCase (v : Json) : Json := mapText Text.lower v

def toUpperCase (v : Json) : Json := mapText Text.upper v

end SiteScrape.Filter
