import SiteScrape.Css.Matching
import SiteScrape.Field.Basic
import SiteScrape.Json.Path
import SiteScrape.Json.Writer

/-!
# Reading a field

A field is read off a source: an element of a page or a JSON value. The first
candidate place that yields something decides which filters run; when none
does, the static text of the field runs through the plain filters.
-/

namespace SiteScrape

open SiteScrape.Html (Spot)

/-- What a field is read off. -/
inductive Source where
  | element (e : Spot)
  | json (v : Json)

namespace Source

def element? : Source → Option Spot
  | .element e => some e
  | .json _ => none

def json? : Source → Option Json
  | .element _ => none
  | .json v => some v

end Source

/-- A named way to take a value at a place, at a moment. -/
abbrev Processor := Int → Source → Json

/-- Whether a text of digits becomes a number. -/
inductive Coercion where
  | numeric
  /-- Identifiers keep their text: `007` stays as it is. -/
  | keep
  deriving DecidableEq, Repr

namespace Coercion

/-- The whole number that a text without blanks around it spells. -/
def whole? (s : String) : Option Json := (Decimal.int64? s).map .ofInt64

/-- A text without the blanks around it, as a number if that is wanted. -/
def finish (c : Coercion) (v : Json) : Json :=
  match v with
  | .str s =>
    let s := Text.trim s
    match c with
    | .numeric => (whole? s).getD (.str s)
    | .keep => .str s
  | v => v

end Coercion

/-- What fields are resolved with. -/
structure Resolver where
  filters : Filter.Table := []
  processors : Assoc Processor := []

namespace Field

/-- The place that a text names, seen from a source. -/
def place? (source : Source) (text : String) : Option Source :=
  if text = selfPlace then some source
  else match source with
    | .element e => do
      let css ← Css.Selector.read? text
      (css.below e).head?.map .element
    | .json v => (v.at? text).map .json

/-- The rule fits the element or something inside it. -/
def ruleFits (rule : String) (e : Spot) : Bool :=
  match Css.Selector.read? rule with
  | some css => css.holds none e || !(css.below e).isEmpty
  | none => false

/-- The value that the rules of a field give a place; null if none fits. An
element fits a selector, a JSON value fits its own text. -/
def caseOf (cases : Fields) : Source → Json
  | .element e => ((cases.find? fun rule => ruleFits rule.1 e).map (·.2)).getD .null
  | .json v => (Assoc.get? cases ((v.asString?).getD v.text)).getD .null

/-- What a field takes at a place. -/
def takeAt (r : Resolver) (now : Int) (f : Field) (place : Source) : Option Json :=
  match f.processor, f.cases with
  | some name, _ => (r.processors.get? name).map fun process => process now place
  | none, some cases => some (caseOf cases place)
  | none, none =>
    match place with
    | .element e =>
      match f.data, f.attr with
      | some data, _ => (e.attr? ("data-" ++ data)).map .str
      | none, some attr => (e.attr? attr).map .str
      | none, none => some (.str e.text)
    | .json v =>
      match f.attr.or f.data with
      | some path => v.at? path
      | none => some v

/-- What a field yields at a candidate, if it is something. -/
def yield? (r : Resolver) (now : Int) (f : Field) (source : Source) (candidate : String) :
    Option Json :=
  ((place? source candidate).bind (takeAt r now f)).filter fun v => !isNothing v

/-- The first candidate that yields something, and what it yields. -/
def winner? (r : Resolver) (now : Int) (f : Field) (source : Source) : Option (String × Json) :=
  f.selectors.findSome? fun candidate =>
    (yield? r now f source candidate).map fun v => (candidate, v)

/-- The value of a field without any place. -/
def fallback (f : Field) : Json := f.text.getD (.str "")

/-- The value of a field read off a source at a moment. -/
def resolve (r : Resolver) (now : Int) (f : Field) (source : Source) (c : Coercion) : Json :=
  match winner? r now f source with
  | some (candidate, v) => c.finish (r.filters.apply now v (f.filtersAt candidate))
  | none => c.finish (r.filters.apply now f.fallback f.filters)

end Field

end SiteScrape
