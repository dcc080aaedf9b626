import SiteScrape.Filter.Table
import SiteScrape.Text.Blank

/-!
# Field descriptions

How one field is read off a node: candidate places in order of preference,
what to take at a place, and the filters that the result runs through.
-/

namespace SiteScrape

/-- The description of one field. -/
structure Field where
  /-- Candidate places; the first that yields something wins. -/
  selectors : List String := []
  attr : Option String := none
  data : Option String := none
  processor : Option String := none
  /-- Values by rule; the first rule that fits the place wins. -/
  cases : Option Fields := none
  filters : List Filter := []
  /-- Filters that stand in for `filters` at one place. -/
  switchFilters : Assoc (List Filter) := []
  /-- The value without any place, or when no place yields anything. -/
  text : Option Json := none

namespace Field

/-- The place that is the node itself. -/
def selfPlace : String := ":self"

/-- Can yield anything at all. -/
def isConfigured (f : Field) : Bool := !f.selectors.isEmpty || f.text.isSome

/-- The filters of a place. -/
def filtersAt (f : Field) (place : String) : List Filter :=
  (f.switchFilters.get? place).getD f.filters

/-- Null, blank texts and empty arrays count as nothing. -/
def isNothing (v : Json) : Bool :=
  match v with
  | .null => true
  | .str s => Text.isBlankText s
  | .arr items => items.isEmpty
  | _ => false

open Decode in
def decode : Decoder Field := fun v => do
  let e ← record ["selector", "attr", "data", "elementProcess", "case", "filters",
    "switchFilters", "text"] v
  some {
    selectors := ← withDefault e "selector" oneOrMany []
    attr := ← Decode.optional e "attr" string
    data := ← Decode.optional e "data" string
    processor := ← Decode.optional e "elementProcess" string
    cases := ← Decode.optional e "case" fields
    filters := ← withDefault e "filters" (list Filter.decode) []
    switchFilters := ← withDefault e "switchFilters" (sortedMap (list Filter.decode)) []
    text := ← Decode.optional e "text" any }

/-- A list of filters as written. -/
def encodeFilters (filters : List Filter) : Json := .arr (filters.map Filter.encode)

/-- An entry that is left out when there is nothing in it. -/
def unlessEmpty (key : String) (isEmpty : Bool) (v : Json) : Fields :=
  if isEmpty then [] else [(key, v)]

def encode (f : Field) : Json :=
  .obj (unlessEmpty "selector" f.selectors.isEmpty (.ofStrings f.selectors) ++
    Json.optional "attr" (f.attr.map .str) ++
    Json.optional "data" (f.data.map .str) ++
    Json.optional "elementProcess" (f.processor.map .str) ++
    Json.optional "case" (f.cases.map .obj) ++
    unlessEmpty "filters" f.filters.isEmpty (encodeFilters f.filters) ++
    unlessEmpty "switchFilters" f.switchFilters.isEmpty
      (.obj (f.switchFilters.mapValues encodeFilters)) ++
    Json.optional "text" f.text)

end Field

end SiteScrape
