import SiteScrape.Css.Matching
import SiteScrape.Field.Basic
import SiteScrape.Json.Path

/-!
# Where rows are

Of several candidates the first that finds any row counts.
-/

namespace SiteScrape.Rows

open SiteScrape.Html (Spot Page)

/-- The first list that is not empty. -/
def firstFilled {α : Type} (lists : List (List α)) : List α :=
  (lists.find? fun rows => !rows.isEmpty).getD []

/-- The rows of a page that one selector finds. -/
def elementsAt (page : Page) (selector : String) : List Spot :=
  match Css.Selector.read? selector with
  | some css => css.inPage page
  | none => []

/-- The rows of a page. -/
def elements (page : Page) (selectors : List String) : List Spot :=
  firstFilled (selectors.map (elementsAt page))

/-- The items of an array, or the values of an object. -/
def membersOf (v : Json) : List Json :=
  match v with
  | .arr items => items
  | .obj fields => Assoc.values fields
  | _ => []

/-- The rows of a JSON body that one path finds. -/
def itemsAt (body : Json) (path : String) : List Json :=
  ((if path = Field.selfPlace then some body else body.at? path).map membersOf).getD []

/-- The rows of a JSON body; without paths, those of the body itself. -/
def items (body : Json) (paths : List String) : List Json :=
  firstFilled ((if paths.isEmpty then [Field.selfPlace] else paths).map (itemsAt body))

end SiteScrape.Rows
