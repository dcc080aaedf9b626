import SiteScrape.Definition.Basic
import SiteScrape.Rows.Cells
import SiteScrape.Rows.Locate

/-!
# Columns found by marks

A field without selectors of its own can take them from the header of the
table: the first header cell whose markup contains one of the field's marks
says in which column to look.
-/

namespace SiteScrape.Rows

open SiteScrape.Html (Spot Page)

/-- Cells with the columns where they begin, counting from `column`. -/
def positions (column : Nat) : List Spot → List (Nat × Spot)
  | [] => []
  | cell :: rest => (column, cell) :: positions (column + columnSpan cell) rest

/-- The column whose header has one of the marks. -/
def markedColumn? (header : Spot) (marks : List String) : Option Nat :=
  ((positions 1 (cells header)).find? fun (_, cell) =>
    marks.any fun mark => Text.contains cell.outerMarkup mark).map (·.1)

/-- The selector of a column. -/
def columnSelector (column : Nat) : String := "td:nth-child(" ++ toString column ++ ")"

/-- The field has selectors of its own. -/
def hasSelectors (fields : Assoc Field) (name : String) : Bool :=
  (fields.get? name).any fun f => !f.selectors.isEmpty

/-- One field with its selector found in the header, if it has none. -/
def placeField (header : Spot) (fields : Assoc Field) (name : String) (marks : List String) :
    Assoc Field :=
  if hasSelectors fields name then fields
  else match markedColumn? header marks with
    | some column =>
      fields.place name { (fields.get? name).getD {} with selectors := [columnSelector column] }
    | none => fields

/-- The fields with selectors found in the header of a page. -/
def detectColumns (page : Page) (marks : ColumnMarks) (fields : Assoc Field) : Assoc Field :=
  match (elements page marks.header).head? with
  | some header =>
    marks.markers.foldl (fun fields (name, marks) => placeField header fields name marks) fields
  | none => fields

end SiteScrape.Rows
