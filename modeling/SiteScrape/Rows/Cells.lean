import SiteScrape.Css.Matching
import SiteScrape.Decimal.Whole
import SiteScrape.Html.Construction
import SiteScrape.Html.Writer

/-!
# Cells of a row

The columns that a row takes, and rows made up from others: a row with empty
cells before its own, and several rows as one node. Rows are made up by
reading markup again, so the page they come from stays as it is.
-/

namespace SiteScrape.Rows

open SiteScrape.Html (Spot Page Tag Attr)

/-- The cells right below a row. -/
def cells (row : Spot) : List Spot :=
  row.childSpots.filter fun c => c.tag.name == "td" || c.tag.name == "th"

/-- How many columns or rows a cell takes, by the attribute that says so. -/
def span (attr : String) (cell : Spot) : Nat :=
  match (cell.attr? attr).bind fun v => Decimal.index? (Text.trim v) with
  | some 0 => 1
  | some n => n
  | none => 1

def columnSpan (cell : Spot) : Nat := span "colspan" cell

def rowSpan (cell : Spot) : Nat := span "rowspan" cell

/-- The number of columns that cells take together. -/
def widthOf : List Spot → Nat
  | [] => 0
  | cell :: rest => columnSpan cell + widthOf rest

/-- The number of columns that a row takes. -/
def width (row : Spot) : Nat := widthOf (cells row)

/-- A cell takes at least one column. -/
theorem span_pos (attr : String) (cell : Spot) : 0 < span attr cell := by
  unfold span
  split <;> simp_all
  rename_i n h _
  exact Nat.pos_of_ne_zero h

/-- A character of an attribute value. -/
def escapeChar (c : Char) : List Char :=
  match c with
  | '&' => "&amp;".toList
  | '"' => "&quot;".toList
  | '<' => "&lt;".toList
  | '>' => "&gt;".toList
  | c => [c]

/-- The start tag of an element. -/
def openTag (t : Tag) : String :=
  let attrs := t.attrs.map fun a =>
    " " ++ a.name ++ "=\"" ++ Html.escapeWith escapeChar a.value ++ "\""
  "<" ++ t.name ++ String.join attrs ++ ">"

/-- Markup of rows inside a table. -/
def inTable (rows : String) : String := "<table><tbody>" ++ rows ++ "</tbody></table>"

def isTableRow (row : Spot) : Bool := row.tag.name == "tr"

/-- The markup of a row with `pad` empty cells before its own. -/
def paddedMarkup (pad : Nat) (row : Spot) : String :=
  let markup := openTag row.tag ++ String.join (List.replicate pad "<td></td>") ++
    row.innerMarkup ++ "</" ++ row.tag.name ++ ">"
  if isTableRow row then inTable markup else markup

/-- A page with the row padded by `pad` empty cells. -/
def paddedPage (pad : Nat) (row : Spot) : Page := .fragmentOfMarkup (paddedMarkup pad row)

/-- The markup of several rows in one node. -/
def mergedMarkup (rows : List Spot) : String :=
  let joined := String.join (rows.map Spot.outerMarkup)
  if rows.head?.any isTableRow then inTable joined
  else "<div data-merged=\"true\">" ++ joined ++ "</div>"

/-- A page with several rows in one node. -/
def mergedPage (rows : List Spot) : Page := .fragmentOfMarkup (mergedMarkup rows)

/-- The first element of a page that a selector text selects. -/
def firstIn? (page : Page) (selector : String) : Option Spot :=
  (Css.Selector.read? selector).bind fun s => (s.inPage page).head?

/-- The row padded by `pad` empty cells. -/
def padded? (pad : Nat) (row : Spot) : Option Spot := firstIn? (paddedPage pad row) row.tag.name

/-- The node that holds several rows. -/
def merged? (rows : List Spot) : Option Spot :=
  firstIn? (mergedPage rows) (if rows.head?.any isTableRow then "tbody" else "div[data-merged]")

end SiteScrape.Rows
