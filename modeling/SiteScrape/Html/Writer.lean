import SiteScrape.Html.Node

/-!
# Writing markup

Markup written from nodes reads back as the same nodes where the rules of
reading allow it. Text inside scripts and the like stands as it is.
-/

namespace SiteScrape.Html

/-- Elements without an end tag. -/
def voidNames : List String :=
  ["area", "base", "basefont", "bgsound", "br", "col", "embed", "frame", "hr", "img", "input",
    "keygen", "link", "meta", "param", "source", "track", "wbr"]

/-- Elements whose text stands as it is. -/
def rawTextNames : List String :=
  ["style", "script", "xmp", "iframe", "noembed", "noframes", "plaintext"]

/-- A character of text. -/
def escapeTextChar (c : Char) : List Char :=
  match c with
  | '&' => "&amp;".toList
  | '\u00a0' => "&nbsp;".toList
  | '<' => "&lt;".toList
  | '>' => "&gt;".toList
  | c => [c]

/-- A character of an attribute value between double quotes. -/
def escapeValueChar (c : Char) : List Char :=
  match c with
  | '&' => "&amp;".toList
  | '\u00a0' => "&nbsp;".toList
  | '"' => "&quot;".toList
  | c => [c]

def escapeWith (f : Char → List Char) (s : String) : String := String.ofList (s.toList.flatMap f)

/-- The name of an attribute with its space. -/
def Attr.fullName (a : Attr) : String :=
  match a.space with
  | .none => a.name
  | .xlink => "xlink:" ++ a.name
  | .xml => "xml:" ++ a.name
  | .xmlns => if a.name == "xmlns" then a.name else "xmlns:" ++ a.name

def Attr.markup (a : Attr) : String :=
  " " ++ a.fullName ++ "=\"" ++ escapeWith escapeValueChar a.value ++ "\""

def Tag.openMarkup (t : Tag) : String :=
  "<" ++ t.name ++ String.join (t.attrs.map Attr.markup) ++ ">"

/-- The element has children and an end tag in its markup. -/
def Tag.hasEnd (t : Tag) : Bool := !(t.vocabulary = .html && voidNames.contains t.name)

/-- The text right inside the element stands as it is. -/
def Tag.keepsText (t : Tag) : Bool := t.vocabulary = .html && rawTextNames.contains t.name

namespace Node

mutual

/-- The markup of a node; `keep` says that text stands as it is. -/
def markup (keep : Bool) : Node → String
  | .text s => if keep then s else escapeWith escapeTextChar s
  | .comment s => "<!--" ++ s ++ "-->"
  | .element tag children =>
    if tag.hasEnd then
      tag.openMarkup ++ markupAll tag.keepsText children ++ "</" ++ tag.name ++ ">"
    else tag.openMarkup

/-- The markup of nodes in a row. -/
def markupAll (keep : Bool) : List Node → String
  | [] => ""
  | n :: rest => markup keep n ++ markupAll keep rest

end

end Node

namespace Spot

/-- The markup of the element. -/
def outerMarkup (s : Spot) : String := s.node.markup false

/-- The markup of the children of the element. -/
def innerMarkup (s : Spot) : String := Node.markupAll false s.children

end Spot

end SiteScrape.Html
