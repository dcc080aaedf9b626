import SiteScrape.Text.Find

/-!
# Nodes of a page

A node is a text, a comment or an element with its children. Every element
has the number under which it was made while its page was read; elements of a
page are listed in the order of these numbers.
-/

namespace SiteScrape.Html

/-- The vocabulary that an element belongs to. -/
inductive Vocabulary where
  | html
  | svg
  | mathml
  deriving DecidableEq, Repr

/-- The space that the name of an attribute lives in. -/
inductive AttrSpace where
  | none
  | xlink
  | xml
  | xmlns
  deriving DecidableEq, Repr

/-- An attribute. -/
structure Attr where
  space : AttrSpace := .none
  name : String
  value : String
  deriving DecidableEq, Repr

/-- What an element is, apart from its children. -/
structure Tag where
  number : Nat
  vocabulary : Vocabulary
  name : String
  attrs : List Attr
  deriving DecidableEq, Repr

namespace Tag

/-- The value of a plain attribute. -/
def attr? (t : Tag) (name : String) : Option String :=
  (t.attrs.find? fun a => a.space = .none && a.name == name).map (·.value)

/-- An HTML element of this name. -/
def isHtml (t : Tag) (name : String) : Bool := t.vocabulary = .html && t.name == name

end Tag

/-- A node of a page. -/
inductive Node where
  | text (s : String)
  | comment (s : String)
  | element (tag : Tag) (children : List Node)

namespace Node

mutual

/-- All text inside a node. -/
def textOf : Node → String
  | .text s => s
  | .comment _ => ""
  | .element _ children => textOfAll children

def textOfAll : List Node → String
  | [] => ""
  | n :: rest => textOf n ++ textOfAll rest

end

end Node

/-- The surroundings of an element one level up: the parent and its siblings,
those before it nearest first. -/
structure Frame where
  tag : Tag
  left : List Node
  right : List Node

/-- The way from an element up to the root, the parent first. -/
structure Trail where
  frames : List Frame := []
  /-- The root is that of a fragment and not of a page. -/
  inFragment : Bool := false

/-- The trail one level down. -/
def Trail.down (t : Trail) (f : Frame) : Trail := { t with frames := f :: t.frames }

/-- An element where it stands in its page: its siblings, those before it
nearest first, and the way up to the root. -/
structure Spot where
  tag : Tag
  children : List Node
  left : List Node := []
  right : List Node := []
  up : Trail := {}

namespace Spot

/-- The element as a node. -/
def node (s : Spot) : Node := .element s.tag s.children

/-- All text inside the element. -/
def text (s : Spot) : String := Node.textOfAll s.children

def attr? (s : Spot) (name : String) : Option String := s.tag.attr? name

/-- The frame that the children of the element have around them. -/
def frame (s : Spot) : Frame := ⟨s.tag, s.left, s.right⟩

/-- The elements above an element `node` between `left` and `right`, the
parent first. -/
def climb (inFragment : Bool) (node : Node) (left right : List Node) : List Frame → List Spot
  | [] => []
  | f :: up =>
    let children := left.reverse ++ node :: right
    ⟨f.tag, children, f.left, f.right, ⟨up, inFragment⟩⟩ ::
      climb inFragment (.element f.tag children) f.left f.right up

/-- The elements above the element, the parent first. -/
def ancestors (s : Spot) : List Spot :=
  climb s.up.inFragment s.node s.left s.right s.up.frames

/-- The parent element. -/
def parent? (s : Spot) : Option Spot := s.ancestors.head?

/-- The root element of a page. -/
def isRoot (s : Spot) : Bool := s.up.frames.isEmpty && !s.up.inFragment

/-- The elements among `nodes`, the siblings `left` standing before them. -/
def among (up : Trail) (left : List Node) : List Node → List Spot
  | [] => []
  | .element tag children :: rest =>
    ⟨tag, children, left, rest, up⟩ :: among up (.element tag children :: left) rest
  | n :: rest => among up (n :: left) rest

/-- The child elements. -/
def childSpots (s : Spot) : List Spot := among (s.up.down s.frame) [] s.children

mutual

/-- The elements at and below a node. -/
def atAndBelow (up : Trail) (left right : List Node) : Node → List Spot
  | .element tag children =>
    ⟨tag, children, left, right, up⟩ :: below (up.down ⟨tag, left, right⟩) [] children
  | _ => []

/-- The elements at and below some nodes, in the order of the page. -/
def below (up : Trail) (left : List Node) : List Node → List Spot
  | [] => []
  | n :: rest => atAndBelow up left rest n ++ below up (n :: left) rest

end

/-- The elements below the element, in the order of the page. -/
def descendants (s : Spot) : List Spot := below (s.up.down s.frame) [] s.children

/-- The elements among siblings that stand before, nearest first; `right` are
the nodes behind them. -/
def leftwards (up : Trail) (right : List Node) : List Node → List Spot
  | [] => []
  | .element tag children :: rest =>
    ⟨tag, children, rest, right, up⟩ :: leftwards up (.element tag children :: right) rest
  | n :: rest => leftwards up (n :: right) rest

/-- The sibling elements before the element, nearest first. -/
def before (s : Spot) : List Spot := leftwards s.up (s.node :: s.right) s.left

/-- The sibling elements behind the element, nearest first. -/
def behind (s : Spot) : List Spot := among s.up (s.node :: s.left) s.right

end Spot

/-- A page that has been read, or a fragment of one. -/
structure Page where
  root : Spot

namespace Page

/-- All elements, in the order in which they were made. -/
def elements (p : Page) : List Spot :=
  (p.root :: p.root.descendants).mergeSort fun a b => a.tag.number ≤ b.tag.number

end Page

end SiteScrape.Html
