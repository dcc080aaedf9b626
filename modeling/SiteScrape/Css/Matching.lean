import SiteScrape.Css.Reading
import SiteScrape.Html.Node
import SiteScrape.Text.Blank

/-!
# Matching selectors

A chain of compounds holds of an element if its last compound does and the
rest of the chain holds of some element that the combinator reaches. Names of
elements and attributes are compared in lower case inside HTML elements and
as written elsewhere; identifiers and classes are always compared as written.
-/

namespace SiteScrape.Css

open SiteScrape.Html (Spot Tag Page Node)

/-- The elements that the left side of a combinator can stand for. -/
def Combinator.reach (c : Combinator) (e : Spot) : List Spot :=
  match c with
  | .descendant => e.ancestors
  | .child => e.parent?.toList
  | .next => e.before.head?.toList
  | .later => e.before

namespace Comparison

/-- Does `sub` occur in `cs`? -/
def occursIn (sub : List Char) : List Char → Bool
  | [] => sub.isEmpty
  | c :: cs => sub.isPrefixOf (c :: cs) || occursIn sub cs

/-- Does `value` compare to the operand as asked? An empty operand is found
nowhere, nor is it a word, a start or an end. -/
def holds (c : Comparison) (operand value : List Char) : Bool :=
  match c with
  | .equal => value == operand
  | .word => !operand.isEmpty && (Text.fieldsBy Token.isSpace value).contains operand
  | .dash => value == operand || (operand ++ ['-']).isPrefixOf value
  | .starts => !operand.isEmpty && operand.isPrefixOf value
  | .ends => !operand.isEmpty && operand.reverse.isPrefixOf value.reverse
  | .contains => !operand.isEmpty && occursIn operand value

end Comparison

/-- The spelling of a name inside an element of this kind. -/
def spelledIn (t : Tag) (name : String) : String :=
  if t.vocabulary = .html then name.toLower else name

namespace AttrTest

/-- Does the value of an attribute of the element pass? -/
def passes (a : AttrTest) (t : Tag) (value : String) : Bool :=
  match a.value with
  | none => true
  | some (comparison, operand, casing) =>
    let fold : Bool := match casing with
      | .sensitive => false
      | .insensitive => true
      | .insensitiveInHtml => t.vocabulary = .html
    let spell (s : String) : List Char := if fold then s.toLower.toList else s.toList
    comparison.holds (spell operand) (spell value)

def holds (a : AttrTest) (t : Tag) : Bool :=
  t.attrs.any fun b =>
    b.name == spelledIn t a.name && (a.anySpace || b.space = .none) && a.passes t b.value

end AttrTest

/-- The place of the element among its siblings, counting from one. -/
def Nth.placeOf (n : Nth) (e : Spot) : Nat :=
  let siblings := if n.fromEnd then e.behind else e.before
  let counted := siblings.filter fun s =>
    !n.ofType || (s.tag.name == e.tag.name && s.tag.vocabulary = e.tag.vocabulary)
  counted.length + 1

/-- What a search is carried out around: the number of the element that it
started from, and that of the anchor of the enclosing `has`. -/
structure Around where
  scope : Option Nat := none
  anchor : Option Nat := none

/-- The classes of an element. -/
def classesOf (e : Spot) : List (List Char) :=
  ((e.attr? "class").map fun s => Text.fieldsBy Text.isBlank s.toList).getD []

/-- Elements that a `has` can be about: below the element, and behind it. -/
def surroundings (e : Spot) : List Spot :=
  e.descendants ++ e.behind.flatMap fun s => s :: s.descendants

/-- Nothing but comments stands in the element. -/
def isHollow (e : Spot) : Bool :=
  e.children.all fun n => match n with
    | .comment _ => true
    | _ => false

mutual

/-- Does the element pass a test? -/
def Simple.holds (around : Around) : Simple → Spot → Bool
  | .anything, _ => true
  | .nothing, _ => false
  | .name n, e => e.tag.name == spelledIn e.tag n
  | .id n, e => e.attr? "id" == some n
  | .class_ n, e => (classesOf e).contains n.toList
  | .attr t, e => t.holds e.tag
  | .nth n, e => n.holds (n.placeOf e)
  | .root, e => e.isRoot
  | .empty, e => isHollow e
  | .scope, e => match around.scope with
    | some number => e.tag.number == number
    | none => e.isRoot
  | .anchor, e => around.anchor == some e.tag.number
  | .anyOf list, e => anyHolds around list e
  | .noneOf list, e => !anyHolds around list e
  | .has list, e =>
    (surroundings e).any fun x => anyHolds { around with anchor := some e.tag.number } list x

/-- Does the element pass all tests of a compound? -/
def allHold (around : Around) : List Simple → Spot → Bool
  | [], _ => true
  | s :: rest, e => s.holds around e && allHold around rest e

/-- Is the element at the end of a chain? -/
def Complex.holds (around : Around) : Complex → Spot → Bool
  | .last compound, e => allHold around compound e
  | .step left by_ compound, e =>
    allHold around compound e && (by_.reach e).any fun x => left.holds around x

/-- Does one of the alternatives hold? -/
def anyHolds (around : Around) : List Complex → Spot → Bool
  | [], _ => false
  | c :: rest, e => c.holds around e || anyHolds around rest e

end

namespace Selector

/-- Does the selector hold of an element, in a search that started from the
element numbered `scope`? -/
def holds (s : Selector) (scope : Option Nat) (e : Spot) : Bool :=
  anyHolds { scope } s.alternatives e

/-- The elements below `e` that the selector holds of, in the order of the page. -/
def below (s : Selector) (e : Spot) : List Spot :=
  e.descendants.filter (s.holds (some e.tag.number))

/-- The elements of a page that the selector holds of. -/
def inPage (s : Selector) (p : Page) : List Spot :=
  p.elements.filter (s.holds none)

end Selector

end SiteScrape.Css
