import SiteScrape.Css.Token

/-!
# Selectors

A selector is a list of alternatives. An alternative is a chain of compounds
joined by combinators, read from its last compound to the left; a compound is
a list of tests on one element.
-/

namespace SiteScrape.Css

/-- How the elements of two neighbouring compounds stand to each other. -/
inductive Combinator where
  /-- The left element is an ancestor. -/
  | descendant
  /-- The left element is the parent. -/
  | child
  /-- The left element is the sibling right before. -/
  | next
  /-- The left element is a sibling before. -/
  | later
  deriving DecidableEq, Repr

/-- How the value of an attribute is compared. -/
inductive Comparison where
  | equal
  /-- One of the words is equal. -/
  | word
  /-- Equal, or starts with the text and a hyphen. -/
  | dash
  | starts
  | ends
  | contains
  deriving DecidableEq, Repr

/-- Whether letter case counts in a comparison. -/
inductive Casing where
  | sensitive
  | insensitive
  /-- Case does not count in HTML elements. -/
  | insensitiveInHtml
  deriving DecidableEq, Repr

/-- What is asked of an attribute. -/
structure AttrTest where
  name : String
  /-- Attributes in a space of their own count too. -/
  anySpace : Bool := false
  /-- The comparison of the value; without one the attribute has to be there. -/
  value : Option (Comparison × String × Casing) := none
  deriving DecidableEq, Repr

/-- Places `step * n + offset` among siblings, for `n ≥ 0`, counting from one. -/
structure Nth where
  step : Int
  offset : Int
  /-- Only siblings of the same name count. -/
  ofType : Bool := false
  /-- Counting starts with the last sibling. -/
  fromEnd : Bool := false
  deriving DecidableEq, Repr

/-- Is `place` one of the places? -/
def Nth.holds (n : Nth) (place : Int) : Bool :=
  if n.step = 0 then place == n.offset
  else (place - n.offset) % n.step == 0 && 0 ≤ (place - n.offset) / n.step

mutual

/-- A test on one element. -/
inductive Simple where
  | anything
  /-- No element passes. -/
  | nothing
  | name (n : String)
  | id (n : String)
  | class_ (n : String)
  | attr (t : AttrTest)
  | nth (n : Nth)
  | root
  | empty
  /-- The element that the search started from. -/
  | scope
  /-- The element whose surroundings are looked at by the enclosing `has`. -/
  | anchor
  | anyOf (alternatives : List Complex)
  | noneOf (alternatives : List Complex)
  /-- Some element around satisfies an alternative, in which this element is the anchor. -/
  | has (alternatives : List Complex)

/-- A chain of compounds. -/
inductive Complex where
  | last (compound : List Simple)
  | step (left : Complex) (by_ : Combinator) (compound : List Simple)

end

/-- A selector: an element is selected by any of its alternatives. -/
structure Selector where
  alternatives : List Complex

end SiteScrape.Css
