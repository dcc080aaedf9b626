import SiteScrape.Css.Basic

/-!
# Reading a selector

A selector is refused as a whole if any of its alternatives has a fault;
inside `:is` and `:where` a faulty alternative selects nothing and the others
stand. Unknown pseudo-classes and all pseudo-elements are faults.
-/

namespace SiteScrape.Css

namespace Nth

/-- The digits behind `n-` in a unit such as `n-12`, as a negative offset. -/
def dashOffset? (unit : List Char) : Option Int :=
  match unit with
  | n :: '-' :: d :: digits =>
    if (n == 'n' || n == 'N') && (d :: digits).all Char.isDigit then
      some (Token.clampWhole
        (-((d :: digits).foldl (fun n d => n * 10 + (Token.hexValue d : Int)) 0)))
    else none
  | _ => none

/-- The offset behind a sign that stands alone. -/
def signless? (step sign : Int) : List Piece → Option (Int × Int)
  | [.token (.number false (some b))] => some (step, sign * b)
  | _ => none

/-- The offset, if there is one. -/
def offset? (step : Int) : List Piece → Option (Int × Int)
  | [] => some (step, 0)
  | .token (.delim '+') :: rest => signless? step 1 rest
  | .token (.delim '-') :: rest => signless? step (-1) rest
  | [.token (.number true (some b))] => some (step, b)
  | _ => none

/-- What follows `step` times the unit `unit`. -/
def behindUnit? (step : Int) (unit : String) (rest : List Piece) : Option (Int × Int) :=
  if unit.toLower == "n" then offset? step rest
  else if unit.toLower == "n-" then signless? step (-1) rest
  else match dashOffset? unit.toList, rest with
    | some b, [] => some (step, b)
    | _, _ => none

/-- Step and offset, from pieces without blanks; `adjacent` is the piece right
behind a leading plus. -/
def stepAndOffset? (adjacent : Option Piece) (pieces : List Piece) : Option (Int × Int) :=
  match pieces with
  | [.token (.number _ (some b))] => some (0, b)
  | .token (.dimension _ (some a) unit) :: rest => behindUnit? a unit rest
  | .token (.ident name) :: rest =>
    if name.toLower == "even" then if rest.isEmpty then some (2, 0) else none
    else if name.toLower == "odd" then if rest.isEmpty then some (2, 1) else none
    else match name.toList with
      | '-' :: unit => behindUnit? (-1) (String.ofList unit) rest
      | _ => behindUnit? 1 name rest
  | .token (.delim '+') :: .token (.ident name) :: rest =>
    if adjacent.any Piece.isBlank then none else behindUnit? 1 name rest
  | _ => none

/-- The places that the argument of a counting pseudo-class names. -/
def ofPieces? (ofType fromEnd : Bool) (pieces : List Piece) : Option Nth :=
  let pieces := pieces.dropWhile Piece.isBlank
  (stepAndOffset? pieces[1]? (pieces.filter fun p => !p.isBlank)).map fun (a, b) =>
    ⟨a, b, ofType, fromEnd⟩

end Nth

/-- Attributes whose values are compared without regard to case in HTML. -/
def caselessAttributes : List String :=
  ["accept", "accept-charset", "align", "alink", "axis", "bgcolor", "charset", "checked",
    "clear", "codetype", "color", "compact", "declare", "defer", "dir", "direction", "disabled",
    "enctype", "face", "frame", "hreflang", "http-equiv", "lang", "language", "link", "media",
    "method", "multiple", "nohref", "noresize", "noshade", "nowrap", "readonly", "rel", "rev",
    "rules", "scope", "scrolling", "selected", "shape", "target", "text", "type", "valign",
    "valuetype", "vlink"]

namespace AttrTest

/-- The name of the attribute, and the pieces behind it. -/
def name? (pieces : List Piece) : Option (String × Bool × List Piece) :=
  match pieces.dropWhile Piece.isBlank with
  | .token (.ident _) :: .token (.delim '|') :: _ => none
  | .token (.ident n) :: rest => some (n, false, rest)
  | .token (.delim '*') :: .token (.delim '|') :: .token (.ident n) :: rest => some (n, true, rest)
  | .token (.delim '|') :: .token (.ident n) :: rest => some (n, false, rest)
  | _ => none

def comparison? : Token → Option Comparison
  | .delim '=' => some .equal
  | .match_ '~' => some .word
  | .match_ '|' => some .dash
  | .match_ '^' => some .starts
  | .match_ '$' => some .ends
  | .match_ '*' => some .contains
  | _ => none

def operand? : Token → Option String
  | .ident s => some s
  | .string s => some s
  | _ => none

/-- Whether case counts, from the letter behind the value or else from the
name of the attribute. -/
def casing? (name : String) (anySpace : Bool) : List Piece → Option Casing
  | [] =>
    some (if !anySpace && caselessAttributes.contains name.toLower then .insensitiveInHtml
      else .sensitive)
  | [.token (.ident flag)] =>
    if flag.toLower == "i" then some .insensitive
    else if flag.toLower == "s" then some .sensitive
    else none
  | _ => none

/-- The test between square brackets. -/
def ofPieces? (pieces : List Piece) : Option AttrTest := do
  let (name, anySpace, rest) ← name? pieces
  match rest.filter fun p => !p.isBlank with
  | [] => some { name, anySpace }
  | .token op :: .token value :: rest =>
    let op ← comparison? op
    let value ← operand? value
    let casing ← casing? name anySpace rest
    some { name, anySpace, value := some (op, value, casing) }
  | _ => none

end AttrTest

/-- A pseudo-class without an argument. -/
def plainPseudo? (name : String) : Option (List Simple) :=
  let nth (ofType fromEnd : Bool) : Simple := .nth ⟨0, 1, ofType, fromEnd⟩
  match name.toLower with
  | "first-child" => some [nth false false]
  | "last-child" => some [nth false true]
  | "only-child" => some [nth false false, nth false true]
  | "first-of-type" => some [nth true false]
  | "last-of-type" => some [nth true true]
  | "only-of-type" => some [nth true false, nth true true]
  | "root" => some [.root]
  | "empty" => some [.empty]
  | "scope" => some [.scope]
  | _ => none

/-- How the alternatives of a list are read. -/
inductive ListKind where
  | plain
  /-- Faulty alternatives select nothing. -/
  | forgiving
  /-- Alternatives start at the anchor. -/
  | relative
  deriving DecidableEq

/-- Reads the alternatives inside a block; the flag allows `has`. -/
abbrev Nested := ListKind → Bool → List Piece → Option (List Complex)

/-- A pseudo-class with an argument. -/
def calledPseudo? (nested : Nested) (hasAllowed : Bool) (name : String) (inside : List Piece) :
    Option Simple :=
  match name.toLower with
  | "nth-child" => (Nth.ofPieces? false false inside).map .nth
  | "nth-last-child" => (Nth.ofPieces? false true inside).map .nth
  | "nth-of-type" => (Nth.ofPieces? true false inside).map .nth
  | "nth-last-of-type" => (Nth.ofPieces? true true inside).map .nth
  | "is" => (nested .forgiving hasAllowed inside).map .anyOf
  | "where" => (nested .forgiving hasAllowed inside).map .anyOf
  | "not" => (nested .plain hasAllowed inside).map .noneOf
  | "has" => if hasAllowed then (nested .relative false inside).map .has else none
  | _ => none

/-- The type test at the start of a compound, if there is one; `none` is a fault. -/
def typeTest? : List Piece → Option (Option Simple × List Piece)
  | .token (.ident _) :: .token (.delim '|') :: _ => none
  | .token (.ident n) :: rest => some (some (.name n), rest)
  | .token (.delim '*') :: .token (.delim '|') :: rest =>
    match rest with
    | .token (.ident n) :: rest => some (some (.name n), rest)
    | .token (.delim '*') :: rest => some (some .anything, rest)
    | _ => none
  | .token (.delim '*') :: rest => some (some .anything, rest)
  | .token (.delim '|') :: rest =>
    match rest with
    | .token (.ident _) :: rest => some (some .nothing, rest)
    | .token (.delim '*') :: rest => some (some .nothing, rest)
    | _ => none
  | rest => some (none, rest)

/-- The tests of a compound behind its type; `none` is a fault. -/
def tests? (nested : Nested) (hasAllowed : Bool) :
    List Piece → Option (List Simple × List Piece)
  | .token (.hash n) :: rest => do
    let (more, rest) ← tests? nested hasAllowed rest
    some (.id n :: more, rest)
  | .token (.delim '.') :: .token (.ident n) :: rest => do
    let (more, rest) ← tests? nested hasAllowed rest
    some (.class_ n :: more, rest)
  | .token (.delim '.') :: _ => none
  | .block .square inside :: rest => do
    let test ← AttrTest.ofPieces? inside
    let (more, rest) ← tests? nested hasAllowed rest
    some (.attr test :: more, rest)
  | .token (.delim ':') :: .token (.ident n) :: rest => do
    let test ← plainPseudo? n
    let (more, rest) ← tests? nested hasAllowed rest
    some (test ++ more, rest)
  | .token (.delim ':') :: .block (.call n) inside :: rest => do
    let test ← calledPseudo? nested hasAllowed n inside
    let (more, rest) ← tests? nested hasAllowed rest
    some (test :: more, rest)
  | .token (.delim ':') :: _ => none
  | rest => some ([], rest)

/-- A compound and what follows it; a compound has at least one test. -/
def compound? (nested : Nested) (hasAllowed : Bool) (pieces : List Piece) :
    Option (List Simple × List Piece) := do
  let (head, rest) ← typeTest? (pieces.dropWhile Piece.isBlank)
  let (tests, rest) ← tests? nested hasAllowed rest
  match head.toList ++ tests with
  | [] => none
  | compound => some (compound, rest)

/-- The combinator at the start of the pieces, and what follows it. -/
def combinator? (pieces : List Piece) : Option (Combinator × List Piece) :=
  let rest := pieces.dropWhile Piece.isBlank
  match rest with
  | [] => none
  | .token (.delim '>') :: rest => some (.child, rest)
  | .token (.delim '+') :: rest => some (.next, rest)
  | .token (.delim '~') :: rest => some (.later, rest)
  | _ => if pieces.length > rest.length then some (.descendant, rest) else none

/-- The compounds that follow `left`. -/
def chain? (nested : Nested) (hasAllowed : Bool) :
    Nat → Complex → List Piece → Option Complex
  | 0, _, _ => none
  | fuel + 1, left, pieces =>
    match combinator? pieces with
    | none => if pieces.all Piece.isBlank then some left else none
    | some (by_, rest) => do
      let (compound, rest) ← compound? nested hasAllowed rest
      chain? nested hasAllowed fuel (.step left by_ compound) rest

/-- One alternative. -/
def alternative? (nested : Nested) (relative hasAllowed : Bool) (pieces : List Piece) :
    Option Complex :=
  let fuel := pieces.length + 1
  if relative then do
    let pieces := pieces.dropWhile Piece.isBlank
    let (by_, rest) := (combinator? pieces).getD (.descendant, pieces)
    let (compound, rest) ← compound? nested hasAllowed rest
    chain? nested hasAllowed fuel (.step (.last [.anchor]) by_ compound) rest
  else do
    let (compound, rest) ← compound? nested hasAllowed pieces
    chain? nested hasAllowed fuel (.last compound) rest

/-- The alternatives of a list whose blocks are nested at most `depth` deep. -/
def alternatives? : Nat → Nested
  | 0 => fun _ _ _ => none
  | depth + 1 => fun kind hasAllowed pieces =>
    (splitAtCommas pieces).mapM fun part =>
      match alternative? (alternatives? depth) (kind = .relative) hasAllowed part with
      | some c => some c
      | none =>
        if kind = .forgiving && !Piece.hasBroken part then some (.last [.nothing]) else none

/-- The selector that a text spells, if it is one. -/
def Selector.read? (text : String) : Option Selector :=
  let pieces := Piece.ofText text
  (alternatives? (Piece.depthOf pieces + 1) .plain true pieces).map Selector.mk

end SiteScrape.Css
