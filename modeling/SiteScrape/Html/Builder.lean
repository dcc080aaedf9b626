import SiteScrape.Html.Arena
import SiteScrape.Html.Names
import SiteScrape.Html.Token

/-!
# The state of reading a page

The elements that are open form a stack. Beside it stands the list of
formatting elements, which are opened again when something has closed them
too early, and whatever else decides where the next node goes.
-/

namespace SiteScrape.Html

/-- Which part of a page is being read. -/
inductive Mode where
  | initial
  | beforeHtml
  | beforeHead
  | inHead
  | afterHead
  | inBody
  | text
  | inTable
  | inTableText
  | inCaption
  | inColumnGroup
  | inTableBody
  | inRow
  | inCell
  | inSelect
  | inSelectInTable
  | inTemplate
  | afterBody
  | inFrameset
  | afterFrameset
  | afterAfterBody
  | afterAfterFrameset
  deriving DecidableEq, Repr

/-- An entry of the list of formatting elements. -/
inductive Formatting where
  | marker
  | element (i : Nat) (tag : StartTag)
  deriving DecidableEq

/-- All that the reading of a page goes on. -/
structure Builder where
  arena : Arena := .empty
  mode : Mode := .initial
  /-- Where to go on behind raw text or text in a table. -/
  returnMode : Mode := .inBody
  templateModes : List Mode := []
  /-- The open elements, the current one first. -/
  stack : List Nat := []
  /-- The formatting elements, the latest first. -/
  formatting : List Formatting := []
  head : Option Nat := none
  form : Option Nat := none
  framesetOk : Bool := true
  /-- A line feed right behind the last tag does not count. -/
  dropsLineFeed : Bool := false
  /-- Nodes that may not stand in a table go before it. -/
  fosters : Bool := false
  /-- Under an old document type, a table may stand in a paragraph. -/
  oldStyle : Bool := false
  isFragment : Bool := false
  /-- Text in a table that has not found its place yet. -/
  tableText : List Char := []
  lexMode : LexMode := .markup

namespace Builder

/-- The tag of a node; that of a document is no tag of any name. -/
def tag (b : Builder) (i : Nat) : Tag := (b.arena.tag? i).getD ⟨0, .html, "", []⟩

def isHtml (b : Builder) (i : Nat) (name : String) : Bool := (b.tag i).isHtml name

/-- An HTML element with one of the names. -/
def isOneOf (b : Builder) (names : List String) (i : Nat) : Bool :=
  (b.tag i).vocabulary = .html && names.contains (b.tag i).name

/-- The current node is an HTML element of this name. -/
def currentIs (b : Builder) (name : String) : Bool :=
  (b.stack.head?.map fun i => b.isHtml i name).getD false

def currentIsOneOf (b : Builder) (names : List String) : Bool :=
  (b.stack.head?.map (b.isOneOf names)).getD false

def pop (b : Builder) : Builder := { b with stack := b.stack.tail }

def push (b : Builder) (i : Nat) : Builder := { b with stack := i :: b.stack }

/-- Pops until the current node satisfies `p`. -/
def popUntilCurrent (b : Builder) (p : Builder → Nat → Bool) : Builder :=
  { b with stack := b.stack.dropWhile fun i => !p b i }

/-- Pops up to and including the first node that satisfies `p`. -/
def popThrough (b : Builder) (p : Builder → Nat → Bool) : Builder :=
  { b with stack := (b.stack.dropWhile fun i => !p b i).drop 1 }

def popThroughNamed (b : Builder) (name : String) : Builder :=
  b.popThrough fun b i => b.isHtml i name

/-- An HTML element of this name is open. -/
def hasOpen (b : Builder) (name : String) : Bool := b.stack.any fun i => b.isHtml i name

/-- The outermost open element. -/
def rootElement (b : Builder) : Nat := b.stack.getLastD 0

/-- The body, if it is the second open element. -/
def bodyElement? (b : Builder) : Option Nat :=
  match b.stack.reverse with
  | _ :: i :: _ => if b.isHtml i "body" then some i else none
  | _ => none

/-! ### Scopes -/

def isMathText (b : Builder) (i : Nat) : Bool :=
  (b.tag i).vocabulary = .mathml && mathTextNames.contains (b.tag i).name

def isSvgHtml (b : Builder) (i : Nat) : Bool :=
  (b.tag i).vocabulary = .svg && svgHtmlNames.contains (b.tag i).name

/-- Bounds every scope but those of tables and selections. -/
def boundsScope (more : List String) (b : Builder) (i : Nat) : Bool :=
  b.isOneOf (scopeNames ++ more) i || b.isMathText i || b.isSvgHtml i

def boundsTableScope (b : Builder) (i : Nat) : Bool := b.isOneOf ["html", "table", "template"] i

def boundsSelectScope (b : Builder) (i : Nat) : Bool := !b.isOneOf ["optgroup", "option"] i

/-- An element that satisfies `p` is open within a scope. -/
def inScope (b : Builder) (bounds : Builder → Nat → Bool) (p : Builder → Nat → Bool) : Bool :=
  match b.stack.find? fun i => p b i || bounds b i with
  | some i => p b i
  | none => false

/-- An element of this name is open within the usual scope. -/
def hasInScope (b : Builder) (name : String) : Bool :=
  b.inScope (boundsScope []) fun b i => b.isHtml i name

def hasInTableScope (b : Builder) (name : String) : Bool :=
  b.inScope boundsTableScope fun b i => b.isHtml i name

def hasInListScope (b : Builder) (name : String) : Bool :=
  b.inScope (boundsScope ["ol", "ul"]) fun b i => b.isHtml i name

def hasInButtonScope (b : Builder) (name : String) : Bool :=
  b.inScope (boundsScope ["button"]) fun b i => b.isHtml i name

/-! ### Implied end tags -/

/-- Pops elements whose end tag may be left out, but for one name. -/
def closeImplied (b : Builder) (names : List String) (except : String) : Builder :=
  { b with stack := b.stack.dropWhile fun i => b.isOneOf names i && !b.isHtml i except }

/-- Pops elements whose end tag may be left out. -/
def closeAllImplied (b : Builder) : Builder :=
  { b with stack := b.stack.dropWhile (b.isOneOf impliedEndNames) }

/-- Closes the element of this name with all open inside. -/
def close (b : Builder) (name : String) : Builder := b.closeAllImplied.popThroughNamed name

/-- Closes an open paragraph. -/
def closeParagraph (b : Builder) : Builder :=
  if b.hasInButtonScope "p" then (b.closeImplied impliedEndNames "p").popThroughNamed "p" else b

/-! ### Putting nodes in place -/

/-- Where a node goes. -/
inductive Place where
  | lastIn (parent : Nat)
  /-- Before a table, or last in the element before it on the stack. -/
  | beforeTable (table above : Nat)

/-- Where a node goes that is meant for `target`. -/
def placeFor (b : Builder) (target : Nat) : Place :=
  if b.fosters && b.isOneOf ["table", "tbody", "tfoot", "thead", "tr"] target then search b.stack
  else .lastIn target
where
  search : List Nat → Place
    | [] => .lastIn b.rootElement
    | i :: rest =>
      if b.isHtml i "template" then .lastIn i
      else if b.isHtml i "table" then .beforeTable i (rest.headD b.rootElement)
      else search rest

/-- Puts a node or text where `place` says. -/
def putAt (b : Builder) (place : Place) (what : Insertion) : Builder :=
  let arena := match place with
    | .lastIn parent => b.arena.append parent what
    | .beforeTable table above =>
      if (b.arena.parent? table).isSome then b.arena.insertBefore table what
      else b.arena.append above what
  { b with arena }

/-- Puts a node or text where it belongs next. -/
def put (b : Builder) (what : Insertion) : Builder :=
  b.putAt (b.placeFor (b.stack.headD 0)) what

def putText (b : Builder) (cs : List Char) : Builder :=
  if cs.isEmpty then b else b.put (.text (String.ofList cs))

/-- Makes an element that stands nowhere yet. -/
def makeElement (b : Builder) (v : Vocabulary) (name : String) (attrs : List Attr) :
    Builder × Nat :=
  let (arena, i) := b.arena.make (.element ⟨b.arena.size, v, name, attrs⟩)
  ({ b with arena }, i)

/-- Makes an element and puts it in place. -/
def putElement (b : Builder) (v : Vocabulary) (name : String) (attrs : List Attr) :
    Builder × Nat :=
  let (b, i) := b.makeElement v name attrs
  (b.put (.node i), i)

/-- Opens an HTML element. -/
def openTag (b : Builder) (t : StartTag) : Builder :=
  let (b, i) := b.putElement .html t.name t.attrs
  b.push i

/-- Opens an HTML element that no tag stands for. -/
def openImplied (b : Builder) (name : String) : Builder := b.openTag { name }

/-- Puts an HTML element in place that has no content. -/
def putVoid (b : Builder) (t : StartTag) : Builder := (b.putElement .html t.name t.attrs).1

/-- Puts a comment in place. -/
def putComment (b : Builder) (s : String) : Builder :=
  let (arena, i) := b.arena.make (.comment s)
  { b with arena }.put (.node i)

/-- Puts a comment behind the children of a node. -/
def putCommentIn (b : Builder) (parent : Nat) (s : String) : Builder :=
  let (arena, i) := b.arena.make (.comment s)
  { b with arena := arena.append parent (.node i) }

/-- Opens an element whose content is raw text. -/
def openRaw (b : Builder) (t : StartTag) (kind : RawKind) : Builder :=
  { b.openTag t with returnMode := b.mode, mode := .text, lexMode := .raw kind t.name }

/-! ### Formatting elements -/

/-- The entries since the last marker, the latest first, each with its place. -/
def recentFormatting (b : Builder) : List (Nat × Nat × StartTag) :=
  go 0 b.formatting
where
  go (place : Nat) : List Formatting → List (Nat × Nat × StartTag)
    | [] | .marker :: _ => []
    | .element i t :: rest => (place, i, t) :: go (place + 1) rest

/-- The place of an element in the list of formatting elements. -/
def formattingPlace? (b : Builder) (i : Nat) : Option Nat :=
  b.formatting.findIdx? fun
    | .element j _ => i == j
    | .marker => false

def dropFormatting (b : Builder) (place : Nat) : Builder :=
  { b with formatting := b.formatting.eraseIdx place }

def pushMarker (b : Builder) : Builder := { b with formatting := .marker :: b.formatting }

/-- Forgets the formatting elements since the last marker, and the marker. -/
def clearFormatting (b : Builder) : Builder :=
  { b with formatting := (b.formatting.dropWhile (· != .marker)).drop 1 }

/-- Opens entries again, the earliest first. `later` holds those still to come,
`done` those already open, the latest first. -/
def reopen (b : Builder) (later : List (Nat × StartTag)) (done : List Formatting) : Builder :=
  match later with
  | [] => { b with formatting := done }
  | (_, t) :: rest =>
    let (b, i) := b.putElement .html t.name t.attrs
    (b.push i).reopen rest (.element i t :: done)

/-- Opens again the formatting elements that something has closed. -/
def reconstruct (b : Builder) : Builder :=
  let closed := (b.recentFormatting.takeWhile fun (_, i, _) => !b.stack.contains i).map (·.2)
  if closed.isEmpty then b
  else b.reopen closed.reverse (b.formatting.drop closed.length)

/-- The same attributes in any order. -/
def sameAttrs (a b : List Attr) : Bool :=
  a.length == b.length && a.all fun x => b.contains x

/-- Opens a formatting element; of three equal ones the earliest is forgotten. -/
def openFormatting (b : Builder) (t : StartTag) : Builder :=
  let equal := b.recentFormatting.filter fun (_, _, u) =>
    t.name == u.name && sameAttrs t.attrs u.attrs
  let b := if equal.length ≥ 3 then
      match equal.getLast? with
      | some (place, _, _) => b.dropFormatting place
      | none => b
    else b
  let (b, i) := b.putElement .html t.name t.attrs
  { b.push i with formatting := .element i t :: b.formatting }

/-- Takes an element off the stack wherever it stands. -/
def dropFromStack (b : Builder) (i : Nat) : Builder := { b with stack := b.stack.erase i }

/-- An end tag closes the nearest open element of its name, unless a special
element stands between. -/
def endTagInBody (b : Builder) (name : String) : Builder :=
  match b.stack.find? fun i => b.isHtml i name || b.isOneOf specialNames i with
  | some i =>
    if b.isHtml i name then
      let b := b.closeImplied impliedEndNames name
      { b with stack := (b.stack.dropWhile (· != i)).drop 1 }
    else b
  | none => b

/-- Where a formatting element made anew goes in its list. -/
inductive Bookmark where
  | replacing (i : Nat)
  | after (i : Nat)

/-- The middle part of closing a formatting element around a block: `inner`
are the open elements between the two, the nearest to the block first. Each is
either left out or made anew around `last`. The result is the builder, the
outermost such element, and where the new formatting element goes. -/
def rewrap (b : Builder) (block : Nat) (last : Nat) (bookmark : Bookmark) (count : Nat) :
    List Nat → Builder × Nat × Bookmark
  | [] => (b, last, bookmark)
  | node :: inner =>
    let entry := (b.formattingPlace? node).bind fun place =>
      match b.formatting[place]? with
      | some (.element _ t) => some (place, t)
      | _ => none
    match entry with
    | none => (b.dropFromStack node).rewrap block last bookmark (count + 1) inner
    | some (place, t) =>
      if count > 3 then
        ((b.dropFormatting place).dropFromStack node).rewrap block last bookmark (count + 1) inner
      else
        let (b, i) := b.makeElement .html t.name t.attrs
        let b := { b with
          stack := b.stack.map fun j => if j = node then i else j
          formatting := b.formatting.set place (.element i t) }
        let bookmark := if last = block then .after i else bookmark
        let b := { b with arena := (b.arena.detach last).append i (.node last) }
        b.rewrap block i bookmark (count + 1) inner

/-- Puts a formatting element into its list in place of the one that it was
made for. -/
def replaceFormatting (b : Builder) (old : Nat) (bookmark : Bookmark) (entry : Formatting) :
    Builder :=
  match bookmark with
  | .replacing i =>
    match b.formattingPlace? i with
    | some place => { b with formatting := b.formatting.set place entry }
    | none => b
  | .after i =>
    match b.formattingPlace? i with
    | some place =>
      let b := { b with formatting := b.formatting.take place ++ entry :: b.formatting.drop place }
      match b.formattingPlace? old with
      | some place => b.dropFormatting place
      | none => b
    | none => b

/-- One round of closing a formatting element that has a block inside; `none`
when there is nothing more to do. -/
def adoptOnce (b : Builder) (name : String) : Builder × Bool :=
  match b.recentFormatting.find? fun (_, _, t) => t.name == name with
  | none => (b.endTagInBody name, false)
  | some (place, element, t) =>
    if !b.stack.contains element then (b.dropFormatting place, false)
    else if !b.inScope (boundsScope []) fun _ i => i == element then (b, false)
    else
      let above := b.stack.takeWhile (· != element)
      match above.reverse.find? (b.isOneOf specialNames) with
      | none =>
        ({ b with stack := (b.stack.dropWhile (· != element)).drop 1 }.dropFormatting place, false)
      | some block =>
        let inner := (above.dropWhile (· != block)).drop 1
        let ancestor := ((b.stack.dropWhile (· != element)).drop 1).headD b.rootElement
        let (b, last, bookmark) := b.rewrap block block (.replacing element) 1 inner
        let b := { b with arena := b.arena.detach last }
        let b := b.putAt (b.placeFor ancestor) (.node last)
        let (b, i) := b.makeElement .html t.name t.attrs
        let b := { b with arena := (b.arena.moveChildren block i).append block (.node i) }
        let b := (b.replaceFormatting element bookmark (.element i t)).dropFromStack element
        ({ b with stack := b.stack.flatMap fun j => if j = block then [i, j] else [j] }, true)

/-- Closes a formatting element, in up to eight rounds. -/
def adopt (b : Builder) (name : String) : Builder :=
  match b.stack with
  | i :: _ =>
    if b.isHtml i name && (b.formattingPlace? i).isNone then b.pop else rounds b 8
  | [] => b
where
  rounds (b : Builder) : Nat → Builder
    | 0 => b
    | n + 1 =>
      match b.adoptOnce name with
      | (b, true) => rounds b n
      | (b, false) => b

/-! ### Where to go on -/

/-- The mode that the open elements call for; `body` stands for the root of a
fragment. -/
def fittingMode (b : Builder) : Mode :=
  go b.stack
where
  go : List Nat → Mode
    | [] => .inBody
    | i :: above =>
      let last := above.isEmpty
      let t := b.tag i
      let name := if last && b.isFragment then "body" else t.name
      if t.vocabulary ≠ .html && !(last && b.isFragment) then go above
      else
        match name with
        | "select" =>
          match above.find? fun j => b.isOneOf ["template", "table"] j with
          | some j => if b.isHtml j "table" then .inSelectInTable else .inSelect
          | none => .inSelect
        | "td" | "th" => if last then go above else .inCell
        | "tr" => .inRow
        | "tbody" | "thead" | "tfoot" => .inTableBody
        | "caption" => .inCaption
        | "colgroup" => .inColumnGroup
        | "table" => .inTable
        | "template" => b.templateModes.headD .inBody
        | "head" => if last then go above else .inHead
        | "body" => .inBody
        | "frameset" => .inFrameset
        | "html" => if b.head.isNone then .beforeHead else .afterHead
        | _ => go above

/-- Goes on in the mode that the open elements call for. -/
def resetMode (b : Builder) : Builder := { b with mode := b.fittingMode }

end Builder

end SiteScrape.Html
