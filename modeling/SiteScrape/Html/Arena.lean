import SiteScrape.Html.Node

/-!
# Pages under construction

While a page is read, its nodes stand in an array and refer to their parents
and children by index, so that an element can be moved and can get children
later. Texts that come to stand side by side are joined. `toPage` turns the
finished array into a page.
-/

namespace SiteScrape.Html

/-- What a node under construction is. -/
inductive Content where
  | document
  | element (tag : Tag)
  | text (s : String)
  | comment (s : String)

/-- A node under construction. -/
structure Cell where
  content : Content
  parent : Option Nat := none
  children : Array Nat := #[]

/-- The nodes of a page under construction; the document is number 0. -/
abbrev Arena := Array Cell

/-- What is put into a place: a node that exists, or text. -/
inductive Insertion where
  | node (i : Nat)
  | text (s : String)

namespace Arena

/-- An arena with nothing but the document. -/
def empty : Arena := #[{ content := .document }]

def tag? (a : Arena) (i : Nat) : Option Tag :=
  match a[i]? with
  | some { content := .element t, .. } => some t
  | _ => none

def parent? (a : Arena) (i : Nat) : Option Nat := a[i]?.bind (·.parent)

def children (a : Arena) (i : Nat) : Array Nat := (a[i]?.map (·.children)).getD #[]

/-- Makes a node that stands nowhere yet. -/
def make (a : Arena) (c : Content) : Arena × Nat := (a.push { content := c }, a.size)

/-- Takes a node out of its parent. -/
def detach (a : Arena) (i : Nat) : Arena :=
  match a.parent? i with
  | none => a
  | some p =>
    let a := a.modify p fun c => { c with children := c.children.filter (· != i) }
    a.modify i fun c => { c with parent := none }

/-- The node is a text. -/
def isText (a : Arena) (i : Nat) : Bool :=
  match a[i]? with
  | some { content := .text _, .. } => true
  | _ => false

/-- Adds text at the end of a text. -/
def extendText (a : Arena) (i : Nat) (s : String) : Arena :=
  a.modify i fun c =>
    match c.content with
    | .text old => { c with content := .text (old ++ s) }
    | _ => c

/-- Puts a node among the children of another at a position. -/
def insertAt (a : Arena) (parent position i : Nat) : Arena :=
  let a := a.detach i
  let a := a.modify parent fun c => { c with children := c.children.insertIdxIfInBounds position i }
  a.modify i fun c => { c with parent := some parent }

/-- Puts a node or text behind the children of a node. -/
def append (a : Arena) (parent : Nat) (what : Insertion) : Arena :=
  match what with
  | .node i =>
    let a := a.detach i
    a.insertAt parent (a.children parent).size i
  | .text s =>
    match (a.children parent).back? with
    | some last =>
      if a.isText last then a.extendText last s
      else let (a, i) := a.make (.text s); a.insertAt parent (a.children parent).size i
    | none => let (a, i) := a.make (.text s); a.insertAt parent 0 i

/-- Puts a node or text right before a node that has a parent. -/
def insertBefore (a : Arena) (sibling : Nat) (what : Insertion) : Arena :=
  let a := match what with
    | .node i => a.detach i
    | .text _ => a
  match a.parent? sibling with
  | none => a
  | some parent =>
    let position := ((a.children parent).idxOf? sibling).getD 0
    match what with
    | .node i => a.insertAt parent position i
    | .text s =>
      match (if position = 0 then none else (a.children parent)[position - 1]?) with
      | some before =>
        if a.isText before then a.extendText before s
        else let (a, i) := a.make (.text s); a.insertAt parent position i
      | none => let (a, i) := a.make (.text s); a.insertAt parent position i

/-- Moves all children of a node behind those of another. -/
def moveChildren (a : Arena) (source target : Nat) : Arena :=
  (a.children source).foldl (fun a i => a.append target (.node i)) a

/-- Gives an element the attributes that it does not have yet. -/
def addAttrs (a : Arena) (i : Nat) (attrs : List Attr) : Arena :=
  a.modify i fun c =>
    match c.content with
    | .element t =>
      let missing := attrs.filter fun n =>
        !t.attrs.any fun o => o.space = n.space && o.name == n.name
      { c with content := .element { t with attrs := t.attrs ++ missing } }
    | _ => c

/-- The node at an index with all below it, down to `depth` levels. -/
def freeze (a : Arena) : Nat → Nat → Option Node
  | 0, _ => none
  | depth + 1, i =>
    match a[i]? with
    | some { content := .element tag, children, .. } =>
      some (.element tag (children.toList.filterMap (freeze a depth)))
    | some { content := .text s, .. } => some (.text s)
    | some { content := .comment s, .. } => some (.comment s)
    | _ => none

/-- The root element of the document, or an empty one, as a page. -/
def toPage (a : Arena) (inFragment : Bool) : Page :=
  let nodes := (a.children 0).toList.filterMap (a.freeze (a.size + 1))
  match Spot.among { inFragment } [] nodes with
  | root :: _ => ⟨root⟩
  | [] => ⟨{ tag := ⟨1, .html, "html", []⟩, children := [] }⟩

end Arena

end SiteScrape.Html
