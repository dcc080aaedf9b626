import SiteScrape.Rows.Record

/-!
# Rows in groups

On a page, header rows stand before the torrent rows that belong to them, and
a torrent row may also name its header. In JSON, a group holds its torrents in
an array. A torrent takes some fields from its group, and a torrent row that
cells of its header reach into is padded before it is read.
-/

namespace SiteScrape.Rows

open SiteScrape.Html (Spot)

/-- What a row is within its group. -/
inductive Role where
  | header (id : String)
  /-- A torrent row, with the group it belongs to if there is one. -/
  | member (group : Option String)
  /-- A torrent row outside all groups. -/
  | single
  deriving DecidableEq, Repr

def hasClass (row : Spot) (name : String) : Bool := (Css.classesOf row).contains name.toList

/-- The fields that a torrent takes from its group. -/
def inheritedKeys (g : Grouping) : List String := addKeys g.inherit g.selectors.keys

namespace Reader

/-- The fields of a group. -/
def groupFields (r : Reader) (g : Grouping) (fields : Assoc Field) (source : Source) : Fields :=
  (inheritedKeys g).foldl (fun out key =>
    match ((g.selectors.get? key).or (fields.get? key)).filter Field.isConfigured with
    | some f =>
      let v := r.resolve f source (coercionOf key)
      if Field.isNothing v then out else out.insert key v
    | none => out) []

/-- The group that a row names. -/
def groupId? (r : Reader) (f : Field) (row : Spot) : Option String :=
  if f.isConfigured then
    let id := Text.trim (r.resolve f (.element row) .keep).asText
    if id.isEmpty then none else some id
  else none

/-- The roles of rows, the first of which has the number `index`; `current` is
the group that a torrent row without a name belongs to. -/
def roles (r : Reader) (g : Grouping) (index : Nat) (current : Option String) :
    List Spot → List (Role × Spot)
  | [] => []
  | row :: rest =>
    if g.skipClass.any (hasClass row) then roles r g (index + 1) current rest
    else if hasClass row g.groupClass then
      let id := (r.groupId? g.groupId row).getD ("#" ++ toString index)
      (.header id, row) :: roles r g (index + 1) (some id) rest
    else if hasClass row g.childClass then
      let id := (r.groupId? g.childGroupId row).or current
      (.member id, row) :: roles r g (index + 1) current rest
    else (.single, row) :: roles r g (index + 1) none rest

end Reader

/-- What a torrent row needs from its header row. -/
structure Header where
  fields : Fields
  width : Nat
  /-- The columns of the first cells that reach into the rows below. -/
  spanned : Nat

/-- The columns of the first cells that reach into the rows below. -/
def spannedWidth (row : Spot) : Nat := widthOf ((cells row).takeWhile fun c => 1 < rowSpan c)

/-- How many empty cells a row gets so that it is as wide as its header. -/
def padding (row : Spot) (h : Header) : Nat := min h.spanned (h.width - width row)

namespace Reader

/-- The header that a row is. -/
def header (r : Reader) (g : Grouping) (fields : Assoc Field) (row : Spot) : Header :=
  { fields := r.groupFields g fields (.element row), width := width row,
    spanned := spannedWidth row }

/-- The row that is read for a torrent of a group. -/
def memberRow (g : Grouping) (header : Option Header) (row : Spot) : Spot :=
  let pad := match header with
    | some h => if g.compensateSpan then padding row h else 0
    | none => 0
  if 0 < pad then (padded? pad row).getD row else row

/-- The record of a torrent row. -/
def memberRecord (r : Reader) (g : Grouping) (fields : Assoc Field) (header : Option Header)
    (row : Spot) : Fields :=
  let record := r.record fields (.element (memberRow g header row))
  match header with
  | some h => inherit (inheritedKeys g) h.fields record
  | none => record

/-- The records of rows whose roles are known; `headers` are those seen so far. -/
def flattenRoles (r : Reader) (g : Grouping) (fields : Assoc Field) (headers : Assoc Header) :
    List (Role × Spot) → List Fields
  | [] => []
  | (.header id, row) :: rest =>
    flattenRoles r g fields (headers.insert id (r.header g fields row)) rest
  | (.member id, row) :: rest =>
    r.memberRecord g fields (id.bind headers.get?) row :: flattenRoles r g fields headers rest
  | (.single, row) :: rest =>
    r.record fields (.element row) :: flattenRoles r g fields headers rest

/-- The records of rows in groups. -/
def flattenRows (r : Reader) (g : Grouping) (fields : Assoc Field) (rows : List Spot) :
    List Fields :=
  r.flattenRoles g fields [] (r.roles g 0 none rows)

/-- Where a group holds its torrents. -/
def childrenPath (g : Grouping) : String := g.childrenPath.getD "torrents"

/-- The records of one group; one without torrents counts as a torrent. -/
def flattenItem (r : Reader) (g : Grouping) (fields : Assoc Field) (item : Json) : List Fields :=
  match item.at? (childrenPath g) with
  | some (.arr (child :: children)) =>
    let group := r.groupFields g fields (.json item)
    (child :: children).map fun c =>
      inherit (inheritedKeys g) group (r.record fields (.json c))
  | _ => [r.record fields (.json item)]

/-- The records of groups. -/
def flattenItems (r : Reader) (g : Grouping) (fields : Assoc Field) (items : List Json) :
    List Fields :=
  items.flatMap (r.flattenItem g fields)

end Reader

end SiteScrape.Rows
