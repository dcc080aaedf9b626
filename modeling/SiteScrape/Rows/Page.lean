import SiteScrape.Json.Reader
import SiteScrape.Rows.Groups
import SiteScrape.Url.Reading

/-!
# Torrents of a page

From the body of a response to its torrents: rows are located, filtered,
joined or taken out of their groups, and read; addresses become absolute.
-/

namespace SiteScrape

/-- The body of a response. -/
inductive Body where
  | page (p : Html.Page)
  | json (v : Json)

namespace Body

/-- The body that a text spells. -/
def ofText (kind : ResponseKind) (text : String) : Except SiteError Body :=
  match kind with
  | .json =>
    match Json.parse text with
    | some v => .ok (.json v)
    | none => .error (.unreadable .response)
  | .document | .text => .ok (.page (.ofMarkup text))

/-- The body as what fields are read off: the root element, or the value. -/
def source : Body → Source
  | .page p => .element p.root
  | .json v => .json v

end Body

/-- The address that a reference on a page at `base` means. Magnet links stay,
and what cannot be resolved does too. -/
def absoluteUrl (base reference : String) : String :=
  let url := Text.trim reference
  if url.isEmpty || (Text.stripLead "magnet:" url).isSome then url
  else match Url.parse? base with
    | none => url
    | some base =>
      match Text.stripLead "//" url with
      | some rest => base.scheme ++ "://" ++ rest
      | none =>
        match Url.join base url with
        | .ok u => u.text
        | .error _ => url

namespace Rows

open SiteScrape.Html (Spot Page)

/-- Rows `k` by `k`; the last ones may be fewer. -/
def chunks {α : Type} (k : Nat) (rows : List α) : List (List α) :=
  match rows with
  | [] => []
  | row :: rest => (row :: rest.take (k - 1)) :: chunks k (rest.drop (k - 1))
termination_by rows.length
decreasing_by simp only [List.length_drop, List.length_cons]; omega

namespace Reader

/-- The rows that the named filter keeps; an unknown filter keeps all. -/
def kept {α : Type} (r : Reader) (source : α → Source) (rows : RowSource) (located : List α) :
    List α :=
  match rows.filter.bind r.hooks.rowFilters.get? with
  | some keep => located.filter fun row => keep (source row)
  | none => located

/-- The records of located rows. -/
def rowRecords (r : Reader) (fields : Assoc Field) (rows : RowSource) (located : List Spot) :
    List Fields :=
  match rows.group, rows.merge.filter (1 < ·) with
  | some g, _ => r.flattenRows g fields located
  | none, some k =>
    ((chunks k located).filterMap merged?).map fun row => r.record fields (.element row)
  | none, none => located.map fun row => r.record fields (.element row)

/-- The fields of a page, with the selectors that its header gives. -/
def pageFields (page : Page) (rows : RowSource) (fields : Assoc Field) : Assoc Field :=
  match rows.columns with
  | some marks => detectColumns page marks fields
  | none => fields

/-- The records of a page. -/
def pageRecords (r : Reader) (fields : Assoc Field) (rows : RowSource) (page : Page) :
    List Fields :=
  r.rowRecords (pageFields page rows fields) rows
    (r.kept .element rows (elements page rows.selectors))

/-- The records of a JSON body. -/
def jsonRecords (r : Reader) (fields : Assoc Field) (rows : RowSource) (body : Json) :
    List Fields :=
  let located := r.kept .json rows (items body rows.selectors)
  match rows.group.filter fun g => g.childrenPath.isSome with
  | some g => r.flattenItems g fields located
  | none => located.map fun item => r.record fields (.json item)

/-- The records of a body. -/
def records (r : Reader) (fields : Assoc Field) (rows : RowSource) : Body → List Fields
  | .page p => r.pageRecords fields rows p
  | .json v => r.jsonRecords fields rows v

/-- The address that references are resolved against. -/
def baseUrl (r : Reader) (m : Metadata) : String :=
  if r.context.finalUrl.isEmpty then m.baseUrl?.getD "" else r.context.finalUrl

/-- A record with absolute addresses. -/
def withAbsoluteUrls (base : String) (record : Fields) : Fields :=
  let absolute : Json → Json
    | .str s => .str (absoluteUrl base s)
    | v => v
  (Assoc.modify record "url" absolute).modify "link" absolute

/-- The torrent of a record. -/
def torrent (r : Reader) (m : Metadata) (record : Fields) : Torrent :=
  .ofFields m.id (withAbsoluteUrls (r.baseUrl m) record)

/-- The torrents of a body, of which there must be one. -/
def torrents (r : Reader) (m : Metadata) (reading : RowReading) (body : Body) :
    Except SiteError (List Torrent) :=
  match reading.rows with
  | none => .error (.definition .selectorsHaveNoRows)
  | some rows =>
    match r.records reading.fields rows body with
    | [] => .error .noTorrents
    | records => .ok (records.map (r.torrent m))

end Reader

end Rows

end SiteScrape
