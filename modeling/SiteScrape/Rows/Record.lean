import SiteScrape.Record.Torrent
import SiteScrape.Rows.Columns
import SiteScrape.Site.Hooks

/-!
# Records of rows

A row gives a record of field values: every default field, then the declared
ones, then those that only hooks know. A hook takes the place of selectors and
sees the fields before it.
-/

namespace SiteScrape.Rows

/-- The fields that every torrent is read for. -/
def defaultKeys : List String :=
  ["id", "title", "subTitle", "url", "link", "time", "size", "author", "seeders", "leechers",
    "completed", "comments", "category", "tags", "progress", "status"]

/-- Identifiers keep their text. -/
def coercionOf (key : String) : Coercion :=
  if key = "id" || (Text.stripLead Torrent.extLead key).isSome then .keep else .numeric

/-- What the rows of a page are read with. -/
structure Reader where
  hooks : Hooks
  context : RowContext

/-- `keys` behind `known`, without repeats. -/
def addKeys (known keys : List String) : List String :=
  keys.foldl (fun known key => if known.contains key then known else known ++ [key]) known

namespace Reader

/-- The fields of a row in the order in which they are read. -/
def keys (r : Reader) (fields : Assoc Field) : List String :=
  addKeys (addKeys defaultKeys fields.keys) r.hooks.torrentFields.keys

/-- The value of a description. -/
def resolve (r : Reader) (f : Field) (source : Source) (c : Coercion) : Json :=
  f.resolve r.hooks.resolver r.context.now source c

/-- The value of one field, given the fields before it. -/
def value? (r : Reader) (fields : Assoc Field) (source : Source) (before : Fields)
    (key : String) : Option Json :=
  match r.hooks.torrentFields.get? key with
  | some hook => some (hook r.context before source)
  | none =>
    ((fields.get? key).filter Field.isConfigured).map fun f => r.resolve f source (coercionOf key)

/-- The record with one more field. -/
def addField (r : Reader) (fields : Assoc Field) (source : Source) (before : Fields)
    (key : String) : Fields :=
  match r.value? fields source before key with
  | some v => before.insert key v
  | none => before

/-- The record of a row. -/
def record (r : Reader) (fields : Assoc Field) (source : Source) : Fields :=
  (r.keys fields).foldl (r.addField fields source) []

end Reader

/-- A record with the values of its group at some keys. -/
def inherit (keys : List String) (group record : Fields) : Fields :=
  keys.foldl (fun record key =>
    match (group.get? key).filter fun v => !Field.isNothing v with
    | some v => record.insert key v
    | none => record) record

end SiteScrape.Rows
