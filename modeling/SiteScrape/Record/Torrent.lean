import SiteScrape.Json.Decode
import SiteScrape.Record.Lenient
import SiteScrape.Text.Find

/-!
# Torrents

One search result. It is built from field values of any form, and read and
written as a JSON record whose further entries are outside identifiers.
-/

namespace SiteScrape

/-- What the account has done with a torrent. -/
inductive TorrentStatus where
  | unknown
  | downloading
  | seeding
  | inactive
  | completed
  deriving DecidableEq, Repr

namespace TorrentStatus

/-- The statuses by their written names. -/
def names : Assoc TorrentStatus :=
  [("unknown", .unknown), ("downloading", .downloading), ("seeding", .seeding),
    ("inactive", .inactive), ("completed", .completed)]

def name : TorrentStatus → String
  | .unknown => "unknown"
  | .downloading => "downloading"
  | .seeding => "seeding"
  | .inactive => "inactive"
  | .completed => "completed"

/-- The status of a number from 1 to 4. -/
def ofNumber (n : Number) : TorrentStatus :=
  match n with
  | .int 1 _ _ => .downloading
  | .int 2 _ _ => .seeding
  | .int 3 _ _ => .inactive
  | .int 4 _ _ => .completed
  | _ => .unknown

/-- The status that a word means, in any case. -/
def ofWord (s : String) : TorrentStatus :=
  match Text.asciiLower (Text.trim s) with
  | "downloading" | "leeching" => .downloading
  | "seeding" => .seeding
  | "inactive" | "stopped" => .inactive
  | "completed" | "snatched" => .completed
  | _ => .unknown

/-- The status that a value means. -/
def ofValue : Json → TorrentStatus
  | .num n => ofNumber n
  | .str s => ofWord s
  | _ => .unknown

end TorrentStatus

/-- A label on a torrent. -/
structure TorrentTag where
  name : String
  color : Option String := none
  deriving DecidableEq, Repr

namespace TorrentTag

open Decode

def decode : Decoder TorrentTag := fun v => do
  let e ← record ["name", "color"] v
  some { name := ← required e "name" string, color := ← Decode.optional e "color" string }

def encode (t : TorrentTag) : Json :=
  .obj ([("name", .str t.name)] ++ Json.optional "color" (t.color.map .str))

/-- A label from an object with a name, or from a scalar. -/
def ofValue? (v : Json) : Option TorrentTag :=
  match v with
  | .obj fields =>
    ((Assoc.get? fields "name").bind Lenient.text?).map fun name =>
      { name, color := (Assoc.get? fields "color").bind Lenient.text? }
  | v => (Lenient.text? v).map fun name => { name }

/-- The labels of an array, or of a single value. -/
def listOfValue (v : Json) : List TorrentTag :=
  match v with
  | .arr items => items.filterMap ofValue?
  | .null => []
  | v => (ofValue? v).toList

end TorrentTag

/-- One search result. -/
structure Torrent where
  site : String
  id : String
  title : String
  subTitle : Option String := none
  /-- The page of the torrent. -/
  url : Option String := none
  /-- Where the torrent itself is. -/
  link : Option String := none
  time : Option Int64 := none
  /-- In bytes. -/
  size : Option UInt64 := none
  seeders : Option Int64 := none
  leechers : Option Int64 := none
  completed : Option Int64 := none
  comments : Option Int64 := none
  category : Option String := none
  tags : List TorrentTag := []
  status : TorrentStatus := .unknown
  /-- In percent. -/
  progress : Option Float := none
  author : Option String := none
  /-- Outside identifiers by name, sorted. -/
  ext : Assoc Json := []

namespace Torrent

open Decode

/-- How the names of outside identifiers begin. -/
def extLead : String := "ext_"

/-- A number between zero and a hundred. -/
def clampPercent (f : Float) : Float :=
  if f < 0.0 then 0.0 else if f > 100.0 then 100.0 else f

/-- The torrent of a site with these field values; what is not known stays away. -/
def ofFields (site : String) (fields : Fields) : Torrent :=
  let get (key : String) : Json := (fields.get? key).getD .null
  { site
    id := (Lenient.text? (get "id")).getD ""
    title := (Lenient.text? (get "title")).getD ""
    subTitle := Lenient.text? (get "subTitle")
    url := Lenient.text? (get "url")
    link := Lenient.text? (get "link")
    time := Lenient.moment? (get "time")
    size := Lenient.uint64? (get "size")
    seeders := Lenient.int64? (get "seeders")
    leechers := Lenient.int64? (get "leechers")
    completed := Lenient.int64? (get "completed")
    comments := Lenient.int64? (get "comments")
    category := Lenient.text? (get "category")
    tags := TorrentTag.listOfValue (get "tags")
    status := TorrentStatus.ofValue (get "status")
    progress := (Lenient.float? (get "progress")).map clampPercent
    author := Lenient.text? (get "author")
    ext := Assoc.sorted (fields.filter fun (key, v) =>
      (Text.stripLead extLead key).isSome && !v.isNull) }

/-- The entries of a written torrent that are no outside identifiers. -/
def knownNames : List String :=
  ["site", "id", "title", "subTitle", "url", "link", "time", "size", "seeders", "leechers",
    "completed", "comments", "category", "tags", "status", "progress", "author"]

def decode : Decoder Torrent := fun v => do
  let e ← openRecord knownNames v
  some {
    site := ← required e "site" string
    id := ← required e "id" string
    title := ← required e "title" string
    subTitle := ← Decode.optional e "subTitle" string
    url := ← Decode.optional e "url" string
    link := ← Decode.optional e "link" string
    time := ← Decode.optional e "time" int64
    size := ← Decode.optional e "size" uint64
    seeders := ← Decode.optional e "seeders" int64
    leechers := ← Decode.optional e "leechers" int64
    completed := ← Decode.optional e "completed" int64
    comments := ← Decode.optional e "comments" int64
    category := ← Decode.optional e "category" string
    tags := ← withDefault e "tags" (list TorrentTag.decode) []
    status := ← withDefault e "status" (oneOf TorrentStatus.names) .unknown
    progress := ← Decode.optional e "progress" float
    author := ← Decode.optional e "author" string
    ext := ← sortedPairs any (e.filter fun p => !knownNames.contains p.1) }

def encode (t : Torrent) : Json :=
  let text (key : String) (s : Option String) := Json.optional key (s.map .str)
  let whole (key : String) (n : Option Int64) := Json.optional key (n.map .ofInt64)
  .obj ([("site", .str t.site), ("id", .str t.id), ("title", .str t.title)] ++
    text "subTitle" t.subTitle ++ text "url" t.url ++ text "link" t.link ++
    whole "time" t.time ++ Json.optional "size" (t.size.map .ofUInt64) ++
    whole "seeders" t.seeders ++ whole "leechers" t.leechers ++ whole "completed" t.completed ++
    whole "comments" t.comments ++ text "category" t.category ++
    (if t.tags.isEmpty then [] else [("tags", .arr (t.tags.map TorrentTag.encode))]) ++
    [("status", .str t.status.name)] ++ Json.optional "progress" (t.progress.map .ofFloat) ++
    text "author" t.author ++ t.ext)

end Torrent

end SiteScrape
