import SiteScrape.Json.Decode
import SiteScrape.Record.Lenient

/-!
# User records

What is known about an account on a site. A record is built from field values
of any form, and gives its fields back for the next collection.
-/

namespace SiteScrape

/-- How a query of a site ended. -/
inductive QueryStatus where
  | success
  | needLogin
  | parseError
  /-- The site was not asked. -/
  | passed
  | noResults
  | unknownError
  deriving DecidableEq, Repr

namespace QueryStatus

/-- The statuses by their written names. -/
def names : Assoc QueryStatus :=
  [("success", .success), ("needLogin", .needLogin), ("parseError", .parseError),
    ("passParse", .passed), ("noResults", .noResults), ("unknownError", .unknownError)]

def name : QueryStatus → String
  | .success => "success"
  | .needLogin => "needLogin"
  | .parseError => "parseError"
  | .passed => "passParse"
  | .noResults => "noResults"
  | .unknownError => "unknownError"

end QueryStatus

/-- What is known about an account. -/
structure UserInfo where
  site : String
  status : QueryStatus := .unknownError
  /-- When the record was collected. -/
  updateAt : Int64 := 0
  id : Option String := none
  name : Option String := none
  uploaded : Option UInt64 := none
  downloaded : Option UInt64 := none
  trueUploaded : Option UInt64 := none
  trueDownloaded : Option UInt64 := none
  /-- Minus one when nothing has been downloaded. -/
  ratio : Option Float := none
  trueRatio : Option Float := none
  levelName : Option String := none
  levelId : Option Int64 := none
  bonus : Option Float := none
  bonusPerHour : Option Float := none
  seedingBonus : Option Float := none
  seedingBonusPerHour : Option Float := none
  uploads : Option UInt64 := none
  snatches : Option UInt64 := none
  seeding : Option UInt64 := none
  seedingSize : Option UInt64 := none
  leeching : Option UInt64 := none
  joinTime : Option Int64 := none
  lastAccessAt : Option Int64 := none
  messageCount : Option UInt64 := none
  invites : Option UInt64 := none
  hnrUnsatisfied : Option UInt64 := none
  hnrPreWarning : Option UInt64 := none

namespace UserInfo

open Decode

/-- The names of the fields that a collection reads. -/
def fieldNames : List String :=
  ["id", "name", "uploaded", "downloaded", "trueUploaded", "trueDownloaded", "ratio", "trueRatio",
    "levelName", "levelId", "bonus", "bonusPerHour", "seedingBonus", "seedingBonusPerHour",
    "uploads", "snatches", "seeding", "seedingSize", "leeching", "joinTime", "lastAccessAt",
    "messageCount", "invites", "hnrUnsatisfied", "hnrPreWarning"]

/-- A record that holds a status and nothing else. -/
def ofStatus (site : String) (status : QueryStatus) (now : Int) : UserInfo :=
  { site, status, updateAt := Double.clampInt64 now }

/-- Uploaded over downloaded, to three places. -/
def ratioOf (uploaded downloaded : Option UInt64) : Option Float := do
  let up := (← uploaded).toNat
  let down := (← downloaded).toNat
  if down = 0 then some (if up = 0 then 0.0 else -1.0)
  else
    let ratio := Double.ofInt up / Double.ofInt down
    some (Double.ofInt (Double.round (ratio * 1000.0)) / 1000.0)

/-- Ratios that are not given follow from the amounts. -/
def fillRatios (u : UserInfo) : UserInfo :=
  { u with
    ratio := u.ratio.or (ratioOf u.uploaded u.downloaded)
    trueRatio := u.trueRatio.or (ratioOf u.trueUploaded u.trueDownloaded) }

/-- The record of a site with these field values. -/
def ofFields (site : String) (status : QueryStatus) (fields : Fields) (now : Int) : UserInfo :=
  let get (key : String) : Json := (fields.get? key).getD .null
  fillRatios
    { ofStatus site status now with
      id := Lenient.text? (get "id")
      name := Lenient.text? (get "name")
      uploaded := Lenient.uint64? (get "uploaded")
      downloaded := Lenient.uint64? (get "downloaded")
      trueUploaded := Lenient.uint64? (get "trueUploaded")
      trueDownloaded := Lenient.uint64? (get "trueDownloaded")
      ratio := Lenient.float? (get "ratio")
      trueRatio := Lenient.float? (get "trueRatio")
      levelName := Lenient.text? (get "levelName")
      levelId := Lenient.int64? (get "levelId")
      bonus := Lenient.float? (get "bonus")
      bonusPerHour := Lenient.float? (get "bonusPerHour")
      seedingBonus := Lenient.float? (get "seedingBonus")
      seedingBonusPerHour := Lenient.float? (get "seedingBonusPerHour")
      uploads := Lenient.uint64? (get "uploads")
      snatches := Lenient.uint64? (get "snatches")
      seeding := Lenient.uint64? (get "seeding")
      seedingSize := Lenient.uint64? (get "seedingSize")
      leeching := Lenient.uint64? (get "leeching")
      joinTime := Lenient.moment? (get "joinTime")
      lastAccessAt := Lenient.moment? (get "lastAccessAt")
      messageCount := Lenient.uint64? (get "messageCount")
      invites := Lenient.uint64? (get "invites")
      hnrUnsatisfied := Lenient.uint64? (get "hnrUnsatisfied")
      hnrPreWarning := Lenient.uint64? (get "hnrPreWarning") }

def decode : Decoder UserInfo := fun v => do
  let e ← record (["site", "status", "updateAt"] ++ fieldNames) v
  some {
    site := ← required e "site" string
    status := ← withDefault e "status" (oneOf QueryStatus.names) .unknownError
    updateAt := ← withDefault e "updateAt" int64 0
    id := ← Decode.optional e "id" string
    name := ← Decode.optional e "name" string
    uploaded := ← Decode.optional e "uploaded" uint64
    downloaded := ← Decode.optional e "downloaded" uint64
    trueUploaded := ← Decode.optional e "trueUploaded" uint64
    trueDownloaded := ← Decode.optional e "trueDownloaded" uint64
    ratio := ← Decode.optional e "ratio" float
    trueRatio := ← Decode.optional e "trueRatio" float
    levelName := ← Decode.optional e "levelName" string
    levelId := ← Decode.optional e "levelId" int64
    bonus := ← Decode.optional e "bonus" float
    bonusPerHour := ← Decode.optional e "bonusPerHour" float
    seedingBonus := ← Decode.optional e "seedingBonus" float
    seedingBonusPerHour := ← Decode.optional e "seedingBonusPerHour" float
    uploads := ← Decode.optional e "uploads" uint64
    snatches := ← Decode.optional e "snatches" uint64
    seeding := ← Decode.optional e "seeding" uint64
    seedingSize := ← Decode.optional e "seedingSize" uint64
    leeching := ← Decode.optional e "leeching" uint64
    joinTime := ← Decode.optional e "joinTime" int64
    lastAccessAt := ← Decode.optional e "lastAccessAt" int64
    messageCount := ← Decode.optional e "messageCount" uint64
    invites := ← Decode.optional e "invites" uint64
    hnrUnsatisfied := ← Decode.optional e "hnrUnsatisfied" uint64
    hnrPreWarning := ← Decode.optional e "hnrPreWarning" uint64 }

/-- The fields that stand, by name. -/
def toFields (u : UserInfo) : Fields :=
  let text (key : String) (s : Option String) := Json.optional key (s.map .str)
  let count (key : String) (n : Option UInt64) := Json.optional key (n.map .ofUInt64)
  let whole (key : String) (n : Option Int64) := Json.optional key (n.map .ofInt64)
  let amount (key : String) (f : Option Float) := Json.optional key (f.map .ofFloat)
  text "id" u.id ++ text "name" u.name ++ count "uploaded" u.uploaded ++
    count "downloaded" u.downloaded ++ count "trueUploaded" u.trueUploaded ++
    count "trueDownloaded" u.trueDownloaded ++ amount "ratio" u.ratio ++
    amount "trueRatio" u.trueRatio ++ text "levelName" u.levelName ++
    whole "levelId" u.levelId ++ amount "bonus" u.bonus ++
    amount "bonusPerHour" u.bonusPerHour ++ amount "seedingBonus" u.seedingBonus ++
    amount "seedingBonusPerHour" u.seedingBonusPerHour ++ count "uploads" u.uploads ++
    count "snatches" u.snatches ++ count "seeding" u.seeding ++
    count "seedingSize" u.seedingSize ++ count "leeching" u.leeching ++
    whole "joinTime" u.joinTime ++ whole "lastAccessAt" u.lastAccessAt ++
    count "messageCount" u.messageCount ++ count "invites" u.invites ++
    count "hnrUnsatisfied" u.hnrUnsatisfied ++ count "hnrPreWarning" u.hnrPreWarning

def encode (u : UserInfo) : Json :=
  .obj ([("site", .str u.site), ("status", .str u.status.name),
    ("updateAt", .ofInt64 u.updateAt)] ++ u.toFields)

end UserInfo

end SiteScrape
