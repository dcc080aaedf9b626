import SiteScrape.Schema.Plain
import SiteScrape.Site.Credentials
import SiteScrape.Site.Login

/-!
# The interface of Gazelle

Sites of this kind answer in JSON. They want a key with every request, and say
in the body when they do not accept it.
-/

namespace SiteScrape.Schema

namespace GazelleApi

/-- The properties of an edition in one line. -/
def edition (source : Source) : Json :=
  match source.json? with
  | none => .null
  | some torrent =>
    let parts := ["format", "encoding", "media", "remasterTitle"].filterMap fun key =>
      (((torrent.field? key).bind Json.asString?).map Text.trim).filter fun s => !s.isEmpty
    .str (" / ".intercalate parts)

/-- The body complains about missing credentials. -/
def refusesLogin (body : Json) : Bool :=
  let error := Text.asciiLower (((body.field? "error").bind Json.asString?).getD "")
  (body.field? "status").bind Json.asString? == some "failure" &&
    (Text.contains error "credentials" || Text.contains error "login")

/-- The response is one to a visitor who is logged in. -/
def isLoggedIn (r : Response) (m : Metadata) : Bool :=
  Login.isLoggedIn m.strictLoginCheck r && !(Json.parse r.body).any refusesLogin

def layer : Json :=
  .obj [
    ("schema", .str "gazelle_json"),
    ("search", .obj [
      ("keywordPath", .str "params.searchstr"),
      ("requestConfig", .obj [
        ("url", .str "/ajax.php"),
        ("responseType", .str "json"),
        ("params", .obj [("action", .str "browse")])]),
      ("selectors", .obj [
        ("rows", .obj [
          ("selector", .str "response.results"),
          ("group", .obj [
            ("childrenPath", .str "torrents"),
            ("inherit", .ofStrings ["title", "category"]),
            ("selectors", .obj [
              ("title", .obj [("selector", .str "groupName")]),
              ("category", .obj [("selector", .ofStrings ["releaseType", "category"])])])])]),
        ("id", .obj [("selector", .str "torrentId")]),
        ("title", .obj [("selector", .str "groupName")]),
        ("subTitle", .obj [
          ("selector", .str ":self"),
          ("elementProcess", .str "gazelleJsonEdition")]),
        ("url", .obj [
          ("selector", .str "torrentId"),
          ("filters", .arr [
            .obj [
              ("name", .str "prepend"),
              ("args", .ofStrings ["/torrents.php?torrentid="])]])]),
        ("link", .obj [
          ("selector", .str "torrentId"),
          ("filters", .arr [
            .obj [
              ("name", .str "prepend"),
              ("args", .ofStrings ["/torrents.php?action=download&id="])]])]),
        ("time", .obj [("selector", .ofStrings ["time", "groupTime"])]),
        ("size", .obj [("selector", .str "size")]),
        ("seeders", .obj [("selector", .str "seeders")]),
        ("leechers", .obj [("selector", .str "leechers")]),
        ("completed", .obj [("selector", .str "snatches")])])]),
    ("userInfo", .obj [
      ("process", .arr [
        .obj [
          ("requestConfig", .obj [
            ("url", .str "/ajax.php"),
            ("params", .obj [("action", .str "index")]),
            ("responseType", .str "json")]),
          ("fields", .ofStrings [
            "id", "name", "uploaded", "downloaded", "levelName", "messageCount"])],
        .obj [
          ("requestConfig", .obj [
            ("url", .str "/ajax.php"),
            ("params", .obj [("action", .str "user"), ("id", .str "$id$")]),
            ("responseType", .str "json")]),
          ("assertion", .obj [("id", .str "params.id")]),
          ("fields", .ofStrings ["joinTime", "uploads", "snatches", "seeding", "leeching"])]]),
      ("selectors", .obj [
        ("id", .obj [("selector", .str "response.id")]),
        ("name", .obj [("selector", .str "response.username")]),
        ("uploaded", .obj [("selector", .str "response.userstats.uploaded")]),
        ("downloaded", .obj [("selector", .str "response.userstats.downloaded")]),
        ("levelName", .obj [("selector", .str "response.userstats.class")]),
        ("messageCount", .obj [("selector", .str "response.notifications.messages")]),
        ("joinTime", .obj [
          ("selector", .str "response.stats.joinedDate"),
          ("filters", .ofStrings ["parseTime"])]),
        ("uploads", .obj [("selector", .str "response.community.uploaded")]),
        ("snatches", .obj [("selector", .str "response.community.snatched")]),
        ("seeding", .obj [("selector", .str "response.community.seeding")]),
        ("leeching", .obj [("selector", .str "response.community.leeching")])])])]

def hooks : Hooks where
  processors := [("gazelleJsonEdition", fun _ => edition)]
  loginCheck := some isLoggedIn
  authorizer := some (Credentials.apiKey "apikey")

end GazelleApi

/-- Sites that run Gazelle, asked through their interface. -/
def gazelleApi : Schema where
  name := "gazelle_json"
  defaults := Layers.merge privateDefaults [GazelleApi.layer]
  hooks := GazelleApi.hooks

end SiteScrape.Schema
