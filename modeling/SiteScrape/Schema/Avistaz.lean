import SiteScrape.Schema.Plain
import SiteScrape.Site.Credentials

/-!
# AvistaZ

Sites of this kind answer in JSON to whoever has a token, which a name, a
password and a personal identifier bring.
-/

namespace SiteScrape.Schema

namespace Avistaz

/-- Where tokens are got. -/
def tokenPath : String := "/api/v1/jackett/auth"

def layer : Json :=
  .obj [
    ("schema", .str "avistaz"),
    ("allowQueryUserInfo", .bool false),
    ("search", .obj [
      ("keywordPath", .str "params.search"),
      ("requestConfig", .obj [
        ("url", .str "/api/v1/jackett/torrents"),
        ("responseType", .str "json"),
        ("params", .obj [("in", .ofInt 1), ("limit", .ofInt 100)])]),
      ("advanceKeywordParams", .obj [
        ("imdb", .obj [("keywordPath", .str "params.imdb")]),
        ("tmdb", .obj [("keywordPath", .str "params.tmdb")])]),
      ("selectors", .obj [
        ("rows", .obj [("selector", .str "data")]),
        ("id", .obj [("selector", .str "id")]),
        ("title", .obj [("selector", .str "file_name")]),
        ("url", .obj [("selector", .str "url")]),
        ("link", .obj [("selector", .str "download")]),
        ("time", .obj [("selector", .str "created_at")]),
        ("size", .obj [("selector", .str "file_size")]),
        ("seeders", .obj [("selector", .str "seed")]),
        ("leechers", .obj [("selector", .str "leech")]),
        ("completed", .obj [("selector", .str "completed")]),
        ("category", .obj [("selector", .str "type")])])])]

def hooks : Hooks where
  authorizer := some (Credentials.bearerToken tokenPath)

end Avistaz

/-- Sites of the AvistaZ network. -/
def avistaz : Schema where
  name := "avistaz"
  defaults := Layers.merge privateDefaults [Avistaz.layer]
  hooks := Avistaz.hooks

end SiteScrape.Schema
