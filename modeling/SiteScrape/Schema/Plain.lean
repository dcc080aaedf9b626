import SiteScrape.Schema.Basic

/-!
# Sites without known software

Two schemas that assume nothing about the software of a site: for public
sites, one page that is searched with keywords, and for sites with accounts
what they add to that.
-/

namespace SiteScrape.Schema

/-- The layer of sites that anyone may use. -/
def commonLayer : Json :=
  .obj [
    ("schema", .str "common"),
    ("type", .str "public"),
    ("search", .obj [
      ("keywordPath", .str "params.keywords"),
      ("requestConfig", .obj [
        ("url", .str "/"),
        ("method", .str "get"),
        ("responseType", .str "document")]),
      ("selectors", .obj [
        ("time", .obj [("filters", .ofStrings ["parseTime"])]),
        ("size", .obj [("filters", .ofStrings ["parseSize"])])])])]

/-- What sites with accounts add: account data, and a detail page with a link. -/
def privateLayer : Json :=
  .obj [
    ("schema", .str "private"),
    ("type", .str "private"),
    ("userInfo", .obj [("pickLast", .ofStrings ["id", "name", "joinTime"])]),
    ("detail", .obj [
      ("selectors", .obj [
        ("link", .obj [
          ("selector", .ofStrings ["a[href*='download.php']", "a[href*='/download/']"]),
          ("attr", .str "href")])])])]

/-- The lowest layer of sites with accounts. -/
def privateDefaults : Json := Layers.merge commonLayer [privateLayer]

def common : Schema := { name := "common", defaults := commonLayer }

def membersOnly : Schema := { name := "private", defaults := privateDefaults }

end SiteScrape.Schema
