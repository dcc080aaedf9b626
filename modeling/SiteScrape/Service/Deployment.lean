import SiteScrape.Registry
import SiteScrape.Site.Account
import SiteScrape.Site.Download
import SiteScrape.Site.Search

/-!
# Deployments

What the service shows of its configuration and its active sites. Of the
credentials only the names are shown.
-/

namespace SiteScrape

/-- A configuration and its active sites, sorted by identifier. -/
structure Deployment where
  config : Config
  sites : Assoc Site

namespace Deployment

/-- The deployment of active sites; of two with one identifier the last counts. -/
def ofSites (config : Config) (sites : List Site) : Deployment :=
  ⟨config, Assoc.sorted (sites.map fun s => (s.id, s))⟩

def site? (d : Deployment) (id : String) : Option Site := d.sites.get? id

end Deployment

namespace Site

/-- What is shown of a site in a list. -/
def summaryFields (s : Site) : Fields :=
  let m := s.metadata
  [("id", .str m.id), ("name", .str m.name), ("schema", .str m.schema),
    ("type", m.access.encode)] ++ Json.optional "url" (m.baseUrl?.map .str) ++
  [("tags", .ofStrings m.tags), ("is_offline", .bool m.isOffline),
    ("allow_search", .bool m.allowsSearch),
    ("allow_query_user_info", .bool m.allowsUserInfo)]

/-- What is shown of a site on its own. -/
def details (s : Site) : Json :=
  let m := s.metadata
  let categories := (m.search.map (·.categories)).getD []
  .obj (s.summaryFields ++ [("urls", .ofStrings m.urls)] ++
    Json.optional "timezone_offset" (m.timezoneOffset.map .str) ++
    [("search_entries", .ofStrings m.searchEntries.keys),
      ("categories", .arr (categories.map Category.encode)),
      ("level_requirements", .arr (m.levelRequirements.map LevelRequirement.encode)),
      ("user_input", .ofStrings m.userInput.keys)])

end Site

namespace Deployment

/-- How many sites are active. -/
def health (d : Deployment) : Json :=
  .obj [("status", .str "ok"), ("sites", .ofInt d.sites.length)]

/-- All active sites. -/
def siteList (d : Deployment) : Json :=
  .obj [("sites", .arr (d.sites.map fun (_, s) => .obj s.summaryFields))]

end Deployment

end SiteScrape
