import SiteScrape.Record.Torrent

/-!
# Results of a search

A search never fails: what went wrong shows in its status, and only a
successful one has torrents.
-/

namespace SiteScrape

/-- How a search ended. -/
inductive SearchStatus where
  | success
  | needLogin
  | noResults
  | parseError
  /-- The site was not asked. -/
  | passed
  deriving DecidableEq, Repr

def SearchStatus.name : SearchStatus → String
  | .success => "success"
  | .needLogin => "needLogin"
  | .noResults => "noResults"
  | .parseError => "parseError"
  | .passed => "passParse"

/-- The result of a search. -/
structure SearchResult where
  status : SearchStatus
  data : List Torrent := []

def SearchResult.encode (r : SearchResult) : Json :=
  .obj [("status", .str r.status.name), ("data", .arr (r.data.map Torrent.encode))]

end SiteScrape
