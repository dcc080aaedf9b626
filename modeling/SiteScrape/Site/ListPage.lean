import SiteScrape.Definition.Writing
import SiteScrape.Pattern.Match
import SiteScrape.Site.Basic

/-!
# Pages of torrents other than a search

A list block says which addresses it is for. Its selectors stand on top of
those of the search, unless it says otherwise.
-/

namespace SiteScrape

/-- The block is for an address; a faulty pattern is for none. -/
def ListPage.isFor (l : ListPage) (url : String) : Bool :=
  l.urlPatterns.any fun pattern =>
    (Pattern.compile? pattern).any fun compiled => Pattern.isMatch compiled url

namespace Site

/-- The block for an address. -/
def listFor? (s : Site) (url : String) : Option ListPage := s.metadata.lists.find? (·.isFor url)

/-- The reading of a list page. -/
def listReading (s : Site) (l : ListPage) : Except SiteError RowReading :=
  let search := if l.mergeSearchSelectors then s.metadata.search.bind (·.selectors) else none
  match search, l.selectors with
  | some search, some own =>
    match RowReading.decode (Layers.merge search.encode [own.encode]) with
    | some reading => .ok reading
    | none => .error (.definition .malformed)
  | some search, none => .ok search
  | none, some own => .ok own
  | none, none => .error (.definition .listHasNoSelectors)

/-- The torrents of a page at an address. -/
def readList (s : Site) (now : Int) (url body : String) : Except SiteError (List Torrent) := do
  match s.listFor? url with
  | none => .error (.definition (.noListFor url))
  | some l =>
    let reading ← s.listReading l
    let body ← Body.ofText .document body
    Rows.Reader.torrents ⟨s.hooks, { finalUrl := url, now }⟩ s.metadata reading body

end Site

end SiteScrape
