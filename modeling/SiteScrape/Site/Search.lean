import SiteScrape.Definition.Writing
import SiteScrape.Record.Found
import SiteScrape.Site.Basic

/-!
# Searching

A search entry says what to ask and how to read the answer. Keywords such as
`imdb|tt0133093` begin with a tag, which the entry can have rules for.
-/

namespace SiteScrape

namespace Keywords

/-- A character of a tag. -/
def isTagChar (c : Char) : Bool := c.isAlphanum || c == '_'

/-- Tag and rest of keywords that begin with a tag and a bar, on one line. -/
def tagged? (keywords : String) : Option (String × String) :=
  let cs := keywords.toList
  let tag := cs.takeWhile isTagChar
  match cs.dropWhile isTagChar with
  | '|' :: rest =>
    if tag.isEmpty || rest.contains '\n' then none
    else some (String.ofList tag, Text.trim (String.ofList rest))
  | _ => none

end Keywords

namespace Site

/-- The entry of a name, as a layer. -/
def namedLayer? (s : Site) (overlay : Json) : Option Json := do
  let name ← (← overlay.field? "id").asString?
  (← s.metadata.searchEntries.get? name).encode

/-- The layer of the search block. -/
def searchLayer (s : Site) : Json :=
  (s.metadata.search.map SearchEntry.encode).getD (.obj [])

/-- The entry that is searched with: the search block, the entry that the
overlay names, and the overlay itself. -/
def entry (s : Site) (overlay : Option Json) : Except SiteError SearchEntry :=
  match overlay with
  | none => .ok (s.metadata.search.getD {})
  | some overlay =>
    let layers := (s.namedLayer? overlay).toList ++ [overlay]
    match SearchEntry.decode (Layers.merge s.searchLayer layers) with
    | some e => .ok e
    | none => .error (.definition .malformed)

/-- The request that every search starts from. -/
def requestSeed : Json :=
  .obj [("url", .str "/"), ("responseType", .str "document"), ("params", .obj []),
    ("data", .obj [])]

/-- A layer on top of a request, if there is one. -/
def layered (request : Json) (layer : Option Json) : Json := Layers.merge request layer.toList

/-- What the rule of a tag does to a request: its layer, and another place for
the keywords. -/
def applyTag (s : Site) (e : SearchEntry) (rule : TaggedKeywords) (context : RequestContext)
    (request : Json) : Json :=
  let request := layered request rule.requestConfig
  let request := match rule.keywordPath with
    | some target =>
      match request.removeAt? e.keywordsAt with
      | some (v, rest) => rest.setAt target v
      | none => request
    | none => request
  s.transform rule.transformer context request

/-- The request for keywords; nothing when their tag is switched off. -/
def searchRequest? (s : Site) (keywords : String) (e : SearchEntry) : Option Json :=
  let keywords := Text.trim keywords
  let (tag, keywords) := match Keywords.tagged? keywords with
    | some (tag, rest) => (some tag, rest)
    | none => (none, keywords)
  let rule := tag.bind e.keywordRules.get?
  if rule.any fun rule => !rule.isEnabled then none
  else
    let request := layered requestSeed e.requestConfig
    let request :=
      if keywords.isEmpty then request else request.setAt e.keywordsAt (.str keywords)
    let context : RequestContext :=
      { metadata := s.metadata, keywords := some keywords, entry := some e }
    let request := match rule.bind KeywordRule.entry? with
      | some rule => s.applyTag e rule context request
      | none => request
    some (s.transform e.transformer context request)

/-- The torrents of a search page. -/
def readSearch (s : Site) (e : SearchEntry) (context : RowContext) (body : Body) :
    Except SiteError (List Torrent) :=
  match e.selectors with
  | some reading => Rows.Reader.torrents ⟨s.hooks, context⟩ s.metadata reading body
  | none => .error (.definition .entryHasNoSelectors)

/-- The torrents that a search request brings. -/
def fetchTorrents (s : Site) (now : Int) (keywords : String) (e : SearchEntry) (request : Json) :
    ExceptT SiteError Talk (List Torrent) := do
  let x ← s.send request
  let body ← bodyOf x
  ExceptT.mk (pure (s.readSearch e
    { keywords, entry := e, request := x.request, finalUrl := x.response.finalUrl, now } body))

/-- The result that an outcome counts as. -/
def resultOf : Except SiteError (List Torrent) → SearchResult
  | .ok torrents => ⟨.success, torrents⟩
  | .error .needLogin => ⟨.needLogin, []⟩
  | .error .noTorrents => ⟨.noResults, []⟩
  | .error _ => ⟨.parseError, []⟩

/-- Searches the site. -/
def search (s : Site) (now : Int) (keywords : String) (overlay : Option Json) :
    Talk SearchResult :=
  if !s.metadata.allowsSearch then pure ⟨.passed, []⟩
  else match s.entry overlay with
    | .error _ => pure ⟨.parseError, []⟩
    | .ok e =>
      if !e.isEnabled then pure ⟨.passed, []⟩
      else match s.searchRequest? keywords e with
        | none => pure ⟨.passed, []⟩
        | some request => resultOf <$> (s.fetchTorrents now keywords e request).run

end Site

end SiteScrape
