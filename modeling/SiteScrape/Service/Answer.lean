import SiteScrape.Service.Call
import SiteScrape.Service.Deployment

/-!
# Answering calls

A call is answered from the deployment, or by asking its sites, one after the
other. A search over several sites joins their results in the order of the
sites.
-/

namespace SiteScrape.Service

open Decode

/-- The keywords and the entry of a search. -/
structure SearchOrder where
  keywords : String
  /-- The sites to search; without them all sites. -/
  sites : Option (List String) := none
  entry : Option Json := none

def SearchOrder.decode : Decoder SearchOrder := fun v => do
  let e ← record ["keywords", "sites", "entry"] v
  some {
    keywords := ← required e "keywords" string
    sites := ← Decode.optional e "sites" (list string)
    entry := ← Decode.optional e "entry" any }

/-- The order to search one site. -/
def SearchOrder.decodeForSite : Decoder SearchOrder := fun v => do
  let e ← record ["keywords", "entry"] v
  some {
    keywords := ← required e "keywords" string
    entry := ← Decode.optional e "entry" any }

/-- The record that an account query starts from. -/
def decodePrevious : Decoder (Option UserInfo) := fun v => do
  Decode.optional (← record ["previous"] v) "previous" UserInfo.decode

/-- The torrent whose link is asked for. -/
def decodeTorrent : Decoder Torrent := fun v => do
  required (← record ["torrent"] v) "torrent" Torrent.decode

/-- The tokens of all sites, and the state of the outside. -/
structure State (σ : Type) where
  tokens : Assoc String := []
  outside : σ

/-- What calls are answered in: the outside and the clock. -/
structure Setting (σ : Type) where
  world : Talk.Outside σ
  /-- The moment that times are counted from. -/
  now : Int
  /-- The milliseconds between two states of the outside. -/
  elapsed : σ → σ → Nat

variable {α σ : Type}

/-- Holds a conversation with one site. -/
def converse (world : Talk.Outside σ) (site : Site) (talk : Talk α) (s : State σ) :
    α × State σ :=
  let (a, token, outside) := talk.run world (s.tokens.get? site.id) s.outside
  (a, ⟨(token.map (s.tokens.insert site.id)).getD s.tokens, outside⟩)

/-- The sites that a search is about, or those of them that do not exist. -/
def selectSites (d : Deployment) : Option (List String) → Except (List String) (List Site)
  | none => .ok d.sites.values
  | some ids =>
    match ids.filter fun id => (d.site? id).isNone with
    | [] => .ok (ids.filterMap d.site?)
    | unknown => .error unknown

/-- Searches sites one after the other. -/
def searchAll (here : Setting σ) (order : SearchOrder) (s : State σ) :
    List Site → List (String × SearchResult) × State σ
  | [] => ([], s)
  | site :: rest =>
    let (result, s) := converse here.world site (site.search here.now order.keywords order.entry) s
    let (results, s) := searchAll here order s rest
    ((site.id, result) :: results, s)

/-- The results of several sites in one, and the milliseconds it took to get them. -/
def joined (keywords : String) (duration : Nat) (results : List (String × SearchResult)) : Json :=
  .obj [("keywords", .str keywords),
    ("sites", .arr (results.map fun (site, r) =>
      .obj [("site", .str site), ("status", .str r.status.name), ("count", .ofInt r.data.length)])),
    ("torrents", .arr ((results.flatMap fun (_, r) => r.data).map Torrent.encode)),
    ("duration_ms", .ofInt duration)]

/-- The answer for a site that is not active. -/
def siteNotFound (id : String) : Reply := .failure 404 ("Site not found: " ++ id)

/-- The status that a failure to get a link answers with. -/
def linkStatus : SiteError → Nat
  | .needLogin => 401
  | .noDownloadLink => 404
  | .transport _ => 502
  | _ => 500

def linkReply : Except SiteError String → Reply
  | .ok link => .ok (.obj [("link", .str link)])
  | .error e => .failure (linkStatus e) e.message

def accountReply : Except MissingField UserInfo → Reply
  | .ok u => .ok u.encode
  | .error e => .failure 422 e.message

/-- What the body of a call orders, and then what `f` answers. -/
def withOrder (c : Call) (d : Decoder α) (s : State σ) (f : α → Reply × State σ) :
    Reply × State σ :=
  match c.value with
  | .error status => (.refusal status, s)
  | .ok v =>
    match d v with
    | none => (.refusal 422, s)
    | some order => f order

/-- What `f` answers for an active site. -/
def withSite (d : Deployment) (id : String) (s : State σ) (f : Site → Reply × State σ) :
    Reply × State σ :=
  match d.site? id with
  | none => (siteNotFound id, s)
  | some site => f site

/-- The answer of an endpoint. -/
def serve (here : Setting σ) (d : Deployment) (c : Call) (s : State σ) :
    Endpoint → Reply × State σ
  | .health => (.ok d.health, s)
  | .config => (.ok d.config.open_.encode, s)
  | .sites => (.ok d.siteList, s)
  | .site id => withSite d id s fun site => (.ok site.details, s)
  | .siteSearch id =>
    withOrder c SearchOrder.decodeForSite s fun order => withSite d id s fun site =>
      let (r, s) := converse here.world site (site.search here.now order.keywords order.entry) s
      (.ok r.encode, s)
  | .accountInfo id =>
    withOrder c decodePrevious s fun previous => withSite d id s fun site =>
      let (r, s) := converse here.world site (site.accountInfo here.now previous) s
      (accountReply r, s)
  | .downloadLink id =>
    withOrder c decodeTorrent s fun torrent => withSite d id s fun site =>
      let (r, s) := converse here.world site (site.downloadLink here.now torrent).run s
      (linkReply r, s)
  | .search =>
    withOrder c SearchOrder.decode s fun order =>
      match selectSites d order.sites with
      | .error unknown => (.failure 400 ("Unknown site(s): " ++ ", ".intercalate unknown), s)
      | .ok sites =>
        let (results, after) := searchAll here order s sites
        let duration := here.elapsed s.outside after.outside
        (.ok (joined order.keywords duration results), after)

/-- An answer to a call that asks for the head only. -/
def Reply.forMethod (r : Reply) (method : String) : Reply :=
  if method == "HEAD" then .refusal r.status else r

/-- Answers a call. Any page may ask which methods are allowed. -/
def respond (here : Setting σ) (d : Deployment) (c : Call) (s : State σ) :
    Reply × State σ :=
  if c.method == "OPTIONS" then (.refusal 200, s)
  else match Endpoint.ofPath? c.path with
    | none => (.refusal 404, s)
    | some e =>
      if !e.takes c.method then (.refusal 405, s)
      else match e.plain? with
        | none => (.refusal 400, s)
        | some e =>
          let (reply, s) := serve here d c s e
          (reply.forMethod c.method, s)

end SiteScrape.Service
