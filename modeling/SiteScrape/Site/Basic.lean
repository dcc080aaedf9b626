import SiteScrape.Definition.Resolve
import SiteScrape.Rows.Page
import SiteScrape.Site.Login
import SiteScrape.Time.Offset

/-!
# Sites

A site is its metadata together with its hooks. Every request of an operation
goes out through `send`, which adds the base address and credentials, waits
for the throttle, and tells failures apart.
-/

namespace SiteScrape

/-- A site that can be asked. -/
structure Site where
  metadata : Metadata
  hooks : Hooks := {}

/-- A request as it was sent, and the response. -/
structure Exchange where
  request : Json
  kind : ResponseKind
  response : Response

namespace Site

/-- The offset that the site shows times at. -/
def offset? (m : Metadata) : Option Int := m.timezoneOffset.bind Time.offsetOfText?

/-- A site; with an offset, its times are read in local time. -/
def ofMetadata (m : Metadata) (hooks : Hooks) : Site :=
  match offset? m with
  | some offset =>
    ⟨m, { hooks with filters := hooks.filters.insert "parseTime" (Filter.parseTime offset) }⟩
  | none => ⟨m, hooks⟩

def id (s : Site) : String := s.metadata.id

/-- The response is one to a visitor who is logged in. -/
def isLoggedIn (s : Site) (r : Response) : Bool :=
  match s.hooks.loginCheck with
  | some check => check r s.metadata
  | none => Login.isLoggedIn s.metadata.strictLoginCheck r

/-- A request after the named transformer; an unknown one changes nothing. -/
def transform (s : Site) (name : Option String) (context : RequestContext) (request : Json) :
    Json :=
  match name.bind s.hooks.transformers.get? with
  | some change => change context request
  | none => request

/-- A request with the address of the site, unless it has one. -/
def addBase (s : Site) (request : Json) : Json :=
  match s.metadata.baseUrl? with
  | some base => if request.hasAt "baseURL" then request else request.setAt "baseURL" (.str base)
  | none => request

/-- A request with credentials. -/
def authorize (s : Site) (request : Json) : ExceptT SiteError Talk Json :=
  match s.hooks.authorizer with
  | some add => add s.metadata request
  | none => pure request

/-- Whether a response will do. -/
def judge (s : Site) (r : Response) : Except SiteError Unit :=
  if r.status = 401 || r.status = 403 || !s.isLoggedIn r then .error .needLogin
  else if !r.isSuccess then .error (.transport (.http ("HTTP " ++ toString r.status)))
  else .ok ()

/-- Waits for the throttle and sends a request. -/
def ask (s : Site) (r : Request) : ExceptT SiteError Talk Response := do
  ExceptT.lift (Talk.wait s.id)
  ExceptT.mk ((Except.mapError .transport ·) <$> Talk.ask r)

/-- Sends a request that has its credentials, and judges the response. -/
def deliver (s : Site) (request : Json) : ExceptT SiteError Talk Exchange := do
  let r ← ExceptT.mk (pure ((Request.ofJson request).mapError .transport))
  let response ← s.ask r
  ExceptT.mk (pure (s.judge response))
  return ⟨request, r.responseKind, response⟩

/-- Sends a request with the address of the site and credentials. -/
def send (s : Site) (request : Json) : ExceptT SiteError Talk Exchange := do
  let full ← s.authorize (s.addBase request)
  s.deliver full

/-- The body of an exchange. -/
def bodyOf (e : Exchange) : ExceptT SiteError Talk Body :=
  ExceptT.mk (pure (Body.ofText e.kind e.response.body))

end Site

end SiteScrape
