import SiteScrape.Json.Reader
import SiteScrape.Site.Hooks

/-!
# Credentials

Two ways to add the credentials of a user to the requests of a site: a key
that is sent as it is, and a token that is got once with a name and a password
and sent from then on.
-/

namespace SiteScrape.Credentials

/-- Where requests carry credentials. -/
def headerPath : String := "headers.Authorization"

/-- Sends the input of this name, unless the request has credentials already
or the user has not given any. -/
def apiKey (input : String) : Authorizer := fun m request =>
  match m.userInput.get? input with
  | some key =>
    pure (if request.hasAt headerPath then request else request.setAt headerPath (.str key))
  | none => pure request

/-- The request for a token. -/
def tokenRequest (path : String) (m : Metadata) (username password pid : String) : Json :=
  .obj [("url", .str path), ("method", .str "post"),
    ("baseURL", (m.baseUrl?.map Json.str).getD .null), ("responseType", .str "json"),
    ("data", .obj [("username", .str username), ("password", .str password), ("pid", .str pid)])]

/-- The token in the answer to such a request. -/
def tokenIn (r : Response) : Except SiteError String :=
  if !r.isSuccess then .error .needLogin
  else match Json.parse r.body with
    | none => .error (.unreadable .token)
    | some body =>
      match ((body.field? "token").bind Json.asString?).filter fun t => !t.isEmpty with
      | some token => .ok token
      | none => .error .needLogin

/-- Gets a token for what the user has given. -/
def fetchToken (path : String) (m : Metadata) : ExceptT SiteError Talk String :=
  match m.userInput.get? "username", m.userInput.get? "password", m.userInput.get? "pid" with
  | some username, some password, some pid => do
    let r ← ExceptT.mk (pure
      ((Request.ofJson (tokenRequest path m username password pid)).mapError .transport))
    let response ← ExceptT.mk ((Except.mapError .transport ·) <$> Talk.ask r)
    ExceptT.mk (pure (tokenIn response))
  | _, _, _ => throw .needLogin

/-- The token of the site, got at `path` by the first that needs it. -/
def token (path : String) (m : Metadata) : ExceptT SiteError Talk String := do
  match ← ExceptT.lift Talk.claim with
  | some token => return token
  | none =>
    let outcome ← ExceptT.lift (fetchToken path m).run
    ExceptT.lift (Talk.settle outcome.toOption)
    ExceptT.mk (pure outcome)

/-- Sends the token of the site, in place of what credentials the request has:
a request has each key once. -/
def bearerToken (path : String) : Authorizer := fun m request => do
  let token ← token path m
  return request.distinct.setAt headerPath (.str ("Bearer " ++ token))

end SiteScrape.Credentials
