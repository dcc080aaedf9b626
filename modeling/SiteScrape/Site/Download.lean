import SiteScrape.Record.Torrent
import SiteScrape.Site.Basic

/-!
# Download links

The link of a torrent stands on the list it was found on, or else on its
detail page.
-/

namespace SiteScrape.Site

/-- The token in an address that stands for the identifier of a torrent. -/
def idToken : String := "$id$"

/-- The request for the detail page of a torrent. -/
def detailRequest (detail : DetailPage) (t : Torrent) : Except SiteError Json :=
  let request := detail.requestConfig.getD (.obj [])
  match (request.at? "url").bind Json.asString? with
  | some url => .ok <|
    if Text.contains url idToken then
      request.setAt "url" (.str (Text.replaceAll idToken t.id url))
    else request
  | none =>
    match t.url with
    | some url => .ok (request.setAt "url" (.str url))
    | none => .error .noDownloadLink

/-- The detail page of the site and the field of its link. -/
def linkField (s : Site) : Except SiteError (DetailPage × Field) :=
  match s.metadata.detail.bind fun d => (d.selectors.get? "link").map fun f => (d, f) with
  | some found => .ok found
  | none => .error .noDownloadLink

/-- The link on the detail page of a torrent. -/
def fetchLink (s : Site) (now : Int) (t : Torrent) : ExceptT SiteError Talk String := do
  let (detail, field) ← ExceptT.mk (pure s.linkField)
  let request ← ExceptT.mk (pure (detailRequest detail t))
  let x ← s.send request
  let body ← bodyOf x
  let link := (field.resolve s.hooks.resolver now body.source .numeric).asText
  if Text.isBlankText link then throw .noDownloadLink
  let page :=
    if x.response.finalUrl.isEmpty then s.metadata.baseUrl?.getD "" else x.response.finalUrl
  return absoluteUrl page link

/-- The address that a torrent is downloaded from. -/
def downloadLink (s : Site) (now : Int) (t : Torrent) : ExceptT SiteError Talk String :=
  match t.link.filter fun link => !Text.isBlankText link with
  | some link => pure (absoluteUrl (s.metadata.baseUrl?.getD "") link)
  | none => s.fetchLink now t

end SiteScrape.Site
