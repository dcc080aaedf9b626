import SiteScrape.Registry

/-!
# Checking a configuration

The first fault counts: the port, the general rate, then the sites in order.
-/

namespace SiteScrape.Config

/-- The faults of sites, `seen` being the identifiers before them. -/
def checkSites (seen : List String) : List SiteConfig → Except ConfigFault Unit
  | [] => .ok ()
  | s :: rest =>
    if Text.isBlankText s.id then .error .siteWithoutId
    else if seen.contains s.id then .error (.siteTwice s.id)
    else if s.requestsPerMinute = some 0 then .error (.siteRateIsZero s.id)
    else checkSites (s.id :: seen) rest

/-- The first fault of a configuration. -/
def check (c : Config) : Except ConfigFault Unit :=
  if c.server.port = 0 then .error .portIsZero
  else if c.engine.requestsPerMinute = 0 then .error .rateIsZero
  else checkSites [] c.sites

/-- Every site that is switched on needs a definition. -/
def checkDefinitions (c : Config) (r : Registry) : Except ConfigFault Unit :=
  match c.sites.filter fun s => s.enabled && (r.find? s.id).isNone with
  | [] => .ok ()
  | missing => .error (.undefinedSites (missing.map (·.id)))

end SiteScrape.Config
