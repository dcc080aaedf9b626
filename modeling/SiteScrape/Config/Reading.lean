import SiteScrape.Config.Environment

/-!
# Reading the configuration

The configuration is a TOML document, on top of which settings of the
environment may lie.
-/

namespace SiteScrape

/-- Why there is no valid configuration. -/
inductive ConfigFault where
  | portIsZero
  | rateIsZero
  | siteWithoutId
  | siteTwice (id : String)
  | siteRateIsZero (id : String)
  /-- Active sites that no definition is known for. -/
  | undefinedSites (ids : List String)
  deriving DecidableEq, Repr

inductive ConfigError where
  | fileNotFound (path : String)
  | unreadable
  | invalid (fault : ConfigFault)
  deriving DecidableEq, Repr

def ConfigFault.detail : ConfigFault → String
  | .portIsZero => "server.port cannot be 0"
  | .rateIsZero => "engine.requests_per_minute must be positive"
  | .siteWithoutId => "sites[].id cannot be empty"
  | .siteTwice id => "site '" ++ id ++ "' is configured twice"
  | .siteRateIsZero id => "site '" ++ id ++ "': requests_per_minute must be positive"
  | .undefinedSites ids => "no definition for site(s): " ++ ", ".intercalate ids

/-- The wording of an error; of an unreadable file only how it begins. -/
def ConfigError.message : ConfigError → String
  | .fileNotFound path => "Configuration file not found: " ++ path
  | .unreadable => "Failed to parse configuration"
  | .invalid fault => "Configuration validation failed: " ++ fault.detail

namespace Config

/-- The configuration with null for numbers in overrides that are not finite. -/
def finite (c : Config) : Config :=
  { c with sites := c.sites.map fun s => { s with overrides := Toml.finite s.overrides } }

/-- The configuration that a value describes. -/
def ofJson (v : Option Json) : Except ConfigError Config :=
  match v.bind decode with
  | some c => .ok c.finite
  | none => .error .unreadable

/-- The configuration that a document describes. -/
def ofToml (text : String) : Except ConfigError Config := ofJson (Toml.read? text)

/-- The configuration that a file and the environment describe together. -/
def load (path : String) (file : Option String) (vars : List (String × String)) :
    Except ConfigError Config :=
  match file with
  | none => .error (.fileNotFound path)
  | some text =>
    ofJson ((Toml.read? text).map fun v => Environment.apply v.sortKeys vars)

end Config

end SiteScrape
