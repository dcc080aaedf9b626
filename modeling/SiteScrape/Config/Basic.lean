import SiteScrape.Config.Address
import SiteScrape.Json.Decode

/-!
# Configuration

Where the service listens, how it sends requests, where definitions are, and
which sites are active with which credentials. The open form of it, which may
be shown, names credentials without their values.
-/

namespace SiteScrape

/-- Where the service listens. -/
structure ServerConfig where
  host : Address := .v4 0 0
  port : Nat := 8080

/-- How requests are sent. -/
structure EngineConfig where
  /-- Seconds until a request is given up. -/
  timeout : UInt64 := 30
  userAgent : Option String := none
  /-- How many requests a site gets in a minute. -/
  requestsPerMinute : UInt32 := 20

/-- Where definitions are. -/
structure RegistryConfig where
  definitions : String := "sites"

/-- An active site. -/
structure SiteConfig where
  /-- The definition that it is made from. -/
  id : String
  enabled : Bool := true
  /-- An address to use before those of the definition. -/
  url : Option String := none
  /-- Credentials and keys by name. -/
  userInput : Assoc String := []
  requestsPerMinute : Option UInt32 := none
  /-- A layer on top of the definition. -/
  overrides : Json := .null

structure Config where
  server : ServerConfig := {}
  engine : EngineConfig := {}
  registry : RegistryConfig := {}
  sites : List SiteConfig := []

open Decode

def ServerConfig.decode : Decoder ServerConfig := fun v => do
  let e ← record ["host", "port"] v
  some {
    host := ← withDefault e "host" (fun v => v.asString?.bind Address.read?) (.v4 0 0)
    port := ← withDefault e "port" (natBelow 0x10000) 8080 }

def EngineConfig.decode : Decoder EngineConfig := fun v => do
  let e ← record ["timeout_secs", "user_agent", "requests_per_minute"] v
  some {
    timeout := ← withDefault e "timeout_secs" uint64 30
    userAgent := ← Decode.optional e "user_agent" string
    requestsPerMinute := ← withDefault e "requests_per_minute" uint32 20 }

def RegistryConfig.decode : Decoder RegistryConfig := fun v => do
  let e ← record ["definitions"] v
  some { definitions := ← withDefault e "definitions" string "sites" }

def SiteConfig.decode : Decoder SiteConfig := fun v => do
  let e ← record ["id", "enabled", "url", "user_input", "requests_per_minute", "overrides"] v
  some {
    id := ← required e "id" string
    enabled := ← withDefault e "enabled" bool true
    url := ← Decode.optional e "url" string
    userInput := ← withDefault e "user_input" (sortedMap string) []
    requestsPerMinute := ← Decode.optional e "requests_per_minute" uint32
    overrides := ← withDefault e "overrides" any .null }

def Config.decode : Decoder Config := fun v => do
  let e ← record ["server", "engine", "registry", "sites"] v
  some {
    server := ← withDefault e "server" ServerConfig.decode {}
    engine := ← withDefault e "engine" EngineConfig.decode {}
    registry := ← withDefault e "registry" RegistryConfig.decode {}
    sites := ← withDefault e "sites" (list SiteConfig.decode) [] }

def ServerConfig.encode (c : ServerConfig) : Json :=
  .obj [("host", .str c.host.text), ("port", .ofInt c.port)]

def EngineConfig.encode (c : EngineConfig) : Json :=
  .obj ([("timeout_secs", .ofUInt64 c.timeout)] ++
    Json.optional "user_agent" (c.userAgent.map .str) ++
    [("requests_per_minute", .ofInt c.requestsPerMinute.toNat)])

def RegistryConfig.encode (c : RegistryConfig) : Json := .obj [("definitions", .str c.definitions)]

def SiteConfig.encode (c : SiteConfig) : Json :=
  .obj ([("id", .str c.id), ("enabled", .bool c.enabled)] ++
    Json.optional "url" (c.url.map .str) ++
    [("user_input", .obj (c.userInput.mapValues .str))] ++
    Json.optional "requests_per_minute" (c.requestsPerMinute.map fun r => .ofInt r.toNat) ++
    [("overrides", c.overrides)])

def Config.encode (c : Config) : Json :=
  .obj [("server", c.server.encode), ("engine", c.engine.encode),
    ("registry", c.registry.encode), ("sites", .arr (c.sites.map SiteConfig.encode))]

/-- An active site without the values of its credentials. -/
structure OpenSiteConfig where
  id : String
  enabled : Bool
  url : Option String
  /-- The names of the credentials. -/
  inputNames : List String
  hasOverrides : Bool

def SiteConfig.open_ (c : SiteConfig) : OpenSiteConfig where
  id := c.id
  enabled := c.enabled
  url := c.url
  inputNames := c.userInput.keys
  hasOverrides := !c.overrides.isNull

def OpenSiteConfig.encode (c : OpenSiteConfig) : Json :=
  .obj ([("id", .str c.id), ("enabled", .bool c.enabled)] ++
    Json.optional "url" (c.url.map .str) ++
    [("user_input", .ofStrings c.inputNames), ("has_overrides", .bool c.hasOverrides)])

/-- The configuration without the values of credentials. -/
structure OpenConfig where
  server : ServerConfig
  engine : EngineConfig
  registry : RegistryConfig
  sites : List OpenSiteConfig

def Config.open_ (c : Config) : OpenConfig where
  server := c.server
  engine := c.engine
  registry := c.registry
  sites := c.sites.map SiteConfig.open_

def OpenConfig.encode (c : OpenConfig) : Json :=
  .obj [("server", c.server.encode), ("engine", c.engine.encode),
    ("registry", c.registry.encode), ("sites", .arr (c.sites.map OpenSiteConfig.encode))]

/-- The name that requests carry when none is configured. -/
def defaultUserAgent : String := "trackhub/0.1.0"

/-- The name that requests carry. -/
def EngineConfig.agent (c : EngineConfig) : String := c.userAgent.getD defaultUserAgent

end SiteScrape
