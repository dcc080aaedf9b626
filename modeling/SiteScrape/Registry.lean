import SiteScrape.Config.Reading
import SiteScrape.Json.Reader
import SiteScrape.Schema.Builtin
import SiteScrape.Throttle

/-!
# The registry of definitions

Definitions by their identifiers, which every one of them has. A configured
site is made from its definition and a user layer: the free overrides, and on
top of them the address and the credentials that were configured.
-/

namespace SiteScrape

/-- Why a registry or a site from it could not be made. -/
inductive RegistryError where
  /-- A directory or file could not be read. -/
  | unreadable (path : String)
  /-- A file does not spell a value. -/
  | malformed (file : String)
  /-- The definition of a file has no identifier. -/
  | missingId (place : String)
  | unknownSite (id : String)
  | definition (site : String) (e : DefinitionError)

/-- Known definitions, sorted by identifier. -/
structure Registry where
  definitions : Assoc Json := []

namespace Registry

def find? (r : Registry) (id : String) : Option Json := r.definitions.get? id

def ids (r : Registry) : List String := r.definitions.keys

/-- The place of a definition that comes from no file. -/
def inlinePlace : String := "<inline>"

/-- The identifier of a definition, if it is more than blanks. -/
def idOf? (definition : Json) : Option String :=
  ((definition.field? "id").bind Json.asString?).filter fun id => !Text.isBlankText id

/-- Adds or replaces a definition that stands at a place. -/
def insertFrom (r : Registry) (place : String) (definition : Json) :
    Except RegistryError Registry :=
  match idOf? definition with
  | some id => .ok ⟨r.definitions.place id definition⟩
  | none => .error (.missingId place)

/-- Adds or replaces a definition. -/
def insert (r : Registry) (definition : Json) : Except RegistryError Registry :=
  r.insertFrom inlinePlace definition

/-- The kinds of files that hold definitions. -/
inductive FileKind where
  | json
  | toml
  deriving DecidableEq, Repr

/-- The text behind the last dot of a file name, unless the dot comes first. -/
def extension? (name : String) : Option String :=
  match (Text.splitOn "." name).reverse with
  | last :: stem => if stem = [] || stem = [""] then none else some last
  | [] => none

def FileKind.ofName? (name : String) : Option FileKind :=
  match extension? name with
  | some "json" => some .json
  | some "toml" => some .toml
  | _ => none

/-- The definition that a file holds. -/
def definitionIn (kind : FileKind) (name text : String) : Except RegistryError Json :=
  match kind with
  | .json => (Json.parse text).elim (.error (.malformed name)) .ok
  | .toml => ((Toml.read? text).map Toml.finite).elim (.error (.malformed name)) .ok

/-- The definition of a file, whose text there may be no way to read. -/
def readDefinition (name : String) (text : Option String) : Except RegistryError Json :=
  match text with
  | some text => definitionIn ((FileKind.ofName? name).getD .json) name text
  | none => .error (.unreadable name)

/-- Adds the definition of a file. -/
def addFile (r : Registry) (name : String) (text : Option String) :
    Except RegistryError Registry := do
  r.insertFrom name (← readDefinition name text)

/-- The registry of what a directory lists, each entry with its text if that can
be read. The files that hold definitions are read in the order of their names,
all others are passed over. -/
def ofListing (entries : List (String × Option String)) : Except RegistryError Registry :=
  (Assoc.sorted (entries.filter fun (name, _) => (FileKind.ofName? name).isSome)).foldlM
    (fun r (name, text) => r.addFile name text) {}

/-- The registry of a directory, which there may be no way to list. -/
def load (directory : String) (entries : Option (List (String × Option String))) :
    Except RegistryError Registry :=
  match entries with
  | some entries => ofListing entries
  | none => .error (.unreadable directory)

/-- The registry of a directory of texts. -/
def ofFiles (files : List (String × String)) : Except RegistryError Registry :=
  ofListing (files.map fun (name, text) => (name, some text))

/-- Adds or replaces a definition of a registry in use. -/
def insertCall (definition : Json) : ExceptT RegistryError (StateM Registry) Unit := do
  set (← (← get).insert definition)

/-- A registry in use after some more calls, each with one of these definitions. -/
def after (r : Registry) (definitions : List Json) : Registry :=
  definitions.foldl (fun r definition => ((insertCall definition).run.run r).2) r

end Registry

namespace SiteConfig

/-- The address and the credentials that were configured. -/
def explicitLayer (c : SiteConfig) : Json :=
  .obj ((match c.url with
      | some url => [("urls", .ofStrings [url])]
      | none => []) ++
    (if c.userInput.isEmpty then [] else [("userInput", .obj (c.userInput.mapValues .str))]))

/-- The layer that a configured site puts on top of its definition. -/
def userLayer (c : SiteConfig) : Json :=
  Layers.merge (if c.overrides.isObject then c.overrides else .obj []) [c.explicitLayer]

end SiteConfig

namespace Registry

/-- The site that a configuration asks for. -/
def buildSite (r : Registry) (c : SiteConfig) (hooks : Hooks := {}) : Except RegistryError Site :=
  match r.find? c.id with
  | none => .error (.unknownSite c.id)
  | some definition =>
    (Site.ofDefinition definition (some c.userLayer) hooks).mapError (.definition c.id)

/-- All sites that are switched on. -/
def buildSites (r : Registry) (sites : List SiteConfig) : Except RegistryError (List Site) :=
  (sites.filter (·.enabled)).mapM fun c => r.buildSite c

/-- The throttle for configured sites. -/
def throttle (sites : List SiteConfig) (engine : EngineConfig) : Throttle :=
  .ofRates engine.requestsPerMinute (sites.foldl (fun rates s =>
    match s.requestsPerMinute with
    | some rate => rates.insert s.id rate
    | none => rates) [])

end Registry

end SiteScrape
