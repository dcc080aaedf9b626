import SiteScrape.Schema.Avistaz
import SiteScrape.Schema.Gazelle
import SiteScrape.Schema.GazelleApi
import SiteScrape.Schema.NexusPhp
import SiteScrape.Site.Basic

/-!
# Built-in schemas

The schemas by name, and sites made from definitions that name one.
-/

namespace SiteScrape

namespace Schema

/-- All schemas. -/
def builtin : List Schema := [common, membersOnly, nexusPhp, gazelle, gazelleApi, avistaz]

/-- The schema of a name, in any case of letters. -/
def named? (name : String) : Option Schema :=
  builtin.find? fun schema => Text.sameIgnoringAsciiCase schema.name name

/-- The schema that a definition names; without one it is the common one. -/
def nameIn (definition : Json) : String :=
  ((definition.field? "schema").bind Json.asString?).getD common.name

end Schema

namespace Site

/-- The site of a definition, with a user layer and hooks of the application. -/
def ofDefinition (definition : Json) (user : Option Json) (hooks : Hooks) :
    Except DefinitionError Site :=
  let name := Schema.nameIn definition
  match Schema.named? name with
  | none => .error (.unknownSchema name)
  | some schema =>
    (Definition.resolve schema.defaults definition user schema.offset).map fun m =>
      ofMetadata m (schema.hooks.extend hooks)

end Site

end SiteScrape
