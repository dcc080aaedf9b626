import SiteScrape.Definition.Layers
import SiteScrape.Site.Hooks

/-!
# Schemas

Sites that run the same software have most of their definitions in common. A
schema is the lowest layer of such a definition together with the hooks that
it names.
-/

namespace SiteScrape

/-- What sites of one kind have in common. -/
structure Schema where
  name : String
  /-- The lowest layer of their definitions. -/
  defaults : Json
  hooks : Hooks := {}
  /-- Offset of the times of sites that declare none. -/
  offset : Option String := none

end SiteScrape
