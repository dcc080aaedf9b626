import SiteScrape.Definition.Basic
import SiteScrape.Field.Resolve
import SiteScrape.Site.Error
import SiteScrape.Site.Talk

/-!
# Hooks

Code that a definition refers to by name where describing does not do. The
hooks of a schema and those of an application are laid on top of each other,
and the upper ones win.
-/

namespace SiteScrape

/-- What a row is read for. -/
structure RowContext where
  keywords : String := ""
  entry : SearchEntry := {}
  /-- The request that the page answers. -/
  request : Json := .null
  /-- The address that the page came from in the end. -/
  finalUrl : String := ""
  now : Int

/-- What a request is changed for. -/
structure RequestContext where
  metadata : Metadata
  keywords : Option String := none
  entry : Option SearchEntry := none
  /-- The account data found so far. -/
  userInfo : Option Fields := none

/-- Reads a torrent field, given the fields read before it. -/
abbrev TorrentFieldHook := RowContext → Fields → Source → Json

/-- Reads an account field at a moment, given the fields found before it. -/
abbrev AccountFieldHook := Int → Fields → Source → Json

/-- Changes a request before it is sent. -/
abbrev Transformer := RequestContext → Json → Json

/-- Says whether a row is kept. -/
abbrev RowFilter := Source → Bool

/-- Says whether a response is one to a visitor who is logged in. -/
abbrev LoginCheck := Response → Metadata → Bool

/-- Adds credentials to a request. -/
abbrev Authorizer := Metadata → Json → ExceptT SiteError Talk Json

/-- The hooks of a site by name. -/
structure Hooks where
  torrentFields : Assoc TorrentFieldHook := []
  accountFields : Assoc AccountFieldHook := []
  processors : Assoc Processor := []
  transformers : Assoc Transformer := []
  rowFilters : Assoc RowFilter := []
  filters : Filter.Table := []
  loginCheck : Option LoginCheck := none
  authorizer : Option Authorizer := none

namespace Hooks

/-- `upper` on top of `lower`. -/
def extend (lower upper : Hooks) : Hooks where
  torrentFields := lower.torrentFields.insertAll upper.torrentFields
  accountFields := lower.accountFields.insertAll upper.accountFields
  processors := lower.processors.insertAll upper.processors
  transformers := lower.transformers.insertAll upper.transformers
  rowFilters := lower.rowFilters.insertAll upper.rowFilters
  filters := lower.filters.insertAll upper.filters
  loginCheck := upper.loginCheck.or lower.loginCheck
  authorizer := upper.authorizer.or lower.authorizer

/-- What fields are resolved with. -/
def resolver (h : Hooks) : Resolver := ⟨h.filters, h.processors⟩

end Hooks

end SiteScrape
