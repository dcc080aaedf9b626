import SiteScrape.Transport.Request

/-!
# Failures of a site

Why an operation on a site came to nothing, and how that is worded.
-/

namespace SiteScrape

/-- What is wrong with a definition for the operation at hand. -/
inductive DefinitionGap where
  /-- No list block fits an address. -/
  | noListFor (url : String)
  | listHasNoSelectors
  | entryHasNoSelectors
  | selectorsHaveNoRows
  /-- Merged layers do not have the form of a definition. -/
  | malformed
  deriving DecidableEq, Repr

def DefinitionGap.detail : DefinitionGap → String
  | .noListFor url => "no list block matches " ++ url
  | .listHasNoSelectors => "list block has no selectors"
  | .entryHasNoSelectors => "search entry has no selectors"
  | .selectorsHaveNoRows => "search selectors have no rows"
  | .malformed => "malformed block"

/-- A body that is no JSON. -/
inductive Unreadable where
  | response
  | token
  deriving DecidableEq, Repr

/-- Why an operation on a site failed. -/
inductive SiteError where
  | needLogin
  | noTorrents
  | unreadable (what : Unreadable)
  | transport (e : TransportError)
  | noDownloadLink
  | definition (gap : DefinitionGap)
  deriving DecidableEq, Repr

/-- The wording of a failure; of an unreadable body only how it begins. -/
def SiteError.message : SiteError → String
  | .needLogin => "Login required"
  | .noTorrents => "No torrents found"
  | .unreadable .response => "Parse error: Invalid JSON response"
  | .unreadable .token => "Parse error: Invalid token response"
  | .transport e => e.message
  | .noDownloadLink => "No download link available"
  | .definition gap => "Invalid site metadata: " ++ gap.detail

/-- A step of an account query needs a field that no step before it found. -/
structure MissingField where
  /-- The number of the step, counting from zero. -/
  step : Nat
  field : String
  deriving DecidableEq, Repr

def MissingField.message (m : MissingField) : String :=
  "User info step " ++ toString m.step ++ " asserts field '" ++ m.field ++
    "' which has not been collected"

end SiteScrape
