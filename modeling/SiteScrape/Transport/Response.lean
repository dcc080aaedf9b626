import SiteScrape.Assoc
import SiteScrape.Text.Find

/-!
# Responses

The names of headers are in small letters, and the final address is the one
behind all redirects.
-/

namespace SiteScrape

/-- The answer to a request. -/
structure Response where
  status : Nat := 200
  headers : Assoc String := []
  body : String := ""
  finalUrl : String := ""
  deriving DecidableEq, Repr

namespace Response

/-- A header by its name in any case. -/
def header? (r : Response) (name : String) : Option String :=
  r.headers.get? (Text.asciiLower name)

def isSuccess (r : Response) : Bool := 200 ≤ r.status && r.status < 300

end Response

end SiteScrape
