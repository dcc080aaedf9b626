import SiteScrape.Text.Blank
import SiteScrape.Transport.Response

/-!
# Telling a login page

A response is taken for a login page by the words in the address it came from
or sends on to, and under the strict rule also by a login form on a short
page. The host of an address does not count.
-/

namespace SiteScrape.Login

/-- Words in the addresses of login pages. -/
def urlMarks : List String := ["login", "signin", "sign_in", "verify", "checkpoint", "takelogin"]

/-- Markup of login forms. -/
def formMarks : List String :=
  ["type=\"password\"", "type='password'", "name=\"password\"", "name=\"passwd\""]

/-- Pages of this many bytes and more are no login pages under the strict rule. -/
def strictLimit : Nat := 8 * 1024

/-- What follows the host of an address, from the first slash on. -/
def behindHost (url : List Char) : List Char :=
  match Text.cut "://".toList url with
  | some (_, rest) => rest.dropWhile (· != '/')
  | none => url

/-- The address is that of a login page. -/
def isLoginUrl (url : String) : Bool :=
  let tail := behindHost (Text.asciiLower url).toList
  urlMarks.any fun mark => Text.occurs mark.toList tail

/-- The text behind the first `url=` of a refresh header, without quotes. -/
def refreshTarget? (value : String) : Option String :=
  (Text.cut "url=".toList (Text.asciiLower value).toList).map fun (before, _) =>
    let rest := value.toList.drop (before.length + 4)
    String.ofList (Text.trimBoth (fun c => c == '\'' || c == '"')
      (Text.trimBoth Text.isBlank rest))

/-- A login form stands on a short page. -/
def hasShortForm (body : String) : Bool :=
  body.utf8ByteSize < strictLimit &&
    formMarks.any fun mark => Text.contains (Text.asciiLower body) mark

/-- The response is one to a visitor who is logged in. -/
def isLoggedIn (strict : Bool) (r : Response) : Bool :=
  !isLoginUrl r.finalUrl &&
    !((r.header? "refresh").bind refreshTarget?).any isLoginUrl &&
    !(strict && hasShortForm r.body)

end SiteScrape.Login
