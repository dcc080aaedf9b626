import SiteScrape.Url.Host

/-!
# URLs

A URL in its parts, each already in escaped form, so that writing one is
joining its parts.
-/

namespace SiteScrape

namespace Url

/-- What follows the authority: the segments of a hierarchy, or one opaque text. -/
inductive UrlPath where
  | segments (ss : List String)
  | opaqueText (s : String)
  deriving DecidableEq, Repr

/-- The well-known schemes; `file` has no port. -/
inductive SchemeKind where
  | web
  | file
  | other
  deriving DecidableEq, Repr

/-- The kind of a scheme in small letters. -/
def SchemeKind.ofScheme (s : String) : SchemeKind :=
  if s == "http" || s == "https" || s == "ws" || s == "wss" || s == "ftp" then .web
  else if s == "file" then .file
  else .other

/-- Backslashes divide like slashes, and there is always a host and a path. -/
def SchemeKind.isSpecial (k : SchemeKind) : Bool := k != .other

/-- The port that a scheme uses when none is named. -/
def defaultPort (scheme : String) : Option Nat :=
  if scheme == "http" || scheme == "ws" then some 80
  else if scheme == "https" || scheme == "wss" then some 443
  else if scheme == "ftp" then some 21
  else none

end Url

/-- A URL. -/
structure Url where
  scheme : String
  username : String := ""
  password : String := ""
  host : Option Url.Host := none
  port : Option Nat := none
  path : Url.UrlPath := .segments []
  query : Option String := none
  fragment : Option String := none
  deriving DecidableEq, Repr

namespace Url

def kind (u : Url) : SchemeKind := .ofScheme u.scheme

/-- User, host and port. -/
def authorityText (u : Url) : String :=
  match u.host with
  | none => ""
  | some host =>
    let password := if u.password.isEmpty then "" else ":" ++ u.password
    let user :=
      if u.username.isEmpty && u.password.isEmpty then "" else u.username ++ password ++ "@"
    let port := match u.port with
      | some p => ":" ++ toString p
      | none => ""
    "//" ++ user ++ host.text ++ port

/-- The path; without a host, one that would read as an authority gets a dot in front. -/
def pathText (u : Url) : String :=
  match u.path with
  | .opaqueText s => s
  | .segments ss =>
    let mark := if u.host.isNone && ss.length > 1 && ss.head? == some "" then "/." else ""
    mark ++ String.join (ss.map ("/" ++ ·))

/-- A part behind its mark, if it is there. -/
def marked (mark : String) (part : Option String) : String :=
  match part with
  | some s => mark ++ s
  | none => ""

/-- The written URL. -/
def text (u : Url) : String :=
  u.scheme ++ ":" ++ u.authorityText ++ u.pathText ++ marked "?" u.query ++ marked "#" u.fragment

end Url

end SiteScrape
