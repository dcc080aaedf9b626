import SiteScrape.Json.Reader
import SiteScrape.Text.Find
import SiteScrape.Url.Percent

/-!
# Calls of the service

A call names an endpoint by its path. Its body has to be JSON and to say so;
a call that does not get through to an endpoint is refused without a body.
-/

namespace SiteScrape.Service

/-- A call as it arrives. -/
structure Call where
  method : String
  /-- Path and query. -/
  path : String
  body : String := ""
  contentType : Option String := none

/-- An answer; without JSON if the call was refused. -/
structure Reply where
  status : Nat
  body : Option Json := none

/-- An answer with a value. -/
def Reply.ok (v : Json) : Reply := ⟨200, some v⟩

/-- An answer that says what went wrong. -/
def Reply.failure (status : Nat) (message : String) : Reply :=
  ⟨status, some (.obj [("error", .str message)])⟩

/-- A refusal. -/
def Reply.refusal (status : Nat) : Reply := ⟨status, none⟩

/-- What is behind a path. -/
inductive Endpoint where
  | health
  | config
  | sites
  | site (id : String)
  | siteSearch (id : String)
  | accountInfo (id : String)
  | downloadLink (id : String)
  | search
  deriving DecidableEq, Repr

namespace Endpoint

/-- The endpoint only shows things. -/
def isReading : Endpoint → Bool
  | .health | .config | .sites | .site _ => true
  | .siteSearch _ | .accountInfo _ | .downloadLink _ | .search => false

/-- Whether the endpoint takes calls of a method. -/
def takes (e : Endpoint) (method : String) : Bool :=
  if e.isReading then method == "GET" || method == "HEAD" else method == "POST"

/-- The endpoint of the parts of a path; identifiers still have their escapes. -/
def ofParts? : List String → Option Endpoint
  | ["health"] => some .health
  | ["config"] => some .config
  | ["search"] => some .search
  | ["sites"] => some .sites
  | ["sites", id] => if id.isEmpty then none else some (.site id)
  | ["sites", id, action] =>
    if id.isEmpty then none
    else match action with
      | "search" => some (.siteSearch id)
      | "user-info" => some (.accountInfo id)
      | "download-link" => some (.downloadLink id)
      | _ => none
  | _ => none

/-- The endpoint of a path. -/
def ofPath? (path : String) : Option Endpoint :=
  let path := String.ofList (path.toList.takeWhile fun c => c != '?' && c != '#')
  match Text.splitOn "/" path with
  | "" :: "api" :: "v1" :: parts => ofParts? parts
  | _ => none

/-- The endpoint with identifiers as they are meant, if their escapes are well
formed. -/
def plain? : Endpoint → Option Endpoint
  | .site id => (Url.Percent.decodeComponent? id).map .site
  | .siteSearch id => (Url.Percent.decodeComponent? id).map .siteSearch
  | .accountInfo id => (Url.Percent.decodeComponent? id).map .accountInfo
  | .downloadLink id => (Url.Percent.decodeComponent? id).map .downloadLink
  | e => some e

end Endpoint

namespace MediaType

/-- A character of the names in a media type. -/
def isTokenChar (c : Char) : Bool := c.isAlphanum || "!#$%&'*+-.^_`|~".toList.contains c

def isToken (s : String) : Bool := !s.isEmpty && s.toList.all isTokenChar

/-- A parameter: a name and a value, which may stand in quotes. -/
def isParameter (s : String) : Bool :=
  match Text.cut ['='] (s.toList.dropWhile (· == ' ')) with
  | some (name, value) =>
    isToken (String.ofList name) &&
      (isToken (String.ofList value) ||
        (value.head? == some '"' && value.length > 1 && value.getLast? == some '"'))
  | none => s.toList.all (· == ' ')

/-- The parts of a subtype around its last plus. -/
def suffixed (subtype : String) : String × Option String :=
  match (Text.splitOn "+" subtype).reverse with
  | [] => (subtype, none)
  | [_] => (subtype, none)
  | suffix :: stem => ("+".intercalate stem.reverse, some suffix)

/-- The media type is JSON or based on it. -/
def isJson (s : String) : Bool :=
  match Text.splitOn ";" (Text.asciiLower s) with
  | [] => false
  | essence :: parameters =>
    parameters.all isParameter &&
      match Text.splitOn "/" essence with
      | ["application", subtype] =>
        let (stem, suffix) := suffixed subtype
        isToken subtype && (stem == "json" || suffix == some "json")
      | _ => false

end MediaType

/-- The greatest number of bytes in a body. -/
def bodyLimit : Nat := 0x200000

/-- The value in the body of a call, or the status of the refusal. -/
def Call.value (c : Call) : Except Nat Json :=
  if !c.contentType.any MediaType.isJson then .error 415
  else if bodyLimit < c.body.utf8ByteSize then .error 413
  else match Json.parseEntries c.body with
    | some v => .ok v
    | none => .error 400

end SiteScrape.Service
