import SiteScrape.Json.Decode
import SiteScrape.Json.Writer
import SiteScrape.Text.Find
import SiteScrape.Url.Query

/-!
# Requests

A request is put together as a JSON value and read into its parts just before
it is sent. Its address is joined to a base address, and its parameters are
written behind the query that the address has already.
-/

namespace SiteScrape

/-- Why an exchange failed. -/
inductive TransportError where
  | timeout
  | connection (detail : String)
  /-- The request has no usable address. -/
  | invalidUrl
  | http (detail : String)
  deriving DecidableEq, Repr

/-- The wording of an error; of an unusable address only how it begins. -/
def TransportError.message : TransportError → String
  | .timeout => "Request timed out"
  | .connection detail => "Connection failed: " ++ detail
  | .invalidUrl => "Invalid URL"
  | .http detail => "HTTP error: " ++ detail

inductive Method where
  | get
  | post
  deriving DecidableEq, Repr

/-- How the body of an answer is read. -/
inductive ResponseKind where
  | document
  | json
  | text
  deriving DecidableEq, Repr

/-- One request. -/
structure Request where
  url : String := "/"
  method : Method := .get
  params : Fields := []
  data : Json := .null
  headers : Assoc String := []
  responseKind : ResponseKind := .document
  baseUrl : Option String := none
  /-- In milliseconds. -/
  timeout : Option UInt64 := none

namespace Request

open Decode

def decodeMethod : Decoder Method :=
  oneOf [("get", .get), ("GET", .get), ("post", .post), ("POST", .post)]

def decodeKind : Decoder ResponseKind :=
  oneOf [("document", .document), ("json", .json), ("text", .text)]

def decode : Decoder Request := fun v => do
  let e ← record ["url", "method", "params", "data", "headers", "responseType", "baseURL",
    "timeout"] v
  some {
    url := ← withDefault e "url" string "/"
    method := ← withDefault e "method" decodeMethod .get
    params := ← withDefault e "params" fields []
    data := ← withDefault e "data" any .null
    headers := ← withDefault e "headers" (sortedMap string) []
    responseKind := ← withDefault e "responseType" decodeKind .document
    baseUrl := ← Decode.optional e "baseURL" string
    timeout := ← Decode.optional e "timeout" uint64 }

def methodName : Method → String
  | .get => "get"
  | .post => "post"

def kindName : ResponseKind → String
  | .document => "document"
  | .json => "json"
  | .text => "text"

def encode (r : Request) : Json :=
  .obj ([("url", .str r.url), ("method", .str (methodName r.method)), ("params", .obj r.params)] ++
    (if r.data.isNull then [] else [("data", r.data)]) ++
    [("headers", .obj (r.headers.mapValues .str)),
      ("responseType", .str (kindName r.responseKind))] ++
    Json.optional "baseURL" (r.baseUrl.map .str) ++
    Json.optional "timeout" (r.timeout.map .ofUInt64))

/-- A request read off a value; one without the form of a request has no
usable address. -/
def ofJson (v : Json) : Except TransportError Request :=
  match decode v with
  | some r => .ok r
  | none => .error .invalidUrl

/-- The pairs of one parameter: none for null, one for each item of an array. -/
def pairsOf (key : String) (v : Json) : List (String × String) :=
  match v with
  | .null => []
  | .arr items => (items.filter fun v => !v.isNull).map fun v => (key, v.asText)
  | v => [(key, v.asText)]

/-- The pairs of all parameters in order. -/
def queryPairs (params : Fields) : List (String × String) :=
  params.flatMap fun (key, v) => pairsOf key v

/-- The address without parameters. -/
def target (r : Request) : Except TransportError Url :=
  match Url.parse r.url with
  | .ok u => .ok u
  | .error .relativeWithoutBase =>
    match r.baseUrl.bind Url.parse? with
    | some base =>
      match Url.join base r.url with
      | .ok u => .ok u
      | .error _ => .error .invalidUrl
    | none => .error .invalidUrl
  | .error _ => .error .invalidUrl

/-- The address with the parameters in its query. -/
def fullUrl (r : Request) : Except TransportError Url :=
  r.target.map fun u => u.withPairs (queryPairs r.params)

/-- A header by its name in any case. -/
def header? (r : Request) (name : String) : Option String :=
  (r.headers.find? fun (key, _) => Text.sameIgnoringAsciiCase key name).map (·.2)

end Request

end SiteScrape
