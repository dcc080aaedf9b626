import SiteScrape.Definition.Layers
import SiteScrape.Definition.Reading
import SiteScrape.Text.Find

/-!
# Resolving a definition

The layers of a schema, a site and a user are merged and completed: hidden
addresses are made plain, repeated ones dropped, switches set by what is there,
and shared categories put before those of the search.
-/

namespace SiteScrape

/-- The layers of a definition. -/
inductive Layer where
  | schema
  | site
  | user
  deriving DecidableEq, Repr

def Layer.name : Layer → String
  | .schema => "schema"
  | .site => "site"
  | .user => "user"

/-- Why a definition cannot be used. -/
inductive DefinitionError where
  | invalidLayer (layer : Layer)
  | unknownSchema (name : String)
  | missingId
  /-- The merged definition does not have the form of one. -/
  | malformed
  deriving DecidableEq, Repr

/-- The wording of an error; a malformed definition has none of its own. -/
def DefinitionError.message? : DefinitionError → Option String
  | .invalidLayer layer => some ("Metadata layer '" ++ layer.name ++ "' must be an object")
  | .unknownSchema name => some ("Unknown schema: " ++ name)
  | .missingId => some "Site definition has no id"
  | .malformed => none

namespace Definition

/-- A letter thirteen places on in the alphabet. -/
def rotate (c : Char) : Char :=
  let turn (first : Char) : Char := Char.ofNat ((c.toNat - first.toNat + 13) % 26 + first.toNat)
  if c.isLower then turn 'a' else if c.isUpper then turn 'A' else c

/-- Every letter thirteen places on. -/
def rotateText (s : String) : String := String.ofList (s.toList.map rotate)

/-- The plain form of an address; hidden ones begin with `uggc`. -/
def plainUrl (url : String) : String :=
  if (Text.stripLead "uggc" url).isSome then rotateText url else url

/-- The items without those equal to an earlier one. -/
def withoutRepeats (items : List Json) : List Json :=
  (items.foldl (fun kept v => if kept.any (·.same v) then kept else v :: kept) []).reverse

/-- The addresses of a list in plain form, each once. -/
def plainUrls (v : Json) : Json :=
  match v with
  | .arr items =>
    .arr (withoutRepeats (items.map fun
      | .str s => .str (plainUrl s)
      | v => v))
  | v => v

/-- The entry `key` added with `v` unless it stands. -/
def orElse (fields : Fields) (key : String) (v : Json) : Fields :=
  if Assoc.has fields key then fields else Assoc.insert fields key v

def hasObject (fields : Fields) (key : String) : Bool :=
  ((Assoc.get? fields key).map Json.isObject).getD false

def categoryKey? (v : Json) : Option String := (v.field? "key").bind Json.asString?

/-- The first category of every key, and all without a key. -/
def firstOfEachKey (items : List Json) : List Json :=
  (items.foldl (fun kept v =>
    match categoryKey? v with
    | some key => if kept.any (categoryKey? · == some key) then kept else v :: kept
    | none => v :: kept) []).reverse

/-- The shared categories put before those of the search. -/
def spliceCategories (fields : Fields) : Fields :=
  match Assoc.get? fields "category", Assoc.get? fields "search" with
  | some (.arr (c :: cs)), some (.obj search) =>
    let (own, rest) : Json × Fields := (Assoc.take? search "categories").getD (.null, search)
    let spliced := firstOfEachKey ((c :: cs) ++ (own.asArray?).getD [])
    Assoc.insert fields "search" (.obj (Assoc.insert rest "categories" (.arr spliced)))
  | _, _ => fields

/-- What a merged definition says beyond its words. -/
def complete (defaultOffset : Option String) (fields : Fields) : Fields :=
  let fields := Assoc.modify (Assoc.modify fields "urls" plainUrls) "legacyUrls" plainUrls
  let search := hasObject fields "search"
  let userInfo := hasObject fields "userInfo"
  let fields := orElse fields "isOffline" (.bool false)
  let fields := orElse fields "allowSearch" (.bool search)
  let fields := orElse fields "allowQueryUserInfo" (.bool userInfo)
  let fields := match defaultOffset with
    | some offset => orElse fields "timezoneOffset" (.str offset)
    | none => fields
  spliceCategories fields

/-- A layer that must be an object. -/
def checkLayer (layer : Layer) (v : Json) : Except DefinitionError Unit :=
  if v.isObject then .ok () else .error (.invalidLayer layer)

/-- The definition that the layers of schema, site and user make up. -/
def resolve (schema site : Json) (user : Option Json) (defaultOffset : Option String) :
    Except DefinitionError Metadata := do
  checkLayer .schema schema
  checkLayer .site site
  if let some u := user then checkLayer .user u
  let merged := Layers.merge schema (site :: user.toList)
  let fields := complete defaultOffset (merged.asObject?.getD [])
  let id := ((Assoc.get? fields "id").bind Json.asString?).getD ""
  if id.isEmpty then throw .missingId
  match Metadata.decode (.obj fields) with
  | some m => return m
  | none => throw .malformed

end Definition

end SiteScrape
