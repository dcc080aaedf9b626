import SiteScrape.Url.Reading

/-!
# Query strings

A query is a list of pairs, joined by `&`, with `=` between the two texts of a
pair. A blank is written as `+`, and every byte except those of letters,
digits and `*-._` is escaped.
-/

namespace SiteScrape.Url

namespace Query

/-- Characters that stand for themselves in a written pair. -/
def isKept (c : Char) : Bool :=
  c.isAlphanum || c = '*' || c = '-' || c = '.' || c = '_'

/-- One text of a pair. -/
def encodeText (s : String) : String :=
  String.ofList (s.toList.flatMap fun c => if c = ' ' then ['+'] else Percent.encodeChar isKept c)

/-- A written pair. -/
def encodePair (pair : String × String) : String :=
  encodeText pair.1 ++ "=" ++ encodeText pair.2

/-- The text that an encoded one stands for. -/
def decodeText (cs : List Char) : String :=
  Text.Utf8.decodeLossy (Percent.decodeBytes (cs.map fun c => if c = '+' then ' ' else c))

/-- The pair that an encoded one stands for; without `=` the second text is empty. -/
def decodePair (cs : List Char) : String × String :=
  match Text.cut ['='] cs with
  | some (key, value) => (decodeText key, decodeText value)
  | none => (decodeText cs, "")

/-- The pairs of a query; nothing between two `&` is no pair. -/
def decode (query : String) : List (String × String) :=
  ((Text.splitBy ['&'] (by simp) query.toList).filter (!·.isEmpty)).map decodePair

/-- A query with further pairs at its end. -/
def append (query : Option String) (pairs : List (String × String)) : Option String :=
  if pairs.isEmpty then query
  else
    let written := pairs.map encodePair
    match query with
    | some q => some ("&".intercalate (if q.isEmpty then written else q :: written))
    | none => some ("&".intercalate written)

end Query

/-- The pairs of the query. -/
def queryPairs (u : Url) : List (String × String) := Query.decode (u.query.getD "")

/-- The URL with further pairs at the end of its query. -/
def withPairs (u : Url) (pairs : List (String × String)) : Url :=
  { u with query := Query.append u.query pairs }

/-- The value of the first query parameter that has one of the names, tried in
order. A relative reference will do. -/
def parameter? (text : String) (names : List String) : Option String := do
  let u ←
    match parse text with
    | .ok u => some u
    | .error _ => ((parse? "http://localhost/").bind fun base => (join base text).toOption)
  names.findSome? fun name => (u.queryPairs.find? (·.1 == name)).map (·.2)

end SiteScrape.Url
