import SiteScrape.Json.Basic
import SiteScrape.Text.Blank
import SiteScrape.Decimal.Whole

/-!
# Paths into JSON values

A path is a list of keys and indices. Its text separates keys by dots and puts
indices, or keys with unusual characters, into brackets: `params.keywords`,
`results[0].torrents`, `data['search-term']`. `get?`, `set` and `remove?` are
defined on the list, by recursion on it.
-/

namespace SiteScrape

/-- One step of a path. -/
inductive Segment where
  | key (name : String)
  | index (i : Nat)
  deriving DecidableEq, Repr

/-- A way down from the root of a value. -/
abbrev Path := List Segment

namespace Path

/-- A pending key, read in reverse, as a segment. -/
def pending (word : List Char) : Path :=
  if word.isEmpty then [] else [.key (String.ofList word.reverse)]

/-- The content of a quoted text. -/
def unquote? (cs : List Char) : Option (List Char) :=
  match cs with
  | q :: rest =>
    if (q = '\'' || q = '"') && rest.getLast? = some q then some rest.dropLast else none
  | [] => none

/-- What stands between brackets: a quoted key, an index, or a bare key. -/
def bracketed (inner : List Char) : Path :=
  let inner := Text.trimBoth Text.isBlank inner
  match unquote? inner with
  | some key => [.key (String.ofList key)]
  | none =>
    match Decimal.index? (String.ofList inner) with
    | some i => [.index i]
    | none => if inner.isEmpty then [] else [.key (String.ofList inner)]

/-- Where the reading of a path stands; words are collected in reverse. -/
inductive ReadMode where
  | outside (word : List Char)
  | inside (word : List Char)

/-- The segments of a path text. -/
def read (mode : ReadMode) : List Char → Path
  | [] =>
    match mode with
    | .outside word => pending word
    | .inside word => bracketed word.reverse
  | c :: rest =>
    match mode with
    | .outside word =>
      if c = '.' then pending word ++ read (.outside []) rest
      else if c = '[' then pending word ++ read (.inside []) rest
      else read (.outside (c :: word)) rest
    | .inside word =>
      if c = ']' then bracketed word.reverse ++ read (.outside []) rest
      else read (.inside (c :: word)) rest

/-- The path that a text spells. -/
def ofText (s : String) : Path := read (.outside []) s.toList

/-- The value one step below `v`. A key that spells a number also selects an
array item. -/
def step? (v : Json) : Segment → Option Json
  | .key name =>
    match v with
    | .obj fields => Assoc.get? fields name
    | .arr items => (Decimal.index? name).bind fun i => items[i]?
    | _ => none
  | .index i =>
    match v with
    | .arr items => items[i]?
    | _ => none

/-- The value at a path. -/
def get? : Path → Json → Option Json
  | [], v => some v
  | s :: rest, v => (step? v s).bind (get? rest)

/-- A value other than null stands at the path. -/
def has (p : Path) (v : Json) : Bool :=
  match get? p v with
  | some w => !w.isNull
  | none => false

/-- `items`, with nulls at the end so that there is an item at `i`. -/
def grow (items : List Json) (i : Nat) : List Json :=
  items ++ List.replicate (i + 1 - items.length) .null

/-- Writes `w` at a path. Objects and arrays appear where the path needs them,
and anything else in the way is replaced. -/
def set : Path → Json → Json → Json
  | [], _, w => w
  | .key name :: rest, v, w =>
    let fields := v.asObject?.getD []
    .obj (Assoc.insert fields name (set rest ((Assoc.get? fields name).getD .null) w))
  | .index i :: rest, v, w =>
    let items := grow (v.asArray?.getD []) i
    .arr (items.set i (set rest (items[i]?.getD .null) w))

/-- Takes the value at a path out: it, and what remains. Keys select object
entries only. -/
def remove? : Path → Json → Option (Json × Json)
  | [], _ => none
  | [.key name], v => do
    let (w, fields) ← Assoc.take? (← v.asObject?) name
    some (w, .obj fields)
  | [.index i], v => do
    let items ← v.asArray?
    some (← items[i]?, .arr (items.eraseIdx i))
  | .key name :: rest, v => do
    let fields ← v.asObject?
    let (w, below) ← remove? rest (← Assoc.get? fields name)
    some (w, .obj (Assoc.insert fields name below))
  | .index i :: rest, v => do
    let items ← v.asArray?
    let (w, below) ← remove? rest (← items[i]?)
    some (w, .arr (items.set i below))

end Path

namespace Json

/-- The value at the path that a text spells. -/
def at? (v : Json) (path : String) : Option Json := Path.get? (Path.ofText path) v

/-- A value other than null stands at the path that a text spells. -/
def hasAt (v : Json) (path : String) : Bool := Path.has (Path.ofText path) v

/-- Writes `w` at the path that a text spells. -/
def setAt (v : Json) (path : String) (w : Json) : Json := Path.set (Path.ofText path) v w

/-- Takes the value at the path that a text spells out. -/
def removeAt? (v : Json) (path : String) : Option (Json × Json) :=
  Path.remove? (Path.ofText path) v

end Json

end SiteScrape
