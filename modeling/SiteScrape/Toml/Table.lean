import SiteScrape.Json.Basic

/-!
# Putting TOML tables together

Tables come to be in three ways: by a header of their own, by the header of a
table inside them, and by a dotted key. Which way decides what may be added
later. Entries stay in the order in which they came to be; a table that gets
its own header later moves to the end.
-/

namespace SiteScrape.Toml

/-- How a table came to be. -/
inductive Origin where
  | header
  /-- By the header of a table inside. -/
  | implied
  | dotted
  deriving DecidableEq, Repr

/-- What stands at a key. -/
inductive Item where
  | value (v : Json)
  | table (origin : Origin) (entries : List (String × Item))
  /-- A list of tables, the last one first. -/
  | tables (latest : List (String × Item)) (before : List (List (String × Item)))

/-- The entries of a table. -/
abbrev Entries := List (String × Item)

namespace Entries

def find? (es : Entries) (key : String) : Option Item := Assoc.get? es key

/-- The entries without `key`. -/
def without (es : Entries) (key : String) : Entries := es.filter fun e => e.1 != key

/-- What stands at `key` under another item; a new key goes to the end. -/
def put (es : Entries) (key : String) (item : Item) : Entries := Assoc.insert es key item

/-- Changes the table at the end of a path. Tables that are missing on the way
come to be as `made`; a list of tables stands for its last one. A dotted key
leads only through tables without a header. -/
def within (made : Origin) (change : Origin → Entries → Option Entries) :
    List String → Origin → Entries → Option Entries
  | [], origin, es => change origin es
  | key :: path, _, es =>
    match es.find? key with
    | none => (within made change path made []).map fun inner => es.put key (.table made inner)
    | some (.value _) => none
    | some (.table origin inner) =>
      if made = .dotted && origin = .header then none
      else (within made change path origin inner).map fun inner =>
        es.put key (.table origin inner)
    | some (.tables latest before) =>
      (within made change path .header latest).map fun latest => es.put key (.tables latest before)

/-- Adds a value at a new key. A dotted key may only add to tables made by
dotted keys. -/
def addValue (es : Entries) (path : List String) (key : String) (v : Json) : Option Entries :=
  within .dotted (fun origin inner =>
    if (origin = .dotted) == path.isEmpty || (inner.find? key).isSome then none
    else some (inner ++ [(key, .value v)])) path .header es

/-- A table below a header: what stands there already may only have been
implied so far. -/
def startTable (es : Entries) (key : String) : Option Entries :=
  match es.find? key with
  | none => some []
  | some (.table .implied inner) => some inner
  | some _ => none

/-- Adds a table with a header; `fill` adds its values. -/
def addTable (es : Entries) (path : List String) (key : String)
    (fill : Entries → Option Entries) : Option Entries :=
  within .implied (fun _ inner => do
    let table ← fill (← inner.startTable key)
    some (inner.without key ++ [(key, .table .header table)])) path .header es

/-- Adds a table to a list of tables; `fill` adds its values. -/
def addToTables (es : Entries) (path : List String) (key : String)
    (fill : Entries → Option Entries) : Option Entries :=
  within .implied (fun _ inner => do
    let table ← fill []
    match inner.find? key with
    | none => some (inner ++ [(key, .tables table [])])
    | some (.tables latest before) => some (inner.put key (.tables table (latest :: before)))
    | some _ => none) path .header es

end Entries

mutual

/-- An item as a value. -/
def Item.toJson : Item → Json
  | .value v => v
  | .table _ entries => .obj (entriesToFields entries)
  | .tables latest before => .arr (tablesToList [.obj (entriesToFields latest)] before)

def entriesToFields : List (String × Item) → Fields
  | [] => []
  | (key, item) :: rest => (key, item.toJson) :: entriesToFields rest

/-- Tables in order, `behind` being those that follow. -/
def tablesToList (behind : List Json) : List (List (String × Item)) → List Json
  | [] => behind
  | t :: before => tablesToList (.obj (entriesToFields t) :: behind) before

end

end SiteScrape.Toml
