import SiteScrape.Json.Basic

/-!
# Typed readings of JSON values

A decoder reads a value of one type off a JSON value or refuses it. A record
is read off an object, or off an array that lists its fields in order; fields
it does not know are ignored, and a known field may not stand twice.
-/

namespace SiteScrape

/-- A typed reading of JSON values. -/
abbrev Decoder (α : Type) := Json → Option α

namespace Decode

variable {α β : Type}

/-- Any value at all. -/
def any : Decoder Json := fun v => some v.distinct

def string : Decoder String := Json.asString?

def bool : Decoder Bool
  | .bool b => some b
  | _ => none

/-- A whole number below `bound`. -/
def natBelow (bound : Nat) : Decoder Nat
  | .num (.int n _ _) => if 0 ≤ n && n < bound then some n.toNat else none
  | _ => none

def uint64 : Decoder UInt64
  | .num n => n.toUInt64?
  | _ => none

def uint32 : Decoder UInt32 := fun v => (natBelow 0x100000000 v).map UInt32.ofNat

def int64 : Decoder Int64
  | .num n => n.toInt64?
  | _ => none

/-- Whole numbers are taken as doubles. -/
def float : Decoder Float
  | .num n => some n.toFloat
  | _ => none

/-- Null is an absent value. -/
def nullable (d : Decoder α) : Decoder (Option α)
  | .null => some none
  | v => (d v).map some

def list (d : Decoder α) : Decoder (List α)
  | .arr items => items.mapM d
  | _ => none

/-- An object with values of one type, in its own order. -/
def fields : Decoder Fields := fun v => v.distinct.asObject?

/-- The values under `d`, keyed and sorted. -/
def sortedPairs (d : Decoder α) (pairs : List (String × Json)) : Option (Assoc α) :=
  (pairs.mapM fun p => (d p.2).map fun w => (p.1, w)).map Assoc.sorted

/-- An object with values of one type, sorted by key. -/
def sortedMap (d : Decoder α) : Decoder (Assoc α) := fun v => v.asObject?.bind (sortedPairs d)

theorem sorted_of_sortedMap {d : Decoder α} {v : Json} {m : Assoc α} (h : sortedMap d v = some m) :
    m.Sorted := by
  obtain ⟨pairs, -, h⟩ := Option.bind_eq_some_iff.mp h
  obtain ⟨read, -, rfl⟩ := Option.map_eq_some_iff.mp h
  exact Assoc.sorted_sorted read

/-- A `sortedMap`, known to be one. -/
def orderedMap (d : Decoder α) : Decoder {m : Assoc α // m.Sorted} := fun v =>
  (sortedMap d v).pmap Subtype.mk fun _ => sorted_of_sortedMap

/-- One of a fixed set of names: as a text, or as the only key of an object
with the value null. -/
def oneOf (names : Assoc α) : Decoder α
  | .str s => names.get? s
  | .obj [(name, .null)] => names.get? name
  | _ => none

/-- A text, or a list of texts, or nothing. -/
def oneOrMany : Decoder (List String)
  | .null => some []
  | .str s => some [s]
  | v => list string v

/-- The entries of a record with the given field names. -/
def record (names : List String) : Decoder Fields
  | .obj entries =>
    if names.all fun name => (entries.filter (·.1 == name)).length ≤ 1 then some entries else none
  | .arr items => if items.length ≤ names.length then some (names.zip items) else none
  | _ => none

/-- The entries of a record that also takes further fields: only an object will do. -/
def openRecord (names : List String) : Decoder Fields
  | .arr _ => none
  | v => record names v

/-- A field that must stand. -/
def required (entries : Fields) (name : String) (d : Decoder α) : Option α :=
  (Assoc.get? entries name).bind d

/-- A field with a value for when it does not stand. -/
def withDefault (entries : Fields) (name : String) (d : Decoder α) (value : α) : Option α :=
  match Assoc.get? entries name with
  | some v => d v
  | none => some value

/-- A field that may be null or not stand. -/
def optional (entries : Fields) (name : String) (d : Decoder α) : Option (Option α) :=
  withDefault entries name (nullable d) none

end Decode

end SiteScrape
