import SiteScrape.Assoc
import SiteScrape.Decimal.Double

/-!
# JSON values

Objects keep the order of their entries. A number is a whole number of 64 bits
or a double; a whole number and a double are different values even when they
are numerically equal.
-/

namespace SiteScrape

/-- A whole number from `-2^63` to `2^64 - 1`, or a double. -/
inductive Number where
  | int (n : Int) (lo : -0x8000000000000000 ≤ n) (hi : n < 0x10000000000000000)
  | float (f : Float)
  deriving DecidableEq

namespace Number

/-- `n` as a whole number if it fits, else as the nearest double. -/
def ofInt (n : Int) : Number :=
  if h : -0x8000000000000000 ≤ n ∧ n < 0x10000000000000000 then .int n h.1 h.2
  else .float (Double.ofInt n)

def ofUInt64 (n : UInt64) : Number :=
  .int n.toNat (by omega) (by have := n.toNat_lt; omega)

def ofInt64 (n : Int64) : Number :=
  .int n.toInt (by have := n.le_toInt; omega) (by have := n.toInt_lt; omega)

/-- The double nearest to the number. -/
def toFloat : Number → Float
  | .int n _ _ => Double.ofInt n
  | .float f => f

/-- The number, if it is whole and not negative. -/
def toUInt64? : Number → Option UInt64
  | .int n _ _ => if 0 ≤ n then some (UInt64.ofNat n.toNat) else none
  | .float _ => none

/-- The number, if it is whole and fits a signed 64-bit number. -/
def toInt64? : Number → Option Int64
  | .int n _ _ => if n < 0x8000000000000000 then some (Int64.ofInt n) else none
  | .float _ => none

/-- Numerically equal within one kind. -/
def same : Number → Number → Bool
  | .int a _ _, .int b _ _ => a == b
  | .float a, .float b => a == b
  | _, _ => false

end Number

/-- A JSON value. -/
inductive Json where
  | null
  | bool (b : Bool)
  | num (n : Number)
  | str (s : String)
  | arr (items : List Json)
  | obj (fields : List (String × Json))

instance : Inhabited Json := ⟨.null⟩

/-- The entries of an object. -/
abbrev Fields := Assoc Json

namespace Json

def isNull : Json → Bool
  | .null => true
  | _ => false

def isObject : Json → Bool
  | .obj _ => true
  | _ => false

def asString? : Json → Option String
  | .str s => some s
  | _ => none

def asArray? : Json → Option (List Json)
  | .arr items => some items
  | _ => none

def asObject? : Json → Option Fields
  | .obj fields => some fields
  | _ => none

/-- The entry of an object at `key`. -/
def field? (v : Json) (key : String) : Option Json :=
  v.asObject?.bind (Assoc.get? · key)

/-- The whole number `n`, or the double nearest to it. -/
def ofInt (n : Int) : Json := .num (.ofInt n)

def ofUInt64 (n : UInt64) : Json := .num (.ofUInt64 n)

def ofInt64 (n : Int64) : Json := .num (.ofInt64 n)

/-- JSON has no infinities and no NaN; they are written as null. -/
def ofFloat (f : Float) : Json :=
  if Double.isFinite f then .num (.float f) else .null

/-- An array of texts. -/
def ofStrings (ss : List String) : Json := .arr (ss.map .str)

/-- An entry that is left out when the value is absent. -/
def optional (key : String) (v : Option Json) : Fields :=
  match v with
  | some v => [(key, v)]
  | none => []

/-- The value at `key` of a list of entries. -/
def lookup (fields : List (String × Json)) (key : String) : Option Json :=
  Assoc.get? fields key

mutual

/-- Equal up to the order of object entries. -/
def same : Json → Json → Bool
  | .null, .null => true
  | .bool a, .bool b => a == b
  | .num a, .num b => a.same b
  | .str a, .str b => a == b
  | .arr a, .arr b => sameItems a b
  | .obj a, .obj b => a.length == b.length && sameFields a b
  | _, _ => false

def sameItems : List Json → List Json → Bool
  | [], [] => true
  | a :: as, b :: bs => same a b && sameItems as bs
  | _, _ => false

/-- Every entry of the first list has an equal one in the second. -/
def sameFields : List (String × Json) → List (String × Json) → Bool
  | [], _ => true
  | (k, v) :: rest, other =>
    (match lookup other k with
      | some w => same v w
      | none => false) && sameFields rest other

end

mutual

/-- Every object with each key at its first place and with its last value. -/
def distinct : Json → Json
  | .arr items => .arr (distinctItems items)
  | .obj fields => .obj (Assoc.ofPairs (distinctFields fields))
  | v => v

def distinctItems : List Json → List Json
  | [] => []
  | v :: rest => distinct v :: distinctItems rest

def distinctFields : List (String × Json) → List (String × Json)
  | [] => []
  | (k, v) :: rest => (k, distinct v) :: distinctFields rest

end

mutual

/-- Every object with its entries sorted by key. -/
def sortKeys : Json → Json
  | .arr items => .arr (sortItems items)
  | .obj fields => .obj (Assoc.sorted (sortFields fields))
  | v => v

def sortItems : List Json → List Json
  | [] => []
  | v :: rest => sortKeys v :: sortItems rest

def sortFields : List (String × Json) → List (String × Json)
  | [] => []
  | (k, v) :: rest => (k, sortKeys v) :: sortFields rest

end

end Json

end SiteScrape
