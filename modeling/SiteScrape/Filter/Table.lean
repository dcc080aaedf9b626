import SiteScrape.Filter.Time
import SiteScrape.Json.Decode

/-!
# Filter pipelines

A pipeline is a list of named calls that a value runs through from left to
right. Names are looked up in a table: registered filters first, then the
built-in ones; a name that is not known leaves the value as it is.
-/

namespace SiteScrape

/-- A call of a named filter. -/
structure Filter where
  name : String
  args : List Json

namespace Filter

/-- Read off a bare name, or an object with a name and arguments. -/
def decode : Decoder Filter
  | .str name => some ⟨name, []⟩
  | .obj entries => do
    let entries ← Decode.record ["name", "args"] (.obj entries)
    some ⟨← Decode.required entries "name" Decode.string,
      ← Decode.withDefault entries "args" (Decode.list Decode.any) []⟩
  | _ => none

/-- Written as a bare name when there are no arguments. -/
def encode (f : Filter) : Json :=
  if f.args.isEmpty then .str f.name
  else .obj [("name", .str f.name), ("args", .arr f.args)]

/-- What a filter does to a value, given its arguments. -/
abbrev Action := Json → List Json → Json

/-- The built-in filters. -/
def builtins (now : Int) : Assoc Action :=
  [ ("parseSize", fun v _ => parseSize v),
    ("parseNumber", fun v _ => parseNumber v),
    ("parseTTL", fun v _ => parseAge now v),
    ("parseTime", parseTime 0),
    ("querystring", queryParameter),
    ("append", append),
    ("prepend", prepend),
    ("replace", replace),
    ("urlEncode", fun v _ => urlEncode v),
    ("urlDecode", fun v _ => urlDecode v),
    ("split", split),
    ("trim", trim),
    ("regex", capture),
    ("toLowerCase", fun v _ => toLowerCase v),
    ("toUpperCase", fun v _ => toUpperCase v) ]

/-- Filters registered on top of the built-in ones. -/
abbrev Table := Assoc Action

namespace Table

/-- The filter of a name at a moment. -/
def find? (t : Table) (now : Int) (name : String) : Option Action :=
  (t.get? name).or ((builtins now).get? name)

/-- Whether a name has a filter. -/
def knows (t : Table) (name : String) : Bool := (t.find? 0 name).isSome

/-- One call of a pipeline. -/
def call (t : Table) (now : Int) (v : Json) (f : Filter) : Json :=
  match t.find? now f.name with
  | some action => action v f.args
  | none => v

/-- The value behind a pipeline. -/
def apply (t : Table) (now : Int) (v : Json) (pipeline : List Filter) : Json :=
  pipeline.foldl (t.call now) v

end Table

end Filter

end SiteScrape
