import SiteScrape.Json.Basic

/-!
# Layers of a definition

A definition is put together from layers, each more specific than the one
below. Objects merge entry by entry and arrays are joined with the more
specific layer first; of other values the more specific one counts. Null says
nothing. Some keys go by rules of their own.
-/

namespace SiteScrape.Layers

/-- How the values of two layers at one key come together. -/
inductive Rule where
  /-- Objects merge, arrays are joined, other values are overwritten. -/
  | deep
  /-- Also a lone value counts as a list of one. -/
  | listed
  /-- The more specific value stands alone. -/
  | replace
  deriving DecidableEq, Repr

/-- Keys whose more specific value stands alone. -/
def replaceKeys : List String := ["filters", "switchFilters", "process", "levelRequirements"]

/-- Keys that take a lone value for a list of one. -/
def listKeys : List String := ["selector", "urlPattern", "header"]

/-- The rule of a key. -/
def Rule.ofKey (key : String) : Rule :=
  if replaceKeys.contains key then .replace
  else if listKeys.contains key then .listed
  else .deep

/-- A value as a list: nothing for null, the items of an array, a lone value. -/
def asList : Json → List Json
  | .arr items => items
  | .null => []
  | v => [v]

/-- Two values of which not both are objects. -/
def join (rule : Rule) (lower upper : Json) : Json :=
  match rule, lower, upper with
  | _, .arr lower, .arr upper => .arr (upper ++ lower)
  | .listed, lower, upper => .arr (asList upper ++ asList lower)
  | _, _, upper => upper

mutual

/-- The value `upper` on top of `lower`. -/
def mergeValue (rule : Rule) (lower : Json) : Json → Json
  | .null => lower
  | .obj upper =>
    match rule, lower with
    | .replace, _ => .obj upper
    | _, .obj lower => .obj (mergeFields lower upper)
    | rule, lower => join rule lower (.obj upper)
  | upper =>
    match rule with
    | .replace => upper
    | rule => join rule lower upper

/-- The entries `upper` on top of `lower`; a merged entry moves to the end, and
the last entry takes its place. -/
def mergeFields (lower : Fields) : List (String × Json) → Fields
  | [] => lower
  | (key, v) :: rest =>
    match Assoc.take? lower key with
    | some (below, others) =>
      mergeFields (Assoc.insert others key (mergeValue (.ofKey key) below v)) rest
    | none =>
      match v with
      | .null => mergeFields lower rest
      | v => mergeFields (Assoc.insert lower key v) rest

end

/-- All layers on top of `base`, the least specific first. -/
def merge (base : Json) (layers : List Json) : Json :=
  layers.foldl (mergeValue .deep) base

end SiteScrape.Layers
