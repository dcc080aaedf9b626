import SiteScrape.Proofs.KeyPaths
import SiteScrape.Proofs.WrittenRecords
import SiteScrape.Schema.Builtin

/-!
# What a site is resolved from

A definition resolves to the metadata that is read off the entries of its
layers together, completed (`Definition.entriesOf`). At all but the completed
keys these are what the three layers have, one over the other; and a site made
from a definition has that metadata, and the hooks of the schema that the
definition names with those of the application on top.
-/

namespace SiteScrape

open Decode Layers

/-! ### Records over each other -/

namespace Layers

variable {base lower upper v : Json} {key : String}

theorem IsRecord.isObject (h : IsRecord v) : v.isObject = true := by
  obtain ⟨fields, rfl, -⟩ := h
  rfl

theorem isRecord_of_keysOnce (hobj : v.isObject = true) (honce : v.KeysOnce) : IsRecord v := by
  obtain ⟨fields, rfl⟩ := isObject_eq_true_iff.mp hobj
  exact ⟨fields, rfl, honce.fields⟩

theorem IsRecord.mergeValue (hl : IsRecord lower) (hu : IsRecord upper) :
    IsRecord (mergeValue .deep lower upper) := by
  obtain ⟨l, rfl, hl⟩ := hl
  obtain ⟨u, rfl, hu⟩ := hu
  exact ⟨_, mergeValue_obj l u, (view_mergeFields hl hu).1⟩

/-- At a key one record over another has what the two have there. -/
theorem field?_mergeValue (hl : IsRecord lower) (hu : IsRecord upper) (key : String) :
    (Layers.mergeValue .deep lower upper).field? key =
      overlay (.ofKey key) (lower.field? key) (upper.field? key) := by
  obtain ⟨l, rfl, hl⟩ := hl
  obtain ⟨u, rfl, hu⟩ := hu
  rw [mergeValue_obj]
  exact (view_mergeFields hl hu).2 key

/-- And so have three of them. -/
theorem field?_merge₂ (hb : IsRecord base) (hl : IsRecord lower) (hu : IsRecord upper)
    (key : String) :
    (merge base [lower, upper]).field? key =
      overlay (.ofKey key) (overlay (.ofKey key) (base.field? key) (lower.field? key))
        (upper.field? key) := by
  rw [merge_cons, merge_cons, merge_nil, field?_mergeValue (hb.mergeValue hl) hu,
    field?_mergeValue hb hl]

end Layers

namespace Definition

variable {schema site : Json} {user : Option Json} {offset : Option String}
  {fields : Fields} {m : Metadata} {key other : String}

/-! ### Completed entries -/

theorem get?_orElse (fields : Fields) (key : String) (v : Json) :
    Assoc.get? (orElse fields key v) other =
      if key = other then (fields.get? other).or (some v) else fields.get? other := by
  unfold orElse Assoc.has
  by_cases hkey : key = other
  · subst hkey
    cases hv : Assoc.get? fields key with
    | none => simp [Assoc.get?_insert]
    | some w => simp [hv]
  · rw [if_neg hkey]
    split
    · rfl
    · rw [Assoc.get?_insert, if_neg hkey]

theorem get?_spliceCategories (fields : Fields) (h : key ≠ "search") :
    Assoc.get? (spliceCategories fields) key = fields.get? key := by
  unfold spliceCategories
  split
  · rw [Assoc.get?_insert, if_neg h.symm]
  · rfl

/-- The keys that completing may write at. -/
def completedKeys : List String :=
  ["urls", "legacyUrls", "isOffline", "allowSearch", "allowQueryUserInfo", "timezoneOffset",
    "search"]

/-- Other keys are left as they are. -/
theorem get?_complete_of_not_mem (offset : Option String) (fields : Fields)
    (h : key ∉ completedKeys) : Assoc.get? (complete offset fields) key = fields.get? key := by
  simp only [completedKeys, List.mem_cons, List.not_mem_nil, or_false, not_or] at h
  obtain ⟨hurls, hlegacy, hoffline, hsearch, haccount, htime, hblock⟩ := h
  unfold complete
  rw [get?_spliceCategories _ hblock]
  cases offset <;>
    simp [get?_orElse, Assoc.get?_modify, Ne.symm hurls, Ne.symm hlegacy, Ne.symm hoffline,
      Ne.symm hsearch, Ne.symm haccount, Ne.symm htime]

theorem get?_urls_complete (offset : Option String) (fields : Fields) :
    Assoc.get? (complete offset fields) "urls" = (fields.get? "urls").map plainUrls := by
  unfold complete
  rw [get?_spliceCategories _ (by decide)]
  cases offset <;> simp [get?_orElse, Assoc.get?_modify]

/-! ### Resolving -/

theorem get?_getD_asObject? (v : Json) (key : String) :
    Assoc.get? (v.asObject?.getD []) key = v.field? key := by
  cases v <;> rfl

/-- The entries of all layers together, completed. -/
def entriesOf (schema site : Json) (user : Option Json) (offset : Option String) : Fields :=
  complete offset ((Layers.merge schema (site :: user.toList)).asObject?.getD [])

/-- The last step of resolving: the completed entries have an identifier and
are read as metadata. -/
theorem finish_eq_ok_iff :
    (if (((Assoc.get? fields "id").bind Json.asString?).getD "").isEmpty then .error .missingId else
      match Metadata.decode (.obj fields) with
      | some m => .ok m
      | none => .error .malformed : Except DefinitionError Metadata) = .ok m ↔
    (((Assoc.get? fields "id").bind Json.asString?).getD "").isEmpty = false ∧
      Metadata.decode (.obj fields) = some m := by
  split
  · next h => simp [h]
  · next h =>
    simp only [h, true_and]
    cases Metadata.decode (.obj fields) <;> simp

/-- Just what it takes to resolve a definition. -/
theorem resolve_eq_ok_iff :
    resolve schema site user offset = .ok m ↔
      schema.isObject = true ∧ site.isObject = true ∧ (∀ u ∈ user, u.isObject = true) ∧
      (((Assoc.get? (entriesOf schema site user offset) "id").bind Json.asString?).getD
        "").isEmpty = false ∧
      Metadata.decode (.obj (entriesOf schema site user offset)) = some m := by
  rw [← finish_eq_ok_iff]
  unfold resolve checkLayer
  cases hschema : schema.isObject with
  | false => simp [bind, Except.bind]
  | true =>
  cases hsite : site.isObject with
  | false => simp [bind, Except.bind]
  | true =>
  cases user with
  | none => simp [bind, Except.bind, entriesOf]; rfl
  | some u =>
    cases hu : u.isObject with
    | false => simp [bind, Except.bind, hu]
    | true => simp [bind, Except.bind, hu, entriesOf]; rfl

/-- At a key that completing leaves as it is, the entries are those of the layers. -/
theorem get?_entriesOf (hschema : IsRecord schema) (hsite : IsRecord site) {user : Json}
    (huser : IsRecord user) (offset : Option String) (key : String) (h : key ∉ completedKeys) :
    Assoc.get? (entriesOf schema site (some user) offset) key =
      overlay (.ofKey key) (overlay (.ofKey key) (schema.field? key) (site.field? key))
        (user.field? key) := by
  unfold entriesOf
  rw [get?_complete_of_not_mem offset _ h, get?_getD_asObject?]
  exact field?_merge₂ hschema hsite huser key

/-- The addresses are those of the layers in plain form, each once. -/
theorem get?_urls_entriesOf (hschema : IsRecord schema) (hsite : IsRecord site) {user : Json}
    (huser : IsRecord user) (offset : Option String) :
    Assoc.get? (entriesOf schema site (some user) offset) "urls" =
      (overlay .deep (overlay .deep (schema.field? "urls") (site.field? "urls"))
        (user.field? "urls")).map plainUrls := by
  unfold entriesOf
  rw [get?_urls_complete, get?_getD_asObject?]
  exact congrArg (Option.map plainUrls) (field?_merge₂ hschema hsite huser "urls")

end Definition

/-! ### Metadata -/

namespace Metadata

variable {m : Metadata}

/-- What metadata has from the entries that it was read off. -/
structure ReadOff (e : Fields) (m : Metadata) : Prop where
  id : required e "id" string = some m.id
  urls : withDefault e "urls" (list string) [] = some m.urls
  userInput : withDefault e "userInput" (sortedMap string) [] = some m.userInput
  search : Decode.optional e "search" SearchEntry.decode = some m.search

theorem exists_readOff_of_decode {v : Json} (h : decode v = some m) :
    ∃ names e, record names v = some e ∧ m.ReadOff e := by
  obtain ⟨e, he, h⟩ := Option.bind_eq_some_iff.mp h
  obtain ⟨id, hid, h⟩ := Option.bind_eq_some_iff.mp h
  -- up to the addresses, from there to the inputs, and on to the search block
  iterate 5 obtain ⟨_, -, h⟩ := Option.bind_eq_some_iff.mp h
  obtain ⟨urls, hurls, h⟩ := Option.bind_eq_some_iff.mp h
  iterate 6 obtain ⟨_, -, h⟩ := Option.bind_eq_some_iff.mp h
  obtain ⟨userInput, huserInput, h⟩ := Option.bind_eq_some_iff.mp h
  obtain ⟨_, -, h⟩ := Option.bind_eq_some_iff.mp h
  obtain ⟨search, hsearch, h⟩ := Option.bind_eq_some_iff.mp h
  iterate 5 obtain ⟨_, -, h⟩ := Option.bind_eq_some_iff.mp h
  cases h
  exact ⟨_, e, he, hid, hurls, huserInput, hsearch⟩

theorem readOff_of_decode {fields : Fields} (h : decode (.obj fields) = some m) :
    m.ReadOff fields := by
  obtain ⟨_, e, he, hread⟩ := exists_readOff_of_decode h
  rwa [eq_of_record he] at hread

end Metadata

/-! ### Sites -/

namespace Schema

variable {schema : Schema}

theorem isRecord_defaults (h : schema ∈ builtin) : IsRecord schema.defaults := by
  simp only [builtin, List.mem_cons, List.not_mem_nil, or_false] at h
  rcases h with rfl | rfl | rfl | rfl | rfl | rfl
  all_goals exact ⟨_, rfl, by unfold Assoc.KeysOnce; decide⟩

theorem mem_of_named? {name : String} (h : named? name = some schema) : schema ∈ builtin :=
  List.mem_of_find?_eq_some h

end Schema

namespace Site

variable {definition : Json} {user : Option Json} {hooks : Hooks} {s : Site}

@[simp] theorem metadata_ofMetadata (m : Metadata) (hooks : Hooks) :
    (ofMetadata m hooks).metadata = m := by
  unfold ofMetadata
  split <;> rfl

/-- Just what it takes to make a site of a definition, and what it is made of. -/
theorem ofDefinition_eq_ok_iff :
    ofDefinition definition user hooks = .ok s ↔
      ∃ schema m, Schema.named? (Schema.nameIn definition) = some schema ∧
        Definition.resolve schema.defaults definition user schema.offset = .ok m ∧
        s = ofMetadata m (schema.hooks.extend hooks) := by
  cases hname : Schema.named? (Schema.nameIn definition) with
  | none => simp [ofDefinition, hname]
  | some schema =>
    have hdefinition : ofDefinition definition user hooks =
        (Definition.resolve schema.defaults definition user schema.offset).map fun m =>
          ofMetadata m (schema.hooks.extend hooks) := by
      simp only [ofDefinition, hname]
    rw [hdefinition]
    constructor
    · intro h
      cases hm : Definition.resolve schema.defaults definition user schema.offset with
      | error e => rw [hm] at h; cases h
      | ok m => rw [hm] at h; cases h; exact ⟨schema, m, rfl, hm, rfl⟩
    · rintro ⟨_, m, hschema, hm, rfl⟩
      cases hschema
      rw [hm]
      rfl

end Site

end SiteScrape
