import SiteScrape.Config.Reading
import SiteScrape.Proofs.InputTexts
import SiteScrape.Proofs.PremergedLayers

/-!
# Configured sites

Over the defaults of its schema and its definition a configured site has a
layer of free overrides with the configured address and inputs on top
(`SiteConfig.userLayer`). Where a site comes out, the configured address is the
first, and each input is the text of the most specific layer that gives one.
-/

namespace SiteScrape

open Decode Layers

/-! ### What was read off a configuration -/

theorem Decode.exists_of_mapM {α β : Type} {f : β → Option α} {items : List β} {read : List α}
    {a : α} (h : items.mapM f = some read) (ha : a ∈ read) : ∃ v ∈ items, f v = some a := by
  induction items generalizing read with
  | nil => cases h; cases ha
  | cons v rest ih =>
    rw [List.mapM_cons] at h
    obtain ⟨b, hb, h⟩ := Option.bind_eq_some_iff.mp h
    obtain ⟨more, hmore, h⟩ := Option.bind_eq_some_iff.mp h
    cases h
    rcases List.mem_cons.mp ha with rfl | ha
    · exact ⟨v, List.mem_cons_self, hb⟩
    · obtain ⟨w, hw, hread⟩ := ih hmore ha
      exact ⟨w, List.mem_cons_of_mem _ hw, hread⟩

namespace Toml

open Json

theorem finiteFields_eq (m : Fields) : finiteFields m = m.mapEntries fun _ => finite := by
  induction m with
  | nil => rfl
  | cons p rest ih => simp [finiteFields, ih]

theorem exists_obj_of_finite {v : Json} {fields : Fields} (h : finite v = .obj fields) :
    ∃ m, v = .obj m ∧ finiteFields m = fields := by
  unfold finite at h
  split at h
  · unfold Json.ofFloat at h
    split at h <;> cases h
  · cases h
  · cases h
    exact ⟨_, rfl, rfl⟩
  · next hobj => exact absurd h (hobj fields)

/-- Null for numbers that are not finite brings in no key. -/
theorem keysOnce_finite {v : Json} (h : v.KeysOnce) : (finite v).KeysOnce := by
  intro path
  induction path generalizing v with
  | nil =>
    intro fields hpath
    obtain ⟨m, rfl, rfl⟩ := exists_obj_of_finite (Option.some.inj hpath)
    rw [finiteFields_eq]
    exact h.fields.mapEntries _
  | cons key path ih =>
    intro fields hpath
    obtain ⟨w, hw, hpath⟩ := Option.bind_eq_some_iff.mp hpath
    obtain ⟨fields', heq, hget⟩ := exists_obj_of_field? hw
    obtain ⟨m, rfl, rfl⟩ := exists_obj_of_finite heq
    rw [finiteFields_eq, Assoc.get?_mapEntries] at hget
    obtain ⟨w', hw', rfl⟩ := Option.map_eq_some_iff.mp hget
    exact ih (h.get? hw') fields hpath

end Toml

/-! ### The layers of a configured site -/

namespace SiteConfig

open Json

variable {c : SiteConfig}

/-- No key stands twice in what was configured. -/
structure WellKeyed (c : SiteConfig) : Prop where
  userInput : c.userInput.KeysOnce
  overrides : c.overrides.KeysOnce

/-- What is read off a configuration is well keyed. -/
theorem wellKeyed_of_decode {v : Json} (h : decode v = some c) : c.WellKeyed := by
  obtain ⟨e, -, h⟩ := Option.bind_eq_some_iff.mp h
  iterate 3 obtain ⟨_, -, h⟩ := Option.bind_eq_some_iff.mp h
  obtain ⟨inputs, hinputs, h⟩ := Option.bind_eq_some_iff.mp h
  obtain ⟨_, -, h⟩ := Option.bind_eq_some_iff.mp h
  obtain ⟨overrides, hoverrides, h⟩ := Option.bind_eq_some_iff.mp h
  cases h
  constructor
  · unfold withDefault at hinputs
    split at hinputs
    · exact (sorted_of_sortedMap hinputs).keysOnce
    · cases hinputs
      exact Assoc.keysOnce_nil
  · unfold withDefault at hoverrides
    split at hoverrides
    · cases hoverrides
      exact keysOnce_distinct _
    · cases hoverrides
      exact keysOnce_of_not_object rfl

theorem wellKeyed_of_decode_config {v : Json} {config : Config}
    (h : Config.decode v = some config) : ∀ c ∈ config.sites, c.WellKeyed := by
  obtain ⟨e, -, h⟩ := Option.bind_eq_some_iff.mp h
  iterate 3 obtain ⟨_, -, h⟩ := Option.bind_eq_some_iff.mp h
  obtain ⟨sites, hsites, h⟩ := Option.bind_eq_some_iff.mp h
  cases h
  intro c hc
  unfold withDefault at hsites
  split at hsites
  · next v _ =>
    cases v with
    | arr items =>
      obtain ⟨w, -, hw⟩ := exists_of_mapM hsites hc
      exact wellKeyed_of_decode hw
    | null | bool | num | str | obj => cases hsites
  · cases hsites
    cases hc

/-- And so are the sites of a configuration that was read. -/
theorem wellKeyed_of_ofJson {v : Option Json} {config : Config}
    (h : Config.ofJson v = .ok config) : ∀ c ∈ config.sites, c.WellKeyed := by
  unfold Config.ofJson at h
  split at h
  · next read hread =>
    cases h
    intro finite hfinite
    obtain ⟨c, hc, rfl⟩ := List.mem_map.mp hfinite
    obtain ⟨v, -, hv⟩ := Option.bind_eq_some_iff.mp hread
    have hkeyed := wellKeyed_of_decode_config hv c hc
    exact ⟨hkeyed.userInput, Toml.keysOnce_finite hkeyed.overrides⟩
  · cases h

theorem field?_freeLayer (c : SiteConfig) (key : String) :
    c.freeLayer.field? key = c.overrides.field? key := by
  unfold freeLayer
  split
  · rfl
  · next h =>
    cases hv : c.overrides with
    | obj => simp [hv, Json.isObject] at h
    | null | bool | num | str | arr => rfl

theorem WellKeyed.isRecord_freeLayer (h : c.WellKeyed) : IsRecord c.freeLayer := by
  unfold freeLayer
  split
  · next hobj => exact isRecord_of_keysOnce hobj h.overrides
  · exact ⟨[], rfl, Assoc.keysOnce_nil⟩

theorem isRecord_explicitLayer (c : SiteConfig) : IsRecord c.explicitLayer := by
  refine ⟨_, rfl, ?_⟩
  unfold Assoc.KeysOnce
  cases c.url <;> cases c.userInput.isEmpty <;> simp [Assoc.keys]

theorem field?_urls_explicitLayer (c : SiteConfig) :
    c.explicitLayer.field? "urls" = c.url.map fun url => .ofStrings [url] := by
  cases hurl : c.url <;> cases hempty : c.userInput.isEmpty <;>
    simp [explicitLayer, Assoc.get?, hurl, hempty]

theorem field?_userInput_explicitLayer (c : SiteConfig) :
    c.explicitLayer.field? "userInput" =
      if c.userInput.isEmpty then none else some (.obj (c.userInput.mapValues .str)) := by
  cases hurl : c.url <;> cases hempty : c.userInput.isEmpty <;>
    simp [explicitLayer, Assoc.get?, hurl, hempty]

theorem field?_explicitLayer_of_ne {key : String} (hurls : key ≠ "urls")
    (hinput : key ≠ "userInput") : c.explicitLayer.field? key = none := by
  cases hurl : c.url <;> cases hempty : c.userInput.isEmpty <;>
    simp [explicitLayer, Assoc.get?, hurl, hempty, hurls.symm, hinput.symm]

/-- The inputs that were configured are what the layer on top gives. -/
theorem textAt?_explicitLayer (c : SiteConfig) (name : String) :
    textAt? (c.explicitLayer.field? "userInput") name = c.userInput.get? name := by
  rw [field?_userInput_explicitLayer]
  split
  · next hempty => rw [List.isEmpty_iff.mp hempty]; rfl
  · show ((Assoc.mapValues Json.str c.userInput).get? name).bind Json.asString? = _
    rw [Assoc.get?_mapValues]
    cases c.userInput.get? name <;> rfl

theorem WellKeyed.isRecord_userLayer (h : c.WellKeyed) : IsRecord c.userLayer :=
  h.isRecord_freeLayer.mergeValue (isRecord_explicitLayer c)

theorem WellKeyed.field?_userLayer (h : c.WellKeyed) (key : String) :
    c.userLayer.field? key =
      overlay (.ofKey key) (c.overrides.field? key) (c.explicitLayer.field? key) := by
  rw [← field?_freeLayer]
  exact field?_mergeValue h.isRecord_freeLayer (isRecord_explicitLayer c) key

theorem WellKeyed.keysOnce_explicitLayer (h : c.WellKeyed) : ∀ v ∈ c.explicitLayer.field? "userInput",
    v.KeysOnce := by
  intro v hv
  rw [field?_userInput_explicitLayer] at hv
  split at hv
  · cases hv
  · cases hv
    refine keysOnce_obj (h.userInput.mapValues _) fun name w hw => ?_
    · rw [Assoc.get?_mapValues] at hw
      obtain ⟨t, -, rfl⟩ := Option.map_eq_some_iff.mp hw
      exact keysOnce_of_not_object rfl

end SiteConfig

namespace Registry

variable {r r' : Registry} {c : SiteConfig} {hooks : Hooks} {s : Site}

/-- No key stands twice in a definition, and each definition is found under its
own identifier. -/
def WellKeyed (r : Registry) : Prop :=
  ∀ id definition, r.find? id = some definition →
    definition.KeysOnce ∧ idOf? definition = some id

theorem wellKeyed_empty : WellKeyed {} := by
  intro id definition h
  cases h

/-- Adding definitions keeps a registry well keyed. -/
theorem WellKeyed.insertFrom (h : r.WellKeyed) {place : String} {definition : Json}
    (hd : definition.KeysOnce) (hr : r.insertFrom place definition = .ok r') : r'.WellKeyed := by
  unfold Registry.insertFrom at hr
  split at hr
  · next id hid =>
    cases hr
    intro id' definition' hfind
    unfold find? at hfind
    rw [Assoc.get?_place] at hfind
    split at hfind
    · next heq =>
      subst heq
      cases hfind
      exact ⟨hd, hid⟩
    · exact h id' definition' hfind
  · cases hr

theorem buildSite_eq_ok_iff :
    r.buildSite c hooks = .ok s ↔ ∃ definition, r.find? c.id = some definition ∧
      Site.ofDefinition definition (some c.userLayer) hooks = .ok s := by
  unfold buildSite
  constructor
  · intro h
    cases hfind : r.find? c.id with
    | none => rw [hfind] at h; cases h
    | some definition =>
      rw [hfind] at h
      dsimp only at h
      cases hs : Site.ofDefinition definition (some c.userLayer) hooks with
      | error e => rw [hs] at h; cases h
      | ok s' => rw [hs] at h; cases h; exact ⟨definition, rfl, hs⟩
  · rintro ⟨definition, hfind, hs⟩
    rw [hfind]
    dsimp only
    rw [hs]
    rfl

/-- The metadata of a configured site is read off the layers of its schema, its
definition and its own. -/
theorem exists_layers_of_buildSite (hr : r.WellKeyed) (hs : r.buildSite c hooks = .ok s) :
    ∃ definition schema, r.find? c.id = some definition ∧ schema ∈ Schema.builtin ∧
      IsRecord definition ∧ s.metadata.ReadOff
        (Definition.entriesOf schema.defaults definition (some c.userLayer) schema.offset) := by
  obtain ⟨definition, hfind, hs⟩ := buildSite_eq_ok_iff.mp hs
  obtain ⟨schema, m, hnamed, hm, rfl⟩ := Site.ofDefinition_eq_ok_iff.mp hs
  obtain ⟨-, hobject, -, -, hdecode⟩ := Definition.resolve_eq_ok_iff.mp hm
  refine ⟨definition, schema, hfind, Schema.mem_of_named? hnamed,
    isRecord_of_keysOnce hobject (hr _ _ hfind).1, ?_⟩
  rw [Site.metadata_ofMetadata]
  exact Metadata.readOff_of_decode hdecode

end Registry

/-! ### The address -/

namespace Definition

variable {v : Json}

/-- The first item stands. -/
theorem exists_withoutRepeats_cons (v : Json) (items : List Json) :
    ∃ rest, withoutRepeats (v :: items) = v :: rest := by
  suffices ∀ kept : List Json, ∃ more, items.foldl
      (fun kept w => if kept.any (·.same w) then kept else w :: kept) kept = more ++ kept by
    obtain ⟨more, hmore⟩ := this [v]
    refine ⟨more.reverse, ?_⟩
    unfold withoutRepeats
    rw [List.foldl_cons, if_neg (by simp), hmore]
    simp
  induction items with
  | nil => exact fun kept => ⟨[], rfl⟩
  | cons w rest ih =>
    intro kept
    rw [List.foldl_cons]
    split
    · exact ih kept
    · obtain ⟨more, hmore⟩ := ih (w :: kept)
      exact ⟨more ++ [w], by rw [hmore, List.append_assoc]; rfl⟩

theorem exists_plainUrls_arr (url : String) (rest : List Json) :
    ∃ items, plainUrls (.arr (.str url :: rest)) = .arr (.str (plainUrl url) :: items) := by
  obtain ⟨items, hitems⟩ := exists_withoutRepeats_cons (.str (plainUrl url)) _
  exact ⟨items, congrArg Json.arr hitems⟩

end Definition

namespace Layers

/-- A list on top comes first. -/
theorem exists_overlay_arr (a : Option Json) (v : Json) (items : List Json) :
    ∃ rest, overlay .deep a (some (.arr (v :: items))) = some (.arr (v :: rest)) := by
  cases a with
  | none => exact ⟨items, overlay_none_left rfl⟩
  | some lower =>
    rw [overlay_some, mergeValue_eq_join (by decide) rfl (.inr rfl), join_of_ne_listed (by decide)]
    cases lower with
    | arr l => exact ⟨items ++ l, rfl⟩
    | null | bool | num | str | obj => exact ⟨items, rfl⟩

end Layers

namespace Metadata

variable {e : Fields} {m : Metadata}

/-- The address is the first that was read. -/
theorem ReadOff.baseUrl?_eq (h : m.ReadOff e) {url : String} {rest : List Json}
    (hurls : e.get? "urls" = some (.arr (.str url :: rest))) : m.baseUrl? = some url := by
  have hlist := h.urls
  unfold withDefault at hlist
  rw [hurls] at hlist
  replace hlist : (Json.str url :: rest).mapM string = some m.urls := hlist
  rw [List.mapM_cons] at hlist
  obtain ⟨_, hurl, hlist⟩ := Option.bind_eq_some_iff.mp hlist
  obtain ⟨_, -, hlist⟩ := Option.bind_eq_some_iff.mp hlist
  cases hurl
  have hhead := Option.some.inj hlist
  rw [baseUrl?, ← hhead]
  rfl

end Metadata

/-! ### Configured sites -/

namespace Registry

variable {r : Registry} {c : SiteConfig} {hooks : Hooks} {s : Site}

/-- Whatever the layers below have, a configured address comes first, in plain form. -/
theorem baseUrl?_of_buildSite (hr : r.WellKeyed) (hc : c.WellKeyed)
    (hs : r.buildSite c hooks = .ok s) {url : String} (hurl : c.url = some url) :
    s.metadata.baseUrl? = some (Definition.plainUrl url) := by
  obtain ⟨definition, schema, -, hmem, hrecord, hread⟩ := exists_layers_of_buildSite hr hs
  obtain ⟨rest, hrest⟩ := exists_overlay_arr (c.overrides.field? "urls") (.str url) []
  have huser : c.userLayer.field? "urls" = some (.arr (.str url :: rest)) := by
    rw [hc.field?_userLayer, SiteConfig.field?_urls_explicitLayer, hurl]
    exact hrest
  obtain ⟨rest', hrest'⟩ := exists_overlay_arr
    (overlay .deep (schema.defaults.field? "urls") (definition.field? "urls")) (.str url) rest
  obtain ⟨items, hitems⟩ := Definition.exists_plainUrls_arr url rest'
  have hurls : Assoc.get?
      (Definition.entriesOf schema.defaults definition (some c.userLayer) schema.offset) "urls" =
        some (.arr (.str (Definition.plainUrl url) :: items)) := by
    rw [Definition.get?_urls_entriesOf (Schema.isRecord_defaults hmem) hrecord
      hc.isRecord_userLayer, huser, hrest']
    exact congrArg some hitems
  exact hread.baseUrl?_eq hurls

/-- An input is the text of the most specific layer that gives one. -/
theorem get?_userInput_of_buildSite (hr : r.WellKeyed) (hc : c.WellKeyed)
    (hs : r.buildSite c hooks = .ok s) :
    ∃ definition, r.find? c.id = some definition ∧ ∀ name, s.metadata.userInput.get? name =
      ((c.userInput.get? name).or (c.overrides.inputIn? name)).or (definition.inputIn? name) := by
  obtain ⟨definition, schema, hfind, hmem, hrecord, hread⟩ := exists_layers_of_buildSite hr hs
  refine ⟨definition, hfind, fun name => ?_⟩
  have hview := Definition.get?_entriesOf (Schema.isRecord_defaults hmem) hrecord
    hc.isRecord_userLayer schema.offset "userInput" (by decide)
  rw [Schema.field?_userInput_defaults hmem, hc.field?_userLayer] at hview
  have hlower : ∀ v ∈ overlay .deep none (definition.field? "userInput"), v.KeysOnce :=
    keysOnce_overlay (by simp) fun v hv => (hr _ _ hfind).1.field? hv
  have hoverrides : ∀ v ∈ c.overrides.field? "userInput", v.KeysOnce :=
    fun v hv => hc.overrides.field? hv
  have hupper : ∀ v ∈ overlay .deep (c.overrides.field? "userInput")
      (c.explicitLayer.field? "userInput"), v.KeysOnce :=
    keysOnce_overlay hoverrides hc.keysOnce_explicitLayer
  obtain ⟨htexts, hget⟩ := hread.userInput_eq (hview ▸ keysOnce_overlay hlower hupper)
  rw [hview] at htexts hget
  obtain ⟨htop, htopText⟩ := holdsTexts_of_overlay hlower hupper htexts
  obtain ⟨-, hfreeText⟩ := holdsTexts_of_overlay hoverrides hc.keysOnce_explicitLayer htop
  calc s.metadata.userInput.get? name
      = (textAt? (overlay .deep (c.overrides.field? "userInput")
          (c.explicitLayer.field? "userInput")) name).or
          (textAt? (overlay .deep none (definition.field? "userInput")) name) := by
        rw [hget]
        exact htopText name
    _ = ((textAt? (c.explicitLayer.field? "userInput") name).or (c.overrides.inputIn? name)).or
          (definition.inputIn? name) := by
        rw [hfreeText, textAt?_overlay_none_left]
        rfl
    _ = _ := by rw [SiteConfig.textAt?_explicitLayer]

/-- The configured address and the configured inputs win. An input that was not
configured has the text of the overrides, or else that of the definition. -/
theorem buildSite_configured (hr : r.WellKeyed) (hc : c.WellKeyed)
    (hs : r.buildSite c hooks = .ok s) :
    ∃ definition, r.find? c.id = some definition ∧
      (∀ url, c.url = some url → s.metadata.baseUrl? = some (Definition.plainUrl url)) ∧
      (∀ name value, c.userInput.get? name = some value →
        s.metadata.userInput.get? name = some value) ∧
      ∀ name, c.userInput.get? name = none →
        s.metadata.userInput.get? name =
          (c.overrides.inputIn? name).or (definition.inputIn? name) := by
  obtain ⟨definition, hfind, hinput⟩ := get?_userInput_of_buildSite hr hc hs
  refine ⟨definition, hfind, fun url => baseUrl?_of_buildSite hr hc hs, fun name value hvalue => ?_,
    fun name hnone => ?_⟩
  · rw [hinput, hvalue]
    rfl
  · rw [hinput, hnone, Option.none_or]

/-- A site with keys of its own. -/
def keyedDefinition : Json :=
  .obj [("id", .str "demo"), ("urls", .ofStrings ["https://demo.example/"]),
    ("userInput", .obj [("passkey", .str "none"), ("uid", .str "1")])]

/-- Its mirror under a hidden address, with a passkey, and another user in the overrides. -/
def mirrorConfig : SiteConfig where
  id := "demo"
  url := some "uggcf://zveebe.rknzcyr/"
  userInput := [("passkey", "secret")]
  overrides := .obj [("urls", .ofStrings ["https://ignored.example/"]),
    ("userInput", .obj [("uid", .str "7"), ("passkey", .null)])]

theorem buildSite_configured_of_mirror :
    WellKeyed ⟨[("demo", keyedDefinition)]⟩ ∧ mirrorConfig.WellKeyed ∧
      ∃ s, buildSite ⟨[("demo", keyedDefinition)]⟩ mirrorConfig = .ok s ∧
        s.metadata.baseUrl? = some "https://mirror.example/" ∧
        s.metadata.userInput.get? "passkey" = some "secret" ∧
        s.metadata.userInput.get? "uid" = some "7" := by
  have hinsert : insert {} keyedDefinition = .ok ⟨[("demo", keyedDefinition)]⟩ := rfl
  have hr : WellKeyed ⟨[("demo", keyedDefinition)]⟩ :=
    wellKeyed_empty.insertFrom (Json.keysOnce_of_distinct_eq rfl) hinsert
  have hc : mirrorConfig.WellKeyed :=
    ⟨by unfold Assoc.KeysOnce; decide, Json.keysOnce_of_distinct_eq rfl⟩
  obtain ⟨s, hs⟩ : ∃ s, buildSite ⟨[("demo", keyedDefinition)]⟩ mirrorConfig = .ok s := ⟨_, rfl⟩
  obtain ⟨definition, hfind, hurl, hinput, hbelow⟩ := buildSite_configured hr hc hs
  obtain rfl : keyedDefinition = definition := Option.some.inj hfind
  exact ⟨hr, hc, s, hs, hurl _ rfl, hinput _ _ rfl, hbelow "uid" rfl⟩

end Registry

end SiteScrape
