import SiteScrape.Proofs.HiddenInputs
import SiteScrape.Service.Answer

/-!
# What the service shows without asking a site

The endpoints that only show things answer from the hidden deployment
(`Deployment.hidden`), in which all inputs have their names and no values. Since
hidden configurations and definitions are deployed as the hidden deployment, two
deployments that differ in the values of inputs alone answer all such calls
alike.
-/

namespace SiteScrape

open Layers

/-! ### Hidden layers -/

namespace Json

variable {v : Json} {key : String}

theorem field?_hideInputs (v : Json) (h : key ≠ "userInput") :
    v.hideInputs.field? key = v.field? key := by
  cases v with
  | obj m => exact Definition.get?_hideInputs m h
  | null | bool | num | str | arr => rfl

theorem hideInputs_of_field?_eq_none (h : v.field? "userInput" = none) : v.hideInputs = v := by
  cases v with
  | obj m => exact congrArg Json.obj (Assoc.modify_of_get?_eq_none h)
  | null | bool | num | str | arr => rfl

end Json

namespace Definition

variable {schema site user : Json} {offset : Option String} {m : Metadata}

theorem entriesOf_hideInputs (hschema : schema.isObject = true)
    (hnone : schema.field? "userInput" = none) (hsite : site.isObject = true)
    (huser : user.isObject = true) (offset : Option String) :
    entriesOf schema site.hideInputs (some user.hideInputs) offset =
      (entriesOf schema site (some user) offset).hideInputs := by
  have hmerge : merge schema [site.hideInputs, user.hideInputs] =
      (merge schema [site, user]).hideInputs := by
    rw [merge_cons, merge_cons, merge_nil, merge_cons, merge_cons, merge_nil,
      hideInputs_mergeValue (isObject_mergeValue hschema hsite) huser,
      hideInputs_mergeValue hschema hsite, Json.hideInputs_of_field?_eq_none hnone]
  have hfields (v : Json) :
      v.hideInputs.asObject?.getD [] = Fields.hideInputs (v.asObject?.getD []) := by
    cases v <;> rfl
  unfold entriesOf
  rw [Option.toList_some, Option.toList_some, hmerge, hfields, complete_hideInputs]

/-- Hidden layers resolve to the hidden metadata. -/
theorem resolve_hideInputs (hnone : schema.field? "userInput" = none)
    (h : resolve schema site (some user) offset = .ok m) :
    resolve schema site.hideInputs (some user.hideInputs) offset = .ok m.hidden := by
  obtain ⟨hschema, hsite, huser, hid, hdecode⟩ := resolve_eq_ok_iff.mp h
  replace huser : user.isObject = true := huser user rfl
  refine resolve_eq_ok_iff.mpr ⟨hschema, ?_, fun u hu => ?_, ?_, ?_⟩
  · rwa [Json.isObject_hideInputs]
  · obtain rfl := Option.some.inj hu
    rwa [Json.isObject_hideInputs]
  · rwa [entriesOf_hideInputs hschema hnone hsite huser, get?_hideInputs _ (by decide)]
  · rw [entriesOf_hideInputs hschema hnone hsite huser, Metadata.decode_hideInputs, hdecode]
    rfl

end Definition

/-! ### Hidden deployments -/

namespace Site

variable {definition user : Json} {hooks : Hooks} {s : Site}

def hidden (s : Site) : Site := { s with metadata := s.metadata.hidden }

theorem ofMetadata_hidden (m : Metadata) (hooks : Hooks) :
    ofMetadata m.hidden hooks = (ofMetadata m hooks).hidden := by
  have hoffset : offset? m.hidden = offset? m := rfl
  unfold ofMetadata
  rw [hoffset]
  split <;> rfl

theorem ofDefinition_hideInputs (h : ofDefinition definition (some user) hooks = .ok s) :
    ofDefinition definition.hideInputs (some user.hideInputs) hooks = .ok s.hidden := by
  obtain ⟨schema, m, hnamed, hm, rfl⟩ := ofDefinition_eq_ok_iff.mp h
  have hnone := Schema.field?_userInput_defaults (Schema.mem_of_named? hnamed)
  refine ofDefinition_eq_ok_iff.mpr ⟨schema, m.hidden, ?_, ?_, (ofMetadata_hidden m _).symm⟩
  · rwa [Schema.nameIn, Json.field?_hideInputs definition (by decide)]
  · exact Definition.resolve_hideInputs hnone hm

end Site

namespace SiteConfig

/-- A configured site without the values of its inputs. -/
def hidden (c : SiteConfig) : SiteConfig :=
  { c with
    userInput := c.userInput.mapValues fun _ => ""
    overrides := c.overrides.hideInputs }

theorem explicitLayer_hidden (c : SiteConfig) :
    c.hidden.explicitLayer = c.explicitLayer.hideInputs := by
  have hempty : c.hidden.userInput.isEmpty = c.userInput.isEmpty := List.isEmpty_map
  have hvalues : Json.obj (c.hidden.userInput.mapValues .str) =
      Json.blank (.obj (c.userInput.mapValues .str)) := by
    rw [Json.blank_obj]
    simp [hidden, Assoc.mapValues, Assoc.mapEntries, Function.comp_def]
  unfold explicitLayer
  rw [hempty, hvalues]
  have hurl : c.hidden.url = c.url := rfl
  rw [hurl]
  cases c.url <;> cases c.userInput.isEmpty <;> rfl

theorem userLayer_hidden (c : SiteConfig) : c.hidden.userLayer = c.userLayer.hideInputs := by
  have hfree : c.hidden.freeLayer = c.freeLayer.hideInputs := by
    unfold freeLayer
    rw [show c.hidden.overrides = c.overrides.hideInputs from rfl, Json.isObject_hideInputs]
    split <;> rfl
  have hobject : c.freeLayer.isObject = true := by
    unfold freeLayer
    split
    · assumption
    · rfl
  show mergeValue .deep c.hidden.freeLayer c.hidden.explicitLayer =
    (mergeValue .deep c.freeLayer c.explicitLayer).hideInputs
  rw [hfree, explicitLayer_hidden, hideInputs_mergeValue hobject rfl]

end SiteConfig

namespace Config

/-- A configuration without the values of inputs. -/
def hidden (c : Config) : Config := { c with sites := c.sites.map SiteConfig.hidden }

end Config

namespace Registry

variable {r r' : Registry} {c : SiteConfig} {hooks : Hooks} {s : Site}

/-- Definitions without the values of inputs. -/
def hidden (r : Registry) : Registry := ⟨r.definitions.mapValues Json.hideInputs⟩

/-- Hidden definitions make up the hidden registry. -/
theorem insertFrom_hidden {place : String} {definition : Json}
    (h : r.insertFrom place definition = .ok r') :
    r.hidden.insertFrom place definition.hideInputs = .ok r'.hidden := by
  have hid : idOf? definition.hideInputs = idOf? definition := by
    unfold idOf?
    rw [Json.field?_hideInputs definition (by decide)]
  unfold insertFrom at h ⊢
  rw [hid]
  cases hplace : idOf? definition with
  | none => rw [hplace] at h; cases h
  | some id =>
    rw [hplace] at h
    cases h
    exact congrArg (fun m => (.ok ⟨m⟩ : Except RegistryError Registry))
      (Assoc.place_mapEntries (fun _ => Json.hideInputs) r.definitions id definition).symm

theorem find?_hidden (r : Registry) (id : String) :
    r.hidden.find? id = (r.find? id).map Json.hideInputs :=
  Assoc.get?_mapValues Json.hideInputs r.definitions id

/-- What is hidden is made into a hidden site. -/
theorem buildSite_hidden (h : r.buildSite c hooks = .ok s) :
    r.hidden.buildSite c.hidden hooks = .ok s.hidden := by
  obtain ⟨definition, hfind, hs⟩ := buildSite_eq_ok_iff.mp h
  refine buildSite_eq_ok_iff.mpr ⟨definition.hideInputs, ?_, ?_⟩
  · show r.hidden.find? c.id = _
    rw [find?_hidden, hfind]
    rfl
  · rw [SiteConfig.userLayer_hidden]
    exact Site.ofDefinition_hideInputs hs

theorem buildSites_hidden {configured : List SiteConfig} {sites : List Site}
    (h : r.buildSites configured = .ok sites) :
    r.hidden.buildSites (configured.map SiteConfig.hidden) = .ok (sites.map Site.hidden) := by
  rw [buildSites_eq_ok_iff] at h ⊢
  have hactive : (configured.map SiteConfig.hidden).filter (·.enabled) =
      (configured.filter (·.enabled)).map SiteConfig.hidden := List.filter_map
  rw [hactive, List.forall₂_map_left_iff, List.forall₂_map_right_iff]
  exact h.imp fun c s => buildSite_hidden

end Registry

namespace Deployment

/-- A deployment without the values of inputs. -/
def hidden (d : Deployment) : Deployment := ⟨d.config.hidden, d.sites.mapValues Site.hidden⟩

theorem ofSites_hidden (config : Config) (sites : List Site) :
    (ofSites config sites).hidden = ofSites config.hidden (sites.map Site.hidden) := by
  unfold hidden ofSites
  congr 1
  rw [Assoc.mapValues_eq, Assoc.sorted_mapEntries]
  congr 1
  rw [Assoc.mapEntries, List.map_map, List.map_map]
  rfl

theorem site?_hidden (d : Deployment) (id : String) :
    d.hidden.site? id = (d.site? id).map Site.hidden :=
  Assoc.get?_mapValues Site.hidden d.sites id

/-- Deployments of what differs in the values of inputs alone differ in nothing else. -/
theorem hidden_eq_of_buildSites {config config' : Config} {r r' : Registry} {sites sites' : List Site}
    (hconfig : config.hidden = config'.hidden) (hr : r.hidden = r'.hidden)
    (hsites : r.buildSites config.sites = .ok sites)
    (hsites' : r'.buildSites config'.sites = .ok sites') :
    (ofSites config sites).hidden = (ofSites config' sites').hidden := by
  have hlist : config.sites.map SiteConfig.hidden = config'.sites.map SiteConfig.hidden :=
    congrArg Config.sites hconfig
  have hbuilt := Registry.buildSites_hidden hsites
  rw [hlist, hr, Registry.buildSites_hidden hsites', Except.ok.injEq] at hbuilt
  rw [ofSites_hidden, ofSites_hidden, hconfig, hbuilt]

end Deployment

/-! ### Answers -/

namespace Site

theorem details_hidden (s : Site) : s.hidden.details = s.details := by
  have hnames : s.hidden.metadata.userInput.keys = s.metadata.userInput.keys :=
    Assoc.keys_mapValues (fun _ => "") s.metadata.userInput
  unfold details
  dsimp only
  rw [hnames]
  rfl

end Site

namespace Config

/-- The open form shows the names of inputs only. -/
theorem open_hidden (c : Config) : c.hidden.open_ = c.open_ := by
  have hsite (s : SiteConfig) : s.hidden.open_ = s.open_ := by
    have hnames : s.hidden.userInput.keys = s.userInput.keys :=
      Assoc.keys_mapValues (fun _ => "") s.userInput
    have hnull : s.hidden.overrides.isNull = s.overrides.isNull := Json.isNull_hideInputs _
    unfold SiteConfig.open_
    rw [hnames, hnull]
    rfl
  unfold open_
  congr 1
  exact (List.map_map ..).trans (List.map_congr_left fun s _ => hsite s)

end Config

namespace Service

variable {σ τ : Type} {d d' : Deployment} {e : Endpoint}

/-- An endpoint that only shows things answers from the hidden deployment. -/
theorem serve_hidden (here : Setting σ) (here' : Setting τ) (d : Deployment) (c : Call)
    (s : State σ) (s' : State τ) (h : e.isReading = true) :
    (serve here d c s e).1 = (serve here' d.hidden c s' e).1 := by
  cases e with
  | health =>
    have hlength : d.hidden.sites.length = d.sites.length := List.length_map _
    simp only [serve, Deployment.health, hlength]
  | config =>
    have hopen : d.hidden.config.open_ = d.config.open_ := Config.open_hidden d.config
    simp only [serve, hopen]
  | sites =>
    have hlist : d.hidden.siteList = d.siteList := by
      unfold Deployment.siteList Deployment.hidden Assoc.mapValues
      rw [List.map_map]
      rfl
    simp only [serve, hlist]
  | site id =>
    simp only [serve, withSite, Deployment.site?_hidden]
    cases d.site? id with
    | none => rfl
    | some site => simp only [Option.map_some, Site.details_hidden]
  | siteSearch | accountInfo | downloadLink | search => cases h

/-- So two deployments that differ in the values of inputs alone answer alike. -/
theorem serve_eq_of_hidden (here : Setting σ) (here' : Setting τ) (c : Call) (s : State σ)
    (s' : State τ) (hd : d.hidden = d'.hidden) (h : e.isReading = true) :
    (serve here d c s e).1 = (serve here' d' c s' e).1 := by
  rw [serve_hidden here here d c s s h, hd, ← serve_hidden here' here d' c s' s h]

/-- Plain identifiers make no other endpoint of one. -/
theorem isReading_of_plain? {plain : Endpoint} (h : e.plain? = some plain) :
    plain.isReading = e.isReading := by
  cases e with
  | health | config | sites | search => cases h; rfl
  | site | siteSearch | accountInfo | downloadLink =>
    obtain ⟨id, -, rfl⟩ := Option.map_eq_some_iff.mp h
    rfl

/-- The call asks an endpoint that only shows things, or none. -/
def Call.isReading (c : Call) : Bool := (Endpoint.ofPath? c.path).all Endpoint.isReading

theorem respond_eq_of_hidden (here : Setting σ) (here' : Setting τ) {c : Call} (s : State σ)
    (s' : State τ) (hd : d.hidden = d'.hidden) (h : c.isReading = true) :
    (respond here d c s).1 = (respond here' d' c s').1 := by
  unfold Call.isReading at h
  unfold respond
  split
  · rfl
  cases hpath : Endpoint.ofPath? c.path with
  | none => rfl
  | some e =>
    rw [hpath, Option.all_some] at h
    dsimp only
    split
    · rfl
    cases hplain : e.plain? with
    | none => rfl
    | some plain =>
      have hreading : plain.isReading = true := (isReading_of_plain? hplain).trans h
      exact congrArg (·.forMethod c.method) (serve_eq_of_hidden here here' c s s' hd hreading)

/-- The values of inputs do not reach the endpoints that only show things: two
deployments that are both made, of configurations and definitions that differ in
these values alone, answer every call of such an endpoint alike, whatever goes on
outside. -/
theorem respond_eq_of_same_inputs {config config' : Config} {r r' : Registry}
    {sites sites' : List Site} (hconfig : config.hidden = config'.hidden)
    (hr : r.hidden = r'.hidden) (hsites : r.buildSites config.sites = .ok sites)
    (hsites' : r'.buildSites config'.sites = .ok sites') (here : Setting σ) (here' : Setting τ)
    {c : Call} (hc : c.isReading = true) (s : State σ) (s' : State τ) :
    (respond here (.ofSites config sites) c s).1 =
      (respond here' (.ofSites config' sites') c s').1 :=
  respond_eq_of_hidden here here' s s'
    (Deployment.hidden_eq_of_buildSites hconfig hr hsites hsites') hc

/-- A site with a token in its definition. -/
def keyedRegistry (token : String) : Registry :=
  ⟨[("demo", .obj [("id", .str "demo"), ("urls", .ofStrings ["https://demo.example/"]),
    ("userInput", .obj [("token", .str token)])])]⟩

/-- The site with a user in the overrides and a passkey. -/
def keyedConfig (uid passkey : String) : Config where
  sites := [{
    id := "demo"
    userInput := [("passkey", passkey)]
    overrides := .obj [("userInput", .obj [("uid", .str uid)])] }]

theorem respond_eq_of_same_inputs_of_passkeys :
    (keyedConfig "1" "secret").hidden = (keyedConfig "2" "public").hidden ∧
      (keyedRegistry "t").hidden = (keyedRegistry "u").hidden ∧
      (keyedConfig "1" "secret").sites.map (·.userInput) ≠
        (keyedConfig "2" "public").sites.map (·.userInput) ∧
      ∃ sites sites',
        (keyedRegistry "t").buildSites (keyedConfig "1" "secret").sites = .ok sites ∧
        (keyedRegistry "u").buildSites (keyedConfig "2" "public").sites = .ok sites' ∧
        Call.isReading { method := "GET", path := "/api/v1/sites/demo" } = true ∧
        ∀ (σ : Type) (here : Setting σ) (s : State σ),
          (respond here (.ofSites (keyedConfig "1" "secret") sites)
            { method := "GET", path := "/api/v1/sites/demo" } s).1 =
          (respond here (.ofSites (keyedConfig "2" "public") sites')
            { method := "GET", path := "/api/v1/sites/demo" } s).1 := by
  have hconfig : (keyedConfig "1" "secret").hidden = (keyedConfig "2" "public").hidden := rfl
  have hr : (keyedRegistry "t").hidden = (keyedRegistry "u").hidden := rfl
  have hreading : Call.isReading { method := "GET", path := "/api/v1/sites/demo" } = true := by
    decide +kernel
  obtain ⟨sites, hsites⟩ : ∃ sites,
      (keyedRegistry "t").buildSites (keyedConfig "1" "secret").sites = .ok sites := ⟨_, rfl⟩
  obtain ⟨sites', hsites'⟩ : ∃ sites,
      (keyedRegistry "u").buildSites (keyedConfig "2" "public").sites = .ok sites := ⟨_, rfl⟩
  exact ⟨hconfig, hr, by decide, sites, sites', hsites, hsites', hreading, fun σ here s =>
    respond_eq_of_same_inputs hconfig hr hsites hsites' here here hreading s s⟩

end Service

end SiteScrape
