import Mathlib.Data.List.Dedup
import Mathlib.Data.List.Forall2
import SiteScrape.Config.Validation
import SiteScrape.Proofs.ConfiguredSites
import SiteScrape.Proofs.RegistryHistory
import SiteScrape.Service.Deployment

/-!
# Sites of a deployment

The free overrides of a configured site may give it another identifier
(`SiteConfig.finalId`), and a deployment keeps its sites by the identifiers that
they carry. So what is checked of the identifiers that were configured holds of
a deployment just where no override writes another one.
-/

namespace SiteScrape

namespace Assoc

variable {α : Type} {m : Assoc α} {key : String}

/-- Of the pairs of a key, sorting keeps the last. -/
theorem get?_sorted (m : Assoc α) (key : String) : (sorted m).get? key = get? m.reverse key := by
  suffices ∀ acc : Assoc α, (m.foldl (fun acc p => acc.place p.1 p.2) acc).get? key =
      (get? m.reverse key).or (acc.get? key) by
    simpa [sorted] using this []
  induction m with
  | nil => exact fun acc => rfl
  | cons p rest ih =>
    intro acc
    rw [List.foldl_cons, ih, get?_place, List.reverse_cons, get?_append, Option.or_assoc]
    congr 1
    by_cases hk : p.1 = key <;> simp [get?, hk]

/-- Sorting keeps the keys, each once. -/
theorem keys_sorted_perm (m : Assoc α) : (sorted m).keys.Perm m.keys.dedup := by
  refine (List.perm_ext_iff_of_nodup (sorted_sorted m).keysOnce (List.nodup_dedup _)).mpr
    fun key => ?_
  rw [List.mem_dedup, ← not_iff_not, ← get?_eq_none_iff, get?_sorted, get?_eq_none_iff]
  simp [keys]

/-- The first of several values that has a key. -/
theorem get?_map_pair (f : α → String) (l : List α) (key : String) :
    get? (l.map fun a => (f a, a)) key = l.find? fun a => f a == key := by
  induction l with
  | nil => rfl
  | cons a rest ih =>
    by_cases hk : f a = key
    · simp [get?, hk]
    · simpa [get?, hk] using ih

end Assoc

theorem exists_of_forall₂ {α β : Type} {R : α → β → Prop} {as : List α} {bs : List β} {a : α}
    (h : List.Forall₂ R as bs) (ha : a ∈ as) : ∃ b ∈ bs, R a b := by
  induction h with
  | nil => cases ha
  | cons hab _ ih =>
    rcases List.mem_cons.mp ha with rfl | ha
    · exact ⟨_, List.mem_cons_self, hab⟩
    · obtain ⟨b, hb, hab⟩ := ih ha
      exact ⟨b, List.mem_cons_of_mem _ hb, hab⟩

/-! ### Identifiers -/

namespace SiteConfig

/-- The identifier that the configured site comes out with. -/
def finalId (c : SiteConfig) : String := ((c.overrides.field? "id").bind Json.asString?).getD c.id

end SiteConfig

namespace Registry

open Decode Layers

variable {r : Registry} {c : SiteConfig} {hooks : Hooks} {s : Site}

theorem field?_id_of_idOf? {definition : Json} {id : String} (h : idOf? definition = some id) :
    definition.field? "id" = some (.str id) := by
  obtain ⟨hid, -⟩ := Option.filter_eq_some_iff.mp h
  obtain ⟨v, hv, hid⟩ := Option.bind_eq_some_iff.mp hid
  rw [hv, Json.eq_str_of_asString? hid]

/-- A configured site carries the identifier of its overrides, or else its own. -/
theorem id_of_buildSite (hr : r.WellKeyed) (hc : c.WellKeyed) (hs : r.buildSite c hooks = .ok s) :
    s.id = c.finalId := by
  obtain ⟨definition, schema, hfind, hmem, hrecord, hread⟩ := exists_layers_of_buildSite hr hs
  obtain ⟨v, hv, hid⟩ := Option.bind_eq_some_iff.mp hread.id
  obtain rfl := Json.eq_str_of_asString? hid
  rw [Definition.get?_entriesOf (Schema.isRecord_defaults hmem) hrecord hc.isRecord_userLayer
    schema.offset "id" (by decide), hc.field?_userLayer,
    SiteConfig.field?_explicitLayer_of_ne (by decide) (by decide), overlay_none,
    field?_id_of_idOf? (hr _ _ hfind).2] at hv
  have hbelow : overlay (.ofKey "id") (schema.defaults.field? "id") (some (.str c.id)) =
      some (.str c.id) := by
    cases schema.defaults.field? "id" with
    | none => rfl
    | some lower => exact congrArg some (mergeValue_scalar (by decide) rfl lower)
  rw [hbelow] at hv
  have htext : AtMostText (overlay (.ofKey "id") (some (.str c.id)) (c.overrides.field? "id")) := by
    rw [hv]
    exact fun w hw => .inr ⟨_, (Option.some.inj hw).symm⟩
  have htop := (atMostText_of_overlay htext).2
  rw [hv] at htop
  unfold SiteConfig.finalId
  cases hover : (c.overrides.field? "id").bind Json.asString? with
  | none =>
    rw [hover] at htop
    exact Option.some.inj htop
  | some id =>
    rw [hover] at htop
    exact Option.some.inj htop

end Registry

/-! ### Checked configurations -/

namespace Config

/-- In a configuration that was checked, no identifier stands twice. -/
theorem nodup_of_checkSites {seen : List String} {sites : List SiteConfig}
    (h : checkSites seen sites = .ok ()) :
    (sites.map (·.id)).Nodup ∧ ∀ c ∈ sites, c.id ∉ seen := by
  induction sites generalizing seen with
  | nil => exact ⟨.nil, fun c hc => by cases hc⟩
  | cons c rest ih =>
    unfold checkSites at h
    split at h
    · cases h
    split at h
    · cases h
    next hnew =>
    split at h
    · cases h
    obtain ⟨hrest, hseen⟩ := ih h
    refine ⟨List.nodup_cons.mpr ⟨fun hmem => ?_, hrest⟩, fun d hd => ?_⟩
    · obtain ⟨d, hd, hid⟩ := List.mem_map.mp hmem
      exact hseen d hd (hid ▸ List.mem_cons_self)
    · rcases List.mem_cons.mp hd with rfl | hd
      · simpa using hnew
      · exact fun hmem => hseen d hd (List.mem_cons_of_mem _ hmem)

theorem nodup_of_check {c : Config} (h : c.check = .ok ()) : (c.sites.map (·.id)).Nodup := by
  unfold check at h
  split at h
  · cases h
  split at h
  · cases h
  exact (nodup_of_checkSites h).1

/-- The configured sites that are switched on. -/
def active (c : Config) : List SiteConfig := c.sites.filter (·.enabled)

end Config

namespace Registry

variable {r : Registry}

/-- All sites are made when each of them is. -/
theorem buildSites_eq_ok_iff {configured : List SiteConfig} {sites : List Site} :
    r.buildSites configured = .ok sites ↔
      List.Forall₂ (fun c s => r.buildSite c = .ok s) (configured.filter (·.enabled)) sites := by
  rw [buildSites, mapM_eq_ok_iff, ← List.forall₂_eq_eq_eq, List.forall₂_map_left_iff,
    List.forall₂_map_right_iff]

theorem exists_buildSites {configured : List SiteConfig}
    (h : ∀ c ∈ configured.filter (·.enabled), ∃ s, r.buildSite c = .ok s) :
    ∃ sites, r.buildSites configured = .ok sites := by
  simp only [buildSites_eq_ok_iff]
  generalize configured.filter (·.enabled) = active at h
  induction active with
  | nil => exact ⟨[], .nil⟩
  | cons c rest ih =>
    obtain ⟨hc, hrest⟩ := List.forall_mem_cons.mp h
    obtain ⟨s, hs⟩ := hc
    obtain ⟨sites, hsites⟩ := ih hrest
    exact ⟨s :: sites, .cons hs hsites⟩

/-- The sites carry the identifiers of the configured ones, in their order. -/
theorem map_id_of_buildSites (hr : r.WellKeyed) {configured : List SiteConfig}
    (hc : ∀ c ∈ configured, c.WellKeyed) {sites : List Site}
    (h : r.buildSites configured = .ok sites) :
    sites.map Site.id = (configured.filter (·.enabled)).map SiteConfig.finalId := by
  have hkeyed : ∀ c ∈ configured.filter (·.enabled), c.WellKeyed :=
    fun c hmem => hc c (List.mem_of_mem_filter hmem)
  rw [buildSites_eq_ok_iff] at h
  generalize configured.filter (·.enabled) = active at hkeyed h
  induction h with
  | nil => rfl
  | cons hs _ ih =>
    obtain ⟨hkeyed, hrest⟩ := List.forall_mem_cons.mp hkeyed
    rw [List.map_cons, List.map_cons, id_of_buildSite hr hkeyed hs, ih hrest]

end Registry

/-! ### Deployments -/

namespace Deployment

variable {r : Registry} {config : Config} {sites : List Site}

/-- Of the sites with one identifier a deployment keeps the last. -/
theorem site?_ofSites (config : Config) (sites : List Site) (id : String) :
    (ofSites config sites).site? id = (sites.filter fun s => s.id == id).getLast? := by
  unfold site? ofSites
  rw [Assoc.get?_sorted, ← List.map_reverse, Assoc.get?_map_pair, ← List.head?_filter,
    List.filter_reverse, List.head?_reverse]

/-- And it keeps one for each identifier. -/
theorem length_sites_ofSites (config : Config) (sites : List Site) :
    (ofSites config sites).sites.length = (sites.map Site.id).dedup.length := by
  have hkeys := (Assoc.keys_sorted_perm (sites.map fun s => (s.id, s))).length_eq
  simpa [ofSites, Assoc.keys, Function.comp_def] using hkeys

/-- There is one site for each configured one that is switched on, found under the
identifier that was configured and carrying it. -/
structure AsConfigured (r : Registry) (d : Deployment) : Prop where
  one_each : d.sites.length = d.config.active.length
  found : ∀ c ∈ d.config.active,
    ∃ s, r.buildSite c = .ok s ∧ d.site? c.id = some s ∧ s.id = c.id

/-- Where the identifiers that come out are those that were configured, each site
is found. -/
theorem asConfigured_of_finalId (hr : r.WellKeyed) (hkeyed : ∀ c ∈ config.sites, c.WellKeyed)
    (hcheck : config.check = .ok ()) (hsites : r.buildSites config.sites = .ok sites)
    (hid : ∀ c ∈ config.active, c.finalId = c.id) : (ofSites config sites).AsConfigured r := by
  have hids : sites.map Site.id = config.active.map (·.id) :=
    (Registry.map_id_of_buildSites hr hkeyed hsites).trans (List.map_congr_left hid)
  have honce : (sites.map Site.id).Nodup := by
    rw [hids]
    exact (Config.nodup_of_check hcheck).sublist (List.filter_sublist.map _)
  have hkeys : Assoc.KeysOnce (sites.map fun s => (s.id, s)) := by
    unfold Assoc.KeysOnce
    simpa [Assoc.keys, Function.comp_def] using honce
  refine ⟨?_, fun c hc => ?_⟩
  · rw [length_sites_ofSites, honce.dedup, hids, List.length_map]
    rfl
  · obtain ⟨s, hmem, hs⟩ := exists_of_forall₂ (Registry.buildSites_eq_ok_iff.mp hsites) hc
    have hcarries : s.id = c.id :=
      (Registry.id_of_buildSite hr (hkeyed c (List.mem_of_mem_filter hc)) hs).trans (hid c hc)
    refine ⟨s, hs, ?_, hcarries⟩
    unfold site? ofSites
    rw [hkeys.get?_sorted, hkeys.get?_eq_some_iff, ← hcarries]
    exact List.mem_map.mpr ⟨s, hmem, rfl⟩

/-- What a checked configuration is deployed as: the sites come in the order of the
configuration and carry the identifiers that the overrides leave them; of those
with one identifier the last is kept. So every site is there under the identifier
it was configured with just where no override writes another one. -/
theorem ofSites_of_check (hr : r.WellKeyed) (hkeyed : ∀ c ∈ config.sites, c.WellKeyed)
    (hcheck : config.check = .ok ()) (hbuild : ∀ c ∈ config.active, ∃ s, r.buildSite c = .ok s) :
    ∃ sites, r.buildSites config.sites = .ok sites ∧
      sites.map Site.id = config.active.map SiteConfig.finalId ∧
      (∀ id, (ofSites config sites).site? id = (sites.filter fun s => s.id == id).getLast?) ∧
      (ofSites config sites).sites.length =
        (config.active.map SiteConfig.finalId).dedup.length ∧
      ((ofSites config sites).AsConfigured r ↔ ∀ c ∈ config.active, c.finalId = c.id) := by
  obtain ⟨sites, hsites⟩ := Registry.exists_buildSites hbuild
  have hids := Registry.map_id_of_buildSites hr hkeyed hsites
  refine ⟨sites, hsites, hids, site?_ofSites config sites, ?_, fun h c hc => ?_,
    asConfigured_of_finalId hr hkeyed hcheck hsites⟩
  · rw [length_sites_ofSites, hids]
    rfl
  · obtain ⟨s, hs, -, hid⟩ := h.found c hc
    rw [← hid]
    exact (Registry.id_of_buildSite hr (hkeyed c (List.mem_of_mem_filter hc)) hs).symm

def alphaDefinition : Json :=
  .obj [("id", .str "alpha"), ("urls", .ofStrings ["https://alpha.example/"])]

def betaDefinition : Json :=
  .obj [("id", .str "beta"), ("urls", .ofStrings ["https://beta.example/"])]

def bothDefinitions : Registry := ⟨[("alpha", alphaDefinition), ("beta", betaDefinition)]⟩

/-- Both sites, the first with overrides. -/
def bothSites (overrides : Json) : Config where
  sites := [{ id := "alpha", overrides := overrides }, { id := "beta" }]

theorem wellKeyed_bothDefinitions : bothDefinitions.WellKeyed := by
  have halpha : Registry.insert {} alphaDefinition = .ok ⟨[("alpha", alphaDefinition)]⟩ := rfl
  have hbeta : Registry.insert ⟨[("alpha", alphaDefinition)]⟩ betaDefinition =
      .ok bothDefinitions := rfl
  exact (Registry.wellKeyed_empty.insertFrom (Json.keysOnce_of_distinct_eq rfl) halpha).insertFrom
    (Json.keysOnce_of_distinct_eq rfl) hbeta

theorem active_bothSites_built (overrides : Json)
    (h : ∃ s, bothDefinitions.buildSite { id := "alpha", overrides := overrides } = .ok s) :
    ∀ c ∈ (bothSites overrides).active, ∃ s, bothDefinitions.buildSite c = .ok s := by
  intro c hc
  obtain rfl | rfl : c = { id := "alpha", overrides := overrides } ∨ c = { id := "beta" } := by
    simpa [bothSites, Config.active] using hc
  · exact h
  · exact ⟨_, rfl⟩

theorem wellKeyed_bothSites {overrides : Json} (h : overrides.KeysOnce) :
    ∀ c ∈ (bothSites overrides).sites, c.WellKeyed := by
  intro c hc
  obtain rfl | rfl : c = { id := "alpha", overrides := overrides } ∨ c = { id := "beta" } := by
    simpa [bothSites] using hc
  · exact ⟨Assoc.keysOnce_nil, h⟩
  · exact ⟨Assoc.keysOnce_nil, Json.keysOnce_of_not_object rfl⟩

theorem ofSites_of_check_of_named_site :
    let config := bothSites (.obj [("name", .str "First")])
    bothDefinitions.WellKeyed ∧ (∀ c ∈ config.sites, c.WellKeyed) ∧ config.check = .ok () ∧
      (∀ c ∈ config.active, ∃ s, bothDefinitions.buildSite c = .ok s) ∧
      ∃ sites, bothDefinitions.buildSites config.sites = .ok sites ∧
        sites.map Site.id = ["alpha", "beta"] ∧
        (ofSites config sites).AsConfigured bothDefinitions := by
  intro config
  have hkeyed : ∀ c ∈ config.sites, c.WellKeyed :=
    wellKeyed_bothSites (Json.keysOnce_of_distinct_eq rfl)
  have hbuild := active_bothSites_built (.obj [("name", .str "First")]) ⟨_, rfl⟩
  obtain ⟨sites, hsites, hids, -, -, hconfigured⟩ :=
    ofSites_of_check wellKeyed_bothDefinitions hkeyed rfl hbuild
  exact ⟨wellKeyed_bothDefinitions, hkeyed, rfl, hbuild, sites, hsites, hids,
    hconfigured.mpr (by decide)⟩

/-- A site that takes the identifier of another one in its overrides is lost,
although the configuration passes its checks and both sites are made. -/
theorem site_lost_by_override :
    let config := bothSites (.obj [("id", .str "beta")])
    config.check = .ok () ∧ config.checkDefinitions bothDefinitions = .ok () ∧
      (∀ c ∈ config.active, ∃ s, bothDefinitions.buildSite c = .ok s) ∧
      ∃ sites, bothDefinitions.buildSites config.sites = .ok sites ∧
        sites.length = 2 ∧ (ofSites config sites).sites.length = 1 ∧
        (ofSites config sites).site? "alpha" = none ∧
        ¬ (ofSites config sites).AsConfigured bothDefinitions := by
  refine ⟨rfl, rfl, active_bothSites_built _ ⟨_, rfl⟩, _, rfl, rfl, rfl, rfl, fun h => ?_⟩
  exact absurd h.one_each (by decide)

end Deployment

end SiteScrape
