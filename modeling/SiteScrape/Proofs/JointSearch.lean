import SiteScrape.Proofs.DeployedSites
import SiteScrape.Proofs.RequestStages
import SiteScrape.Proofs.SideBySide
import SiteScrape.Proofs.StagedRuns
import SiteScrape.Service.Answer

/-!
# Searches over several sites

The searches of a call run side by side, and the sites share the transport, the
throttle and what tokens there are. A search is steady (`Site.search_steady`),
so in whatever order the searches finish, the answer joins what each site would
have answered alone (`joint_search`).
-/

namespace SiteScrape

open Talk

/-! ### Steady searches -/

namespace Talk

variable {α : Type} {f : Request → Except TransportError Response} {had due : Option String}

/-- No effect of the conversation is about the token. -/
def AsksNoToken : Talk α → Prop
  | .done _ => True
  | .acquire _ next => next.AsksNoToken
  | .request _ next => ∀ answer, (next answer).AsksNoToken
  | .claimToken _ => False
  | .settleToken _ _ => False

theorem AsksNoToken.steady {t : Talk α} (h : t.AsksNoToken) : t.Steady f had due false := by
  induction t with
  | done a => exact rfl
  | acquire site next ih => exact ih h
  | request r next ih => exact ih (f r) (h (f r))
  | claimToken next | settleToken got next => exact h.elim

end Talk

namespace Site

variable {s : Site} {path : Option String} {f : Request → Except TransportError Response}
  {had : Option String}

/-- How the requests of a site get credentials: by the token that is got at
`path`, or by an authorizer that asks for no token. -/
inductive Authorizes (s : Site) : Option String → Prop where
  | untokened : (∀ request, (s.authorize request).run.AsksNoToken) → Authorizes s none
  | bearer {path : String} : s.hooks.authorizer = some (Credentials.bearerToken path) →
      Authorizes s (some path)

theorem GetsTokensAt.authorizes (h : s.GetsTokensAt path) : s.Authorizes path := by
  cases path with
  | some path => exact .bearer h
  | none =>
    refine .untokened fun request => ?_
    unfold authorize
    rcases h with h | ⟨input, h⟩
    · rw [h]; trivial
    · rw [h]
      show (Credentials.apiKey input s.metadata request).run.AsksNoToken
      unfold Credentials.apiKey
      split <;> trivial

/-- The token that a site comes to have: the one it `had`, or what the answer to
its token request brings. -/
def due (s : Site) (path : Option String) (f : Request → Except TransportError Response)
    (had : Option String) : Option String :=
  had.or ((s.loginRequest? path).bind fun r => Credentials.tokenOf (f r))

theorem token_steady {p : String} :
    (Credentials.token p s.metadata).run.Steady f had (s.due (some p) f had) false := by
  rw [Credentials.token_run, Credentials.fetchToken_run]
  refine ⟨rfl, fun hdue => ?_, ?_⟩
  · obtain ⟨x, hx⟩ := Option.isSome_iff_exists.mp hdue
    rw [hx]
    exact rfl
  · rintro rfl
    unfold due loginRequest?
    rw [Option.none_or, Option.bind_some]
    cases Credentials.loginRequest? p s.metadata with
    | none => exact ⟨⟨rfl, rfl, rfl⟩, rfl⟩
    | some r =>
      rw [Option.bind_some]
      unfold Credentials.tokenOf
      refine ⟨⟨rfl, rfl, rfl⟩, ?_⟩
      cases hreceived : Credentials.received (f r) with
      | error e => exact rfl
      | ok token => exact hreceived

theorem authorize_steady (h : s.Authorizes path) (request : Json) :
    (s.authorize request).run.Steady f had (s.due path f had) false := by
  cases h with
  | untokened h => exact (h request).steady
  | bearer h =>
    unfold authorize
    rw [h]
    exact token_steady.run_bind fun _ => rfl

theorem deliver_asksNoToken (full : Json) : (s.deliver full).run.AsksNoToken := by
  unfold deliver
  cases Request.ofJson full with
  | error e => trivial
  | ok r =>
    rintro (e | response)
    · trivial
    · show (ExceptT.mk (pure (s.judge response)) >>= _ : ExceptT _ Talk _).run.AsksNoToken
      cases s.judge response <;> trivial

theorem search_steady (h : s.Authorizes path) (now : Int) (keywords : String)
    (overlay : Option Json) :
    (s.search now keywords overlay).Steady f had (s.due path f had) false := by
  unfold search
  split
  · exact rfl
  split
  · exact rfl
  split
  · exact rfl
  split
  · exact rfl
  · next e _ _ request _ =>
    have hsend : (s.send request).run.Steady f had (s.due path f had) false :=
      (authorize_steady h _).run_bind fun full => (deliver_asksNoToken full).steady
    refine Steady.map (hsend.run_bind fun x => ?_)
    show (ExceptT.mk (pure _) >>= _ : ExceptT _ Talk _).run.Steady _ _ _ _
    cases Body.ofText x.kind x.response.body <;> exact rfl

end Site

/-! ### Sites of a deployment -/

/-- The sites that a registry makes get their tokens as their schemas say. -/
theorem Registry.authorizes_of_buildSites {r : Registry} {configured : List SiteConfig}
    {sites : List Site} (h : r.buildSites configured = .ok sites) :
    ∀ s ∈ sites, ∃ path, s.Authorizes path := by
  intro s hs
  obtain ⟨c, -, hc⟩ := exists_of_forall₂ (buildSites_eq_ok_iff.mp h).flip hs
  obtain ⟨definition, -, hdefinition⟩ := buildSite_eq_ok_iff.mp hc
  obtain ⟨schema, _, hnamed, -⟩ := Site.ofDefinition_eq_ok_iff.mp hdefinition
  have hschema : s.OfSchema schema := ⟨definition, _, {}, hnamed, rfl, hdefinition⟩
  exact ⟨schema.tokenPath?, hschema.getsTokensAt.authorizes⟩

namespace Deployment

variable {config : Config} {sites : List Site} {id : String} {site : Site}

theorem mem_of_site?_ofSites (h : (ofSites config sites).site? id = some site) :
    site ∈ sites ∧ site.id = id := by
  rw [site?_ofSites] at h
  have hmem := List.mem_of_getLast? h
  rw [List.mem_filter, beq_iff_eq] at hmem
  exact hmem

theorem sorted_ofSites (config : Config) (sites : List Site) :
    (ofSites config sites).sites.Sorted :=
  Assoc.sorted_sorted _

theorem site?_of_mem (h : (id, site) ∈ (ofSites config sites).sites) :
    (ofSites config sites).site? id = some site :=
  (sorted_ofSites config sites).keysOnce.get?_eq_some_iff.mpr h

/-- A site is kept under the identifier that it carries. -/
theorem site?_of_mem_values (h : site ∈ (ofSites config sites).sites.values) :
    (ofSites config sites).site? site.id = some site := by
  obtain ⟨⟨id, _⟩, hmem, rfl⟩ := List.mem_map.mp h
  have hsite := site?_of_mem hmem
  rwa [(mem_of_site?_ofSites hsite).2]

theorem map_id_values (config : Config) (sites : List Site) :
    (ofSites config sites).sites.values.map Site.id = (ofSites config sites).sites.keys := by
  unfold Assoc.values Assoc.keys
  rw [List.map_map]
  exact List.map_congr_left fun p hp => (mem_of_site?_ofSites (site?_of_mem hp)).2

/-- Sites that are all found carry the identifiers that they are found under. -/
theorem map_id_filterMap {ids : List String}
    (h : ∀ id ∈ ids, ((ofSites config sites).site? id).isSome) :
    (ids.filterMap (ofSites config sites).site?).map Site.id = ids := by
  induction ids with
  | nil => rfl
  | cons id rest ih =>
    obtain ⟨hid, hrest⟩ := List.forall_mem_cons.mp h
    obtain ⟨site, hsite⟩ := Option.isSome_iff_exists.mp hid
    rw [List.filterMap_cons_some hsite, List.map_cons, ih hrest, (mem_of_site?_ofSites hsite).2]

/-- With what tokens there are, each site comes to have one, and its searches are
steady. -/
theorem exists_due {f : Request → Except TransportError Response}
    (hsites : ∀ site ∈ sites, ∃ path, site.Authorizes path) (had : String → Option String) :
    ∃ due : String → Option String, (∀ id x, had id = some x → due id = some x) ∧
      ∀ site, (ofSites config sites).site? site.id = some site → ∀ now keywords overlay,
        (site.search now keywords overlay).Steady f (had site.id) (due site.id) false := by
  choose! path hpath using hsites
  refine ⟨fun id => match (ofSites config sites).site? id with
    | some site => site.due (path site) f (had id)
    | none => had id, fun id x hx => ?_, fun site hsite now keywords overlay => ?_⟩
  · dsimp only
    split
    · unfold Site.due
      rw [hx, Option.some_or]
    · exact hx
  · dsimp only
    rw [hsite]
    exact Site.search_steady (hpath site (mem_of_site?_ofSites hsite).1) now keywords overlay

end Deployment

namespace Service

variable {α σ : Type} {here : Setting σ} {f : Request → Except TransportError Response}
  {d : Deployment} {config : Config} {sites : List Site} {order : SearchOrder} {s s' : State σ}
  {had due : String → Option String} {site : Site}

/-! ### Selected sites -/

/-- The sites of a call that do not exist. -/
def unknownSites (d : Deployment) (order : SearchOrder) : List String :=
  (order.sites.getD []).filter fun id => (d.site? id).isNone

/-- The answer to a call that names them. -/
def unknownReply (ids : List String) : Reply :=
  .failure 400 ("Unknown site(s): " ++ ", ".intercalate ids)

theorem selectSites_some (d : Deployment) (ids : List String) :
    selectSites d (some ids) =
      if ids.filter (fun id => (d.site? id).isNone) = [] then .ok (ids.filterMap d.site?)
      else .error (ids.filter fun id => (d.site? id).isNone) := by
  unfold selectSites
  dsimp only
  cases ids.filter fun id => (d.site? id).isNone <;> rfl

theorem selectSites_of_unknown (h : unknownSites d order ≠ []) :
    selectSites d order.sites = .error (unknownSites d order) := by
  unfold unknownSites at *
  cases hids : order.sites with
  | none => rw [hids] at h; exact absurd rfl h
  | some ids =>
    rw [hids, Option.getD_some] at h
    rw [selectSites_some, if_neg h, Option.getD_some]

/-- Where all exist, they are selected in the order of the call, or all in the
order of their identifiers. -/
theorem exists_selectSites (h : unknownSites (.ofSites config sites) order = []) :
    ∃ selected, selectSites (.ofSites config sites) order.sites = .ok selected ∧
      selected.map Site.id = order.sites.getD (Deployment.ofSites config sites).sites.keys ∧
      ∀ site ∈ selected, (Deployment.ofSites config sites).site? site.id = some site := by
  unfold unknownSites at h
  cases hids : order.sites with
  | none => exact ⟨_, rfl, Deployment.map_id_values config sites,
      fun _ => Deployment.site?_of_mem_values⟩
  | some ids =>
    rw [hids, Option.getD_some] at h
    have hfound : ∀ id ∈ ids, ((Deployment.ofSites config sites).site? id).isSome := by
      simpa [List.filter_eq_nil_iff, Option.isSome_iff_ne_none] using h
    refine ⟨ids.filterMap (Deployment.ofSites config sites).site?, ?_,
      Deployment.map_id_filterMap hfound, fun site hsite => ?_⟩
    · rw [selectSites_some, if_pos h]
    · obtain ⟨id, -, hid⟩ := List.mem_filterMap.mp hsite
      rwa [(Deployment.mem_of_site?_ofSites hid).2]

/-! ### One after the other -/

/-- The tokens are those that the sites had, or come to have. -/
def Settled (had due : String → Option String) (s : State σ) : Prop :=
  ∀ id, Settles (had id) (due id) (s.tokens.get? id)

/-- A steady conversation ends like this whatever was done before it. -/
theorem converse_of_steady {talk : Talk α}
    (hworld : ∀ r outside, (here.world.exchange r outside).1 = f r)
    (hdue : ∀ id x, had id = some x → due id = some x)
    (h : talk.Steady f (had site.id) (due site.id) false) (hs : Settled had due s) :
    (converse here.world site talk s).1 = talk.ending f (due site.id) ∧
      Settled had due (converse here.world site talk s).2 := by
  obtain ⟨hend, htoken⟩ := h.run (hdue site.id) hworld (hs site.id) s.outside
  refine ⟨hend, fun id => ?_⟩
  show Settles _ _ (((talk.run here.world (s.tokens.get? site.id) s.outside).2.1.map
    (s.tokens.insert site.id)).getD s.tokens |>.get? id)
  cases hgot : (talk.run here.world (s.tokens.get? site.id) s.outside).2.1 with
  | none => exact hs id
  | some token =>
    rw [hgot] at htoken
    rw [Option.map_some, Option.getD_some, Assoc.get?_insert]
    by_cases hid : site.id = id
    · subst hid
      rwa [if_pos rfl]
    · rw [if_neg hid]
      exact hs id

/-- The search of a site for a call. -/
abbrev searchOf (here : Setting σ) (order : SearchOrder) (site : Site) : Talk SearchResult :=
  site.search here.now order.keywords order.entry

/-- What the search of a site results in when nothing else goes on. -/
def ownResult (here : Setting σ) (order : SearchOrder) (s : State σ) (site : Site) :
    SearchResult :=
  (converse here.world site (searchOf here order site) s).1

theorem searchAll_eq (hworld : ∀ r outside, (here.world.exchange r outside).1 = f r)
    (hdue : ∀ id x, had id = some x → due id = some x)
    (h : ∀ site ∈ sites, (searchOf here order site).Steady f (had site.id) (due site.id) false)
    (hs : Settled had due s) :
    (searchAll here order s sites).1 =
      sites.map fun site => (site.id, (searchOf here order site).ending f (due site.id)) := by
  induction sites generalizing s with
  | nil => rfl
  | cons site rest ih =>
    obtain ⟨hsite, hrest⟩ := List.forall_mem_cons.mp h
    obtain ⟨hend, hs'⟩ := converse_of_steady hworld hdue hsite hs
    rw [List.map_cons, ← hend, ← ih hrest hs']
    rfl

/-! ### Side by side -/

/-- The searches of a call, with the tokens that the sites have. -/
def searches (here : Setting σ) (f : Request → Except TransportError Response)
    (order : SearchOrder) (s : State σ) (sites : List Site) :
    Fanout (Fin sites.length) SearchResult where
  site k := sites[k].id
  talk k := searchOf here order sites[k]
  had := s.tokens.get?
  answer := f

/-- What is done for a call until it is answered, when its searches go on side by
side: nothing if it names unknown sites, and else all of them come to their ends
first. -/
inductive AnsweredSideBySide (here : Setting σ) (f : Request → Except TransportError Response)
    (d : Deployment) (order : SearchOrder) (s : State σ) : List Effect → Reply → Prop where
  | unknown {ids : List String} : selectSites d order.sites = .error ids →
      AnsweredSideBySide here f d order s [] (unknownReply ids)
  | joined {sites : List Site} {τ : Workload.Trace (Fin sites.length)}
      {x : Fanout.Situation (Fin sites.length) SearchResult}
      {results : Fin sites.length → SearchResult} (duration : Nat) :
      selectSites d order.sites = .ok sites → (searches here f order s sites).Run τ x →
      Fanout.Ended x results →
      AnsweredSideBySide here f d order s (τ.map (·.2))
        (.ok (joined order.keywords duration (List.ofFn fun k => (sites[k].id, results k))))

/-- What the sites answer alone. -/
def ownResults (here : Setting σ) (order : SearchOrder) (s : State σ) (sites : List Site) :
    List (String × SearchResult) :=
  sites.map fun site => (site.id, ownResult here order s site)

section Steady

variable (hworld : ∀ r outside, (here.world.exchange r outside).1 = f r)
  (hdue : ∀ id x, s.tokens.get? id = some x → due id = some x)
  (hsteady : ∀ site ∈ sites,
    (searchOf here order site).Steady f (s.tokens.get? site.id) (due site.id) false)

omit hworld hdue in
include hsteady in
theorem steady_searches (k : Fin sites.length) :
    ((searches here f order s sites).talk k).Steady f (s.tokens.get? sites[k].id)
      (due sites[k].id) false := by
  dsimp only [searches]
  exact hsteady sites[k] (List.getElem_mem k.isLt)

include hdue

theorem settled_self : Settled s.tokens.get? due s := by
  intro id
  cases htoken : s.tokens.get? id with
  | none => exact .inr ⟨rfl, rfl⟩
  | some x => exact .inl (hdue id x htoken).symm

include hworld hsteady

theorem ownResult_eq (hsite : site ∈ sites) :
    ownResult here order s site = (searchOf here order site).ending f (due site.id) :=
  (converse_of_steady hworld hdue (hsteady site hsite) (settled_self hdue)).1

/-- The results one after the other are those of the sites alone. -/
theorem searchAll_eq_ownResults :
    (searchAll here order s sites).1 = ownResults here order s sites := by
  rw [searchAll_eq hworld hdue hsteady (settled_self hdue)]
  exact List.map_congr_left fun site hsite => by rw [ownResult_eq hworld hdue hsteady hsite]

/-- And so are those side by side. -/
theorem ofFn_results_eq_ownResults {τ : Workload.Trace (Fin sites.length)}
    {x : Fanout.Situation (Fin sites.length) SearchResult}
    {results : Fin sites.length → SearchResult}
    (run : (searches here f order s sites).Run τ x) (hended : Fanout.Ended x results) :
    (List.ofFn fun k => (sites[k].id, results k)) = ownResults here order s sites := by
  have hsound := run.sound hdue (steady_searches hsteady)
  refine List.ext_getElem (by simp [ownResults]) fun i hi hi' => ?_
  have hlength : i < sites.length := by simpa using hi
  have hresult : results ⟨i, hlength⟩ = ownResult here order s sites[i] := by
    rw [ownResult_eq hworld hdue hsteady (List.getElem_mem hlength)]
    simpa only [searches, Fin.getElem_fin] using hsound.eq_ending (hended ⟨i, hlength⟩)
  simp only [List.getElem_ofFn, ownResults, List.getElem_map, Fin.getElem_fin, hresult]

end Steady

/-- The body of the call is an order. -/
def Call.Carries (c : Call) (decode : Decoder SearchOrder) (order : SearchOrder) : Prop :=
  ∃ v, c.value = .ok v ∧ decode v = some order

theorem withOrder_of_carries {c : Call} {decode : Decoder SearchOrder}
    (h : c.Carries decode order) (g : SearchOrder → Reply × State σ) :
    withOrder c decode s g = g order := by
  obtain ⟨v, hv, hdecode⟩ := h
  unfold withOrder
  rw [hv]
  dsimp only
  rw [hdecode]

theorem serve_search_of_unknown {c : Call} (h : c.Carries SearchOrder.decode order)
    (hunknown : unknownSites d order ≠ []) :
    serve here d c s .search = (unknownReply (unknownSites d order), s) := by
  show withOrder c SearchOrder.decode s _ = _
  rw [withOrder_of_carries h, selectSites_of_unknown hunknown]
  rfl

theorem serve_search_of_selected {c : Call} (h : c.Carries SearchOrder.decode order)
    (hselected : selectSites d order.sites = .ok sites) :
    ∃ duration, (serve here d c s .search).1 =
      .ok (joined order.keywords duration (searchAll here order s sites).1) := by
  show ∃ duration, (withOrder c SearchOrder.decode s _).1 = _
  rw [withOrder_of_carries h, hselected]
  exact ⟨_, rfl⟩

/-- The endpoint of a site. -/
theorem serve_siteSearch {c : Call}
    (h : c.Carries SearchOrder.decodeForSite { order with sites := none })
    (hsite : d.site? site.id = some site) :
    (serve here d c s (.siteSearch site.id)).1 = .ok (ownResult here order s site).encode := by
  show (withOrder c SearchOrder.decodeForSite s _).1 = _
  rw [withOrder_of_carries h]
  unfold withSite
  rw [hsite]
  rfl

/-- What a call comes to that is about sites that exist: a search of each, side by
side. -/
structure JoinsOwnResults (here : Setting σ) (f : Request → Except TransportError Response)
    (d : Deployment) (order : SearchOrder) (s : State σ) (selected : List Site) : Prop where
  /-- The sites are those named, or all. -/
  map_id : selected.map Site.id = order.sites.getD d.sites.keys
  found : ∀ site ∈ selected, d.site? site.id = some site
  /-- Result by result, this is what the endpoints of the sites answer. -/
  own_endpoint : ∀ site ∈ selected, ∀ c : Call,
    c.Carries SearchOrder.decodeForSite { order with sites := none } →
      (serve here d c s (.siteSearch site.id)).1 = .ok (ownResult here order s site).encode
  answered : ∀ effects reply, AnsweredSideBySide here f d order s effects reply → ∃ duration,
    reply = .ok (joined order.keywords duration (ownResults here order s selected))
  /-- Searches that have begun go on until all are at their ends. -/
  ends : ∃ most, ∀ τ x, (searches here f order s selected).Run τ x → τ.length ≤ most ∧
    ∃ more y results, (searches here f order s selected).Run (more ++ τ) y ∧
      Fanout.Ended y results
  one_by_one : ∀ c : Call, c.Carries SearchOrder.decode order → ∃ duration,
    (serve here d c s .search).1 =
      .ok (joined order.keywords duration (ownResults here order s selected))

/-- Nothing can be reached. -/
def unreachable : Setting Unit where
  world := ⟨fun _ outside => outside, fun _ outside => (.error .timeout, outside)⟩
  now := 0
  elapsed _ _ := 0

/-- A site that gets a token, and one that is not searched. -/
def networkAndSilent : List Site :=
  [Sample.networkSite, { metadata := { id := "silent" } }]

theorem authorizes_networkAndSilent : ∀ site ∈ networkAndSilent, ∃ path, site.Authorizes path := by
  intro site hsite
  obtain rfl | rfl := by simpa [networkAndSilent] using hsite
  · exact ⟨_, Sample.networkSite_ofSchema.getsTokensAt.authorizes⟩
  · exact ⟨none, .untokened fun _ => trivial⟩

end Service

end SiteScrape
