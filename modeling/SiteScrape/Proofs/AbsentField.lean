import SiteScrape.Proofs.Collecting

/-!
# Fields that pages do not show

A field that no hook reads has the value that was carried over, else the first
one that a page gave (`Walk.value?_eq`). A page that shows the field at none of
its places still gives what the filters make of a blank text. Most filters make
nothing of it; a size or a number read off it is zero, which is something, so
then the field counts as known and later pages are not asked for it.
-/

namespace SiteScrape

open Talk Collected

/-- In this turn the field is read off a page by this description. -/
structure Turn.Reads (plan : AccountPlan) (f : String) (t : Turn) (page : Visit) (F : Field) :
    Prop where
  visited : t.visit = some page
  listed : f ∈ t.step.fields
  described : (plan.fieldsOf t.step).get? f = some F

namespace Site

variable {s : Site} {now : Int} {plan : AccountPlan} {i j : Nat} {c d : Collected}
  {selectors : Assoc Field} {source : Source} {f : String} {t : Turn} {turns more : List Turn}
  {w : Json}

/-- What a page gives for a field that no hook reads, if it is something. -/
def given? (s : Site) (now : Int) (selectors : Assoc Field) (source : Source) (f : String) :
    Option Json :=
  ((selectors.get? f).map fun F =>
    F.resolve s.hooks.resolver now source (accountCoercion f)).filter fun v => !Field.isNothing v

/-- What a turn gives for a field that no hook reads, if it is something. -/
def gained? (s : Site) (now : Int) (plan : AccountPlan) (f : String) (t : Turn) : Option Json :=
  t.visit.bind fun page =>
    if f ∈ t.step.fields then s.given? now (plan.fieldsOf t.step) page.source f else none

/-! ### The first page that gives something -/

theorem value?_collectField (hhook : s.hooks.accountFields.get? f = none) :
    (s.collectField now selectors source c f).value? f =
      (c.value? f).or (s.given? now selectors source f) := by
  have hvalue : (s.accountValue? now selectors source c f).filter (fun v => !Field.isNothing v) =
      s.given? now selectors source f := by
    unfold accountValue?; rw [hhook]; rfl
  unfold collectField
  rw [hvalue]
  cases hc : c.value? f with
  | some v =>
    rw [if_pos (by simp [knows, hc]), hc]
    rfl
  | none =>
    rw [if_neg (by simp [knows, hc]), Option.none_or]
    cases hg : s.given? now selectors source f with
    | none => exact hc
    | some v =>
      have hv : Field.isNothing v = false := by
        simpa using (Option.filter_eq_some_iff.mp hg).2
      show value? (Assoc.insert c f v) f = some v
      rw [value?_insert hv, if_pos rfl]

theorem value?_collectField_of_ne {g : String} (h : g ≠ f) :
    (s.collectField now selectors source c g).value? f = c.value? f := by
  have hgrows : Grows [g] c (s.collectField now selectors source c g) :=
    collectField_grows (List.mem_singleton_self g)
  unfold value?
  rw [hgrows.frame f (by simpa using Ne.symm h)]

theorem value?_collect (hhook : s.hooks.accountFields.get? f = none) (step : AccountStep) :
    (s.collect now selectors source step c).value? f =
      (c.value? f).or (if f ∈ step.fields then s.given? now selectors source f else none) := by
  unfold collect
  induction step.fields generalizing c with
  | nil => simp
  | cons g rest ih =>
    rw [List.foldl_cons, ih]
    by_cases hg : g = f
    · subst hg
      rw [value?_collectField hhook]
      cases c.value? g <;> cases s.given? now selectors source g <;> simp
    · rw [value?_collectField_of_ne hg]
      simp [Ne.symm hg]

theorem Takes.value?_eq (hhook : s.hooks.accountFields.get? f = none)
    (h : s.Takes now plan i c t d) : d.value? f = (c.value? f).or (s.gained? now plan f t) := by
  cases h with
  | pass => simp [gained?]
  | read => exact value?_collect hhook _

/-- A field that no hook reads has the first value that a page gives, unless it
has one from the start. -/
theorem Walk.value?_eq (hhook : s.hooks.accountFields.get? f = none)
    (h : s.Walk now plan i c turns j d) :
    d.value? f = (c.value? f).or (turns.findSome? (s.gained? now plan f)) := by
  induction h with
  | stay => simp
  | turn ht _ ih =>
    rw [ih, ht.value?_eq hhook, Option.or_assoc, List.findSome?_cons]
    cases s.gained? now plan f _ <;> simp

/-! ### Pages that show a field, and pages that do not -/

/-- What becomes of a field that a page does not show. -/
def blank (s : Site) (now : Int) (f : String) (F : Field) : Json :=
  (accountCoercion f).finish (s.hooks.filters.apply now (.str "") F.filters)

/-- The page of the turn shows the field at one of its places, and `w` is what
the filters make of it. -/
def Shows (s : Site) (now : Int) (plan : AccountPlan) (f : String) (t : Turn) (w : Json) : Prop :=
  ∃ page F place v, t.Reads plan f page F ∧
    F.winner? s.hooks.resolver now page.source = some (place, v) ∧
    w = (accountCoercion f).finish (s.hooks.filters.apply now v (F.filtersAt place)) ∧
    Field.isNothing w = false

/-- The page of the turn shows the field at none of its places. -/
def Misses (s : Site) (now : Int) (plan : AccountPlan) (f : String) (t : Turn) (F : Field) : Prop :=
  ∃ page, t.Reads plan f page F ∧ F.winner? s.hooks.resolver now page.source = none

theorem gained?_of_reads {page : Visit} {F : Field} (h : t.Reads plan f page F) :
    s.gained? now plan f t =
      (some (F.resolve s.hooks.resolver now page.source (accountCoercion f))).filter
        fun v => !Field.isNothing v := by
  unfold gained? given?
  rw [h.visited, Option.bind_some, if_pos h.listed, h.described]
  rfl

theorem reads_of_gained? (h : s.gained? now plan f t = some w) :
    ∃ page F, t.Reads plan f page F := by
  obtain ⟨page, hvisit, h⟩ := Option.bind_eq_some_iff.mp h
  split at h
  · next hf =>
    obtain ⟨h, -⟩ := Option.filter_eq_some_iff.mp h
    obtain ⟨F, hF, -⟩ := Option.map_eq_some_iff.mp h
    exact ⟨page, F, hvisit, hf, hF⟩
  · cases h

theorem Shows.gained? (h : s.Shows now plan f t w) : s.gained? now plan f t = some w := by
  obtain ⟨page, F, place, v, hreads, hwin, rfl, hw⟩ := h
  rw [gained?_of_reads hreads]
  unfold Field.resolve
  rw [hwin, Option.filter_some, if_pos (by simpa [Hooks.resolver] using hw)]
  rfl

theorem Misses.gained? {F : Field} (h : s.Misses now plan f t F) (htext : F.text = none) :
    s.gained? now plan f t = (some (s.blank now f F)).filter fun v => !Field.isNothing v := by
  obtain ⟨page, hreads, hwin⟩ := h
  rw [gained?_of_reads hreads]
  unfold Field.resolve Field.fallback
  rw [hwin, htext]
  rfl

/-- What a page gives for a field without a text is shown there, or is what
becomes of a blank text. -/
theorem gained?_cases (htext : ∀ page F, t.Reads plan f page F → F.text = none)
    (h : s.gained? now plan f t = some w) :
    s.Shows now plan f t w ∨
      ∃ F, s.Misses now plan f t F ∧ w = s.blank now f F ∧ Field.isNothing w = false := by
  obtain ⟨page, F, hreads⟩ := reads_of_gained? h
  cases hwin : F.winner? s.hooks.resolver now page.source with
  | none =>
    have hmiss : s.Misses now plan f t F := ⟨page, hreads, hwin⟩
    rw [hmiss.gained? (htext page F hreads)] at h
    obtain ⟨hb, hw⟩ := Option.filter_eq_some_iff.mp h
    cases hb
    exact .inr ⟨F, hmiss, rfl, by simpa using hw⟩
  | some p =>
    rw [gained?_of_reads hreads] at h
    obtain ⟨hr, hw⟩ := Option.filter_eq_some_iff.mp h
    unfold Field.resolve at hr
    rw [hwin] at hr
    exact .inl ⟨page, F, p.1, p.2, hreads, hwin, (Option.some.inj hr).symm, by simpa using hw⟩

/-- A size or a number is something, whatever it was read off. -/
theorem blank_of_number {F : Field} {before : List Filter} {call : Filter}
    (hlast : F.filters = before ++ [call])
    (hname : call.name = "parseSize" ∨ call.name = "parseNumber")
    (hbuiltin : s.hooks.filters.get? call.name = none) :
    Field.isNothing (s.blank now f F) = false := by
  have hnumber : ∀ amount, ∃ n, Json.ofAmount amount = .num n := by
    intro amount
    unfold Json.ofAmount
    split
    · exact ⟨_, rfl⟩
    · split <;> exact ⟨_, rfl⟩
  have hcall : ∀ v, ∃ n, s.hooks.filters.call now v call = .num n := by
    intro v
    unfold Filter.Table.call Filter.Table.find?
    rw [hbuiltin]
    rcases hname with h | h <;> rw [h]
    · show ∃ n, Filter.parseSize v = .num n
      cases v <;> first | exact ⟨_, rfl⟩ | exact hnumber _
    · show ∃ n, Filter.parseNumber v = .num n
      cases v <;> first | exact ⟨_, rfl⟩ | exact hnumber _
  unfold blank Filter.Table.apply
  rw [hlast, List.foldl_append]
  obtain ⟨n, hn⟩ := hcall (before.foldl (s.hooks.filters.call now) (.str ""))
  show Field.isNothing (Coercion.finish _ (s.hooks.filters.call now _ call)) = false
  rw [hn]
  rfl

/-- While no page has shown it, a field is unknown exactly if the filters make
nothing of a blank text. -/
theorem Walk.value?_eq_none_iff (hhook : s.hooks.accountFields.get? f = none)
    (htext : ∀ t ∈ turns, ∀ page F, t.Reads plan f page F → F.text = none)
    (hnew : c.value? f = none) (hw : s.Walk now plan i c turns j d)
    (hunshown : ∀ t ∈ turns, ∀ w, ¬s.Shows now plan f t w) :
    d.value? f = none ↔
      ∀ t ∈ turns, ∀ F, s.Misses now plan f t F → Field.isNothing (s.blank now f F) = true := by
  rw [hw.value?_eq hhook, hnew, Option.none_or, List.findSome?_eq_none_iff]
  refine forall₂_congr fun t ht => ⟨fun h F hmiss => ?_, fun h => ?_⟩
  · obtain ⟨page, hreads, hwin⟩ := hmiss
    rw [Misses.gained? ⟨page, hreads, hwin⟩ (htext t ht page F hreads)] at h
    simpa using h
  · refine Option.eq_none_iff_forall_ne_some.mpr fun w hw => ?_
    rcases gained?_cases (htext t ht) hw with hs | ⟨F, hmiss, rfl, hn⟩
    · exact hunshown t ht w hs
    · rw [h F hmiss] at hn; cases hn

end Site

namespace Sample

/-- A request for a page in JSON. -/
def jsonPage (path : String) : Json := .obj [("url", .str path), ("responseType", .str "json")]

/-- How the size is read off a page. -/
def shareField : Field := { selectors := ["uploaded"], filters := [⟨"parseSize", []⟩] }

/-- A step that looks for the size on a page. -/
def shareStep (path : String) : AccountStep where
  requestConfig := jsonPage path
  fields := ["uploaded"]

/-- A plan that looks for the same size on two pages. -/
def sharePlan : AccountPlan where
  process := [shareStep "/home", shareStep "/profile"]
  selectors := [("uploaded", shareField)]

def shareSite : Site where
  metadata := { id := "demo", userInfoAllowed := some true, userInfo := some sharePlan }

/-- The profile has the size, all other pages are empty. -/
def shareBody (path : String) : Json :=
  .obj (if path = "/profile" then [("uploaded", .str "3 GB")] else [])

/-- Answers with the pages, and keeps in mind which were asked for. -/
def shareWorld : Outside (List String) where
  acquire _ asked := asked
  exchange r asked := (.ok { body := (shareBody r.url).text }, asked ++ [r.url])

/-- The first page. -/
def homeResponse : Response := { body := (shareBody "/home").text }

/-- The first page is read, and the size is not there. -/
def homeTurn : Turn where
  step := shareStep "/home"
  known := []
  visit := some {
    request := jsonPage "/home"
    events := [.acquired "demo", .exchanged { url := "/home", responseKind := .json }
      (.ok homeResponse)]
    source := .json (.obj []) }

end Sample

namespace Site

/-- A blank text makes zero bytes, and that is collected. -/
theorem shareSite_walk :
    Sample.shareSite.Walk 0 Sample.sharePlan 0 [] [Sample.homeTurn] 1
      [("uploaded", .ofInt 0)] := by
  have hauthorized : (Sample.shareSite.authorize
      (Sample.shareSite.addBase (Sample.jsonPage "/home"))).run.Held
        [] (.ok (Sample.jsonPage "/home")) := held_pure_iff.mpr ⟨rfl, rfl⟩
  have hsends : Sample.shareSite.Sends (Sample.jsonPage "/home")
      ([] ++ [.acquired "demo", .exchanged { url := "/home", responseKind := .json }
        (.ok Sample.homeResponse)])
      (.answered ⟨Sample.jsonPage "/home", .json, Sample.homeResponse⟩) := .answered hauthorized rfl
  have hbody : Body.ofText .json Sample.homeResponse.body = .ok (.json (.obj [])) := by rfl
  exact .turn (.read rfl rfl rfl (send_held_iff.mpr ⟨_, hsends, rfl⟩) hbody) (.stay ..)

/-- A field that no hook reads, that has no text of its own and that was not
carried over, in a query that has come to step `j` without a page that shows
it: it is unknown exactly if the filters make nothing of a blank text, on every
page that was asked for it. If so, the step is carried out when it lists the
field, and when its page shows the field, the record is made with what is shown
there. If not, the record is made with what became of the blank text, whatever
later pages show, and a step that wants this field alone is passed over. That
is so whenever the filters end with the reading of a size or a number. -/
theorem accountInfo_shown_field {s : Site} {plan : AccountPlan} {f : String} {turns : List Turn}
    {j : Nat} {c : Collected} (hplan : s.metadata.userInfo = some plan)
    (hallowed : s.metadata.allowsUserInfo = true) (now : Int) (previous : Option UserInfo)
    (hhook : s.hooks.accountFields.get? f = none)
    (htext : ∀ step ∈ plan.process, f ∈ step.fields → ∀ F,
      (plan.fieldsOf step).get? f = some F → F.text = none)
    (hnew : (carriedOver plan previous).value? f = none)
    (hw : s.Walk now plan 0 (carriedOver plan previous) turns j c)
    (hunshown : ∀ t ∈ turns, ∀ w, ¬s.Shows now plan f t w) :
    (c.value? f = none ↔
      ∀ t ∈ turns, ∀ F, s.Misses now plan f t F → Field.isNothing (s.blank now f F) = true) ∧
    (c.value? f = none →
      (∀ step, plan.process[j]? = some step → f ∈ step.fields → step.isSatisfied c = false) ∧
      ∀ t d w later e, s.Takes now plan j c t d → s.Shows now plan f t w →
        s.Walk now plan (j + 1) d later plan.process.length e →
        (s.accountInfo now previous).Held (eventsOf (turns ++ t :: later))
          (.ok (.ofFields s.id .success e now)) ∧ Assoc.get? e f = some w) ∧
    (∀ b, c.value? f = some b →
      (∃ t ∈ turns, ∃ F, s.Misses now plan f t F ∧ b = s.blank now f F) ∧
      (∀ step : AccountStep, step.fields = [f] → step.isSatisfied c = true) ∧
      ∀ later e, s.Walk now plan j c later plan.process.length e →
        (s.accountInfo now previous).Held (eventsOf (turns ++ later))
          (.ok (.ofFields s.id .success e now)) ∧ Assoc.get? e f = some b) ∧
    ∀ t ∈ turns, ∀ F before call, s.Misses now plan f t F → F.filters = before ++ [call] →
      call.name = "parseSize" ∨ call.name = "parseNumber" →
      s.hooks.filters.get? call.name = none → c.value? f ≠ none := by
  have htext' : ∀ t ∈ turns, ∀ page F, t.Reads plan f page F → F.text = none := by
    intro t ht page F hreads
    obtain ⟨k, hk⟩ := List.mem_iff_getElem?.mp ht
    obtain ⟨e, htakes⟩ := hw.takes hk
    exact htext t.step (List.mem_of_getElem? htakes.get) hreads.listed F hreads.described
  have hiff := hw.value?_eq_none_iff hhook htext' hnew hunshown
  refine ⟨hiff, fun hc => ⟨?_, ?_⟩, fun b hb => ⟨?_, ?_, ?_⟩, ?_⟩
  · intro step _ hf
    refine Bool.eq_false_iff.mpr fun hsat => ?_
    exact (AccountStep.isSatisfied_iff.mp hsat).2 f hf hc
  · intro t d w later e ht hshows hl
    have hd : d.value? f = some w := by
      rw [ht.value?_eq hhook, hc, Option.none_or, hshows.gained?]
    refine ⟨(accountInfo_ended_iff hplan hallowed).mpr (.inl ⟨_, e, ?_, rfl, rfl⟩), ?_⟩
    · exact hw.append (.turn ht hl)
    · exact (value?_eq_some_iff.mp (hl.grows.kept f w hd)).1
  · rw [hw.value?_eq hhook, hnew, Option.none_or] at hb
    obtain ⟨t, ht, hb⟩ := List.exists_of_findSome?_eq_some hb
    rcases gained?_cases (htext' t ht) hb with hs | ⟨F, hmiss, hb, -⟩
    · exact absurd hs (hunshown t ht b)
    · exact ⟨t, ht, F, hmiss, hb⟩
  · intro step hfields
    refine AccountStep.isSatisfied_iff.mpr ⟨by simp [hfields], fun g hg => ?_⟩
    rw [hfields] at hg
    obtain rfl := List.mem_singleton.mp hg
    simp [hb]
  · intro later e hl
    exact ⟨(accountInfo_ended_iff hplan hallowed).mpr (.inl ⟨_, e, hw.append hl, rfl, rfl⟩),
      (value?_eq_some_iff.mp (hl.grows.kept f b hb)).1⟩
  · intro t ht F before call hmiss hlast hname hbuiltin hc
    have hblank : Field.isNothing (s.blank now f F) = false :=
      blank_of_number hlast hname hbuiltin
    rw [hiff.mp hc t ht F hmiss] at hblank
    cases hblank

theorem accountInfo_shown_field_of_zero :
    (Sample.shareSite.accountInfo 0 none).Held (eventsOf [Sample.homeTurn])
      (.ok (.ofFields "demo" .success [("uploaded", .ofInt 0)] 0)) := by
  have hmiss : ∀ F, (Sample.sharePlan.fieldsOf Sample.homeTurn.step).get? "uploaded" = some F →
      F = Sample.shareField := fun F hF => (Option.some.inj hF).symm
  obtain ⟨-, -, hknown, -⟩ := accountInfo_shown_field (s := Sample.shareSite) (f := "uploaded")
    rfl rfl 0 none rfl
    (by
      rintro step hstep - F hF
      simp only [Sample.sharePlan, List.mem_cons, List.not_mem_nil, or_false] at hstep
      rcases hstep with rfl | rfl <;> cases hF <;> rfl)
    rfl shareSite_walk
    (by
      rintro t ht w ⟨page, F, place, v, hreads, hwin, -⟩
      obtain rfl := List.mem_singleton.mp ht
      obtain rfl := hmiss F hreads.described
      cases hreads.visited
      cases hwin)
  obtain ⟨-, hpassed, hrest⟩ := hknown (.ofInt 0) rfl
  have hpass := hpassed (Sample.shareStep "/profile") rfl
  exact (hrest [⟨_, _, none⟩] _ (.turn (.pass rfl hpass) (.stay ..))).1

/-- On the sample site the size is on the second page, and zero is collected
without a look at it. -/
theorem shareSite_zero :
    (match (Sample.shareSite.accountInfo 0 none).run Sample.shareWorld none [] with
      | (.ok u, _, asked) => (some u.status, u.uploaded, asked)
      | (.error _, _, asked) => (none, none, asked)) = (some .success, some 0, ["/home"]) ∧
    Sample.shareSite.given? 0 Sample.sharePlan.selectors (.json (Sample.shareBody "/profile"))
      "uploaded" = some (.ofInt 3221225472) := by
  refine ⟨by decide +kernel, ?_⟩
  rfl

end Site

end SiteScrape
