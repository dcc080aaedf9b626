import SiteScrape.Proofs.Exchange
import SiteScrape.Site.Search

/-!
# How a search ends

A search that is allowed, and has an entry and a request, sends this request
once; what comes of it decides the status. `NeedsLogin`, `Brings` and `Breaks`
say of an upshot what it is for a search: each has its status, and every upshot
is one of them (`Upshot.search_cases`), so the statuses tell them apart.
-/

namespace SiteScrape

open Talk

namespace Site

variable {s : Site} {now : Int} {keywords : String} {e : SearchEntry} {request : Json}
  {es : List Event} {x : Exchange} {u : Upshot}

/-- The answer is one to a visitor who is not logged in. -/
def TurnsAway (s : Site) (r : Response) : Prop :=
  r.status = 401 ∨ r.status = 403 ∨ s.isLoggedIn r = false

theorem judge_cases (r : Response) :
    (s.TurnsAway r ∧ s.judge r = .error .needLogin) ∨
    (¬s.TurnsAway r ∧ r.isSuccess = false ∧ ∃ t, s.judge r = .error (.transport t)) ∨
    (¬s.TurnsAway r ∧ r.isSuccess = true ∧ s.judge r = .ok ()) := by
  have hiff : (r.status = 401 || r.status = 403 || !s.isLoggedIn r) = true ↔ s.TurnsAway r := by
    simp [TurnsAway, or_assoc]
  unfold judge
  by_cases h : s.TurnsAway r
  · exact .inl ⟨h, by rw [if_pos (hiff.mpr h)]⟩
  · rw [if_neg (mt hiff.mp h)]
    cases hr : r.isSuccess with
    | false => exact .inr (.inl ⟨h, rfl, _, rfl⟩)
    | true => exact .inr (.inr ⟨h, rfl, rfl⟩)

/-- What the rows of an answer are read with. -/
def rowReader (s : Site) (now : Int) (keywords : String) (e : SearchEntry) (x : Exchange) :
    Rows.Reader :=
  ⟨s.hooks, { keywords, entry := e, request := x.request, finalUrl := x.response.finalUrl, now }⟩

/-- The records that a search reads off an answer: the body must be readable,
and the entry must say where the rows are. -/
def searchRecords? (s : Site) (now : Int) (keywords : String) (e : SearchEntry) (x : Exchange) :
    Option (List Fields) := do
  let body ← (Body.ofText x.kind x.response.body).toOption
  let reading ← e.selectors
  let rows ← reading.rows
  some ((s.rowReader now keywords e x).records reading.fields rows body)

/-- What a search makes of an answer. -/
def readAnswer (s : Site) (now : Int) (keywords : String) (e : SearchEntry) (x : Exchange) :
    Except SiteError (List Torrent) := do
  let body ← Body.ofText x.kind x.response.body
  s.readSearch e (s.rowReader now keywords e x).context body

theorem fetchTorrents_held_iff {r : Except SiteError (List Torrent)} :
    (s.fetchTorrents now keywords e request).run.Held es r ↔
      ∃ u, s.Sends request es u ∧ r = (u.outcome s).bind (s.readAnswer now keywords e) := by
  have hread : ∀ x es r, (bodyOf x >>= fun body => ExceptT.mk (pure (s.readSearch e
      (s.rowReader now keywords e x).context body))).run.Held es r ↔
        es = [] ∧ r = s.readAnswer now keywords e x := by
    intro x es r
    unfold bodyOf readAnswer
    cases Body.ofText x.kind x.response.body <;> exact held_pure_iff
  unfold fetchTorrents
  rw [held_run_bind_iff]
  constructor
  · rintro (⟨err, h, rfl⟩ | ⟨es₁, es₂, x, rfl, h₁, h₂⟩)
    · obtain ⟨u, hu, ho⟩ := send_held_iff.mp h
      exact ⟨u, hu, by rw [← ho]; rfl⟩
    · obtain ⟨u, hu, ho⟩ := send_held_iff.mp h₁
      obtain ⟨rfl, rfl⟩ := (hread x es₂ r).mp h₂
      exact ⟨u, by simpa using hu, by rw [← ho]; rfl⟩
  · rintro ⟨u, hu, rfl⟩
    cases ho : u.outcome s with
    | error err => exact .inl ⟨err, send_held_iff.mpr ⟨u, hu, ho.symm⟩, rfl⟩
    | ok x =>
      exact .inr ⟨es, [], x, by simp, send_held_iff.mpr ⟨u, hu, ho.symm⟩,
        (hread x [] _).mpr ⟨rfl, rfl⟩⟩

theorem searchRecords?_eq_none_iff :
    s.searchRecords? now keywords e x = none ↔
      (∃ err, Body.ofText x.kind x.response.body = .error err) ∨ e.selectors = none ∨
        ∃ reading, e.selectors = some reading ∧ reading.rows = none := by
  unfold searchRecords?
  cases Body.ofText x.kind x.response.body with
  | error err => simp [Except.toOption]
  | ok body =>
    cases e.selectors with
    | none => simp [Except.toOption]
    | some reading => cases hrows : reading.rows <;> simp [Except.toOption, hrows]

theorem ofText_error {kind : ResponseKind} {text : String} {err : SiteError}
    (h : Body.ofText kind text = .error err) : err = .unreadable .response := by
  unfold Body.ofText at h
  split at h
  · split at h <;> cases h
    rfl
  · cases h
  · cases h

/-- An answer that cannot be read is neither a page without rows nor one to a
visitor who is not logged in. -/
theorem readAnswer_of_none (h : s.searchRecords? now keywords e x = none) :
    ∃ err, s.readAnswer now keywords e x = .error err ∧ err ≠ .needLogin ∧ err ≠ .noTorrents := by
  unfold readAnswer
  cases hbody : Body.ofText x.kind x.response.body with
  | error err =>
    obtain rfl := ofText_error hbody
    exact ⟨_, rfl, by decide, by decide⟩
  | ok body =>
    show ∃ err, s.readSearch e _ body = .error err ∧ _
    unfold readSearch
    rcases searchRecords?_eq_none_iff.mp h with ⟨err, herr⟩ | hnone | ⟨reading, hsome, hrows⟩
    · rw [hbody] at herr; cases herr
    · rw [hnone]; exact ⟨_, rfl, by decide, by decide⟩
    · rw [hsome]
      show ∃ err, Rows.Reader.torrents _ _ reading body = .error err ∧ _
      unfold Rows.Reader.torrents
      rw [hrows]
      exact ⟨_, rfl, by decide, by decide⟩

theorem readAnswer_of_some {records : List Fields}
    (h : s.searchRecords? now keywords e x = some records) :
    (records = [] ∧ s.readAnswer now keywords e x = .error .noTorrents) ∨
      (records ≠ [] ∧ s.readAnswer now keywords e x =
        .ok (records.map ((s.rowReader now keywords e x).torrent s.metadata))) := by
  unfold searchRecords? at h
  cases hbody : Body.ofText x.kind x.response.body with
  | error err => rw [hbody] at h; cases h
  | ok body =>
    rw [hbody] at h
    have hread : s.readAnswer now keywords e x =
        s.readSearch e (s.rowReader now keywords e x).context body := by
      unfold readAnswer; rw [hbody]; rfl
    rw [hread]
    unfold readSearch
    cases hselectors : e.selectors with
    | none => rw [hselectors] at h; cases h
    | some reading =>
      cases hrows : reading.rows with
      | none => simp [Except.toOption, hselectors, hrows] at h
      | some rows =>
        simp only [Except.toOption, hselectors, hrows, Option.bind_eq_bind, Option.bind_some,
          Option.some.injEq] at h
        show (_ ∧ Rows.Reader.torrents (s.rowReader now keywords e x) _ reading body = _) ∨
          (_ ∧ Rows.Reader.torrents (s.rowReader now keywords e x) _ reading body = _)
        unfold Rows.Reader.torrents
        rw [hrows]
        cases records with
        | nil => exact .inl ⟨rfl, by simp [h]⟩
        | cons record more => exact .inr ⟨List.cons_ne_nil _ _, by simp [h]⟩

/-! ### What an upshot is for a search -/

/-- There are no credentials, or the answer is one to a visitor who is not
logged in, whatever else is on the page. -/
def NeedsLogin (s : Site) (u : Upshot) : Prop :=
  u = .refused .needLogin ∨ ∃ x, u = .answered x ∧ s.TurnsAway x.response

/-- The answer is a success, and these are its records. -/
def Brings (s : Site) (now : Int) (keywords : String) (e : SearchEntry) (u : Upshot)
    (records : List Fields) : Prop :=
  ∃ x, u = .answered x ∧ ¬s.TurnsAway x.response ∧ x.response.isSuccess = true ∧
    s.searchRecords? now keywords e x = some records

/-- The credentials cannot be had for another reason, the request or the
transport fails, or the answer is a failure or cannot be read. -/
def Breaks (s : Site) (e : SearchEntry) (u : Upshot) : Prop :=
  (∃ err, u = .refused err ∧ err ≠ .needLogin) ∨ (∃ err, u = .malformed err) ∨
  (∃ err, u = .unanswered err) ∨
  ∃ x, u = .answered x ∧ ¬s.TurnsAway x.response ∧
    (x.response.isSuccess = false ∨ (∃ err, Body.ofText x.kind x.response.body = .error err) ∨
      e.selectors = none ∨ ∃ reading, e.selectors = some reading ∧ reading.rows = none)

theorem search_cases (s : Site) (now : Int) (keywords : String) (e : SearchEntry) (u : Upshot) :
    s.NeedsLogin u ∨ (∃ records, s.Brings now keywords e u records) ∨ s.Breaks e u := by
  cases u with
  | refused err =>
    by_cases h : err = .needLogin
    · exact .inl (.inl (by rw [h]))
    · exact .inr (.inr (.inl ⟨err, rfl, h⟩))
  | malformed err => exact .inr (.inr (.inr (.inl ⟨err, rfl⟩)))
  | unanswered err => exact .inr (.inr (.inr (.inr (.inl ⟨err, rfl⟩))))
  | answered x =>
    rcases s.judge_cases x.response with ⟨h, -⟩ | ⟨h, hstatus, -⟩ | ⟨h, hstatus, -⟩
    · exact .inl (.inr ⟨x, rfl, h⟩)
    · exact .inr (.inr (.inr (.inr (.inr ⟨x, rfl, h, .inl hstatus⟩))))
    · cases hrecords : s.searchRecords? now keywords e x with
      | some records => exact .inr (.inl ⟨records, x, rfl, h, hstatus, hrecords⟩)
      | none =>
        exact .inr (.inr (.inr (.inr (.inr
          ⟨x, rfl, h, .inr (searchRecords?_eq_none_iff.mp hrecords)⟩))))

/-- The result of a search with this upshot. -/
def searchResult (s : Site) (now : Int) (keywords : String) (e : SearchEntry) (u : Upshot) :
    SearchResult :=
  resultOf ((u.outcome s).bind (s.readAnswer now keywords e))

theorem searchResult_answered :
    s.searchResult now keywords e (.answered x) =
      resultOf (((s.judge x.response).map fun _ => x).bind (s.readAnswer now keywords e)) := rfl

theorem NeedsLogin.result (h : s.NeedsLogin u) :
    s.searchResult now keywords e u = ⟨.needLogin, []⟩ := by
  obtain rfl | ⟨x, rfl, h⟩ := h
  · rfl
  · rcases s.judge_cases x.response with ⟨-, hj⟩ | ⟨h', -⟩ | ⟨h', -⟩
    · rw [searchResult_answered, hj]; rfl
    · exact absurd h h'
    · exact absurd h h'

/-- Of an answer that is a success, the search is what is read off it. -/
theorem searchResult_of_success (h : ¬s.TurnsAway x.response)
    (hstatus : x.response.isSuccess = true) :
    s.searchResult now keywords e (.answered x) = resultOf (s.readAnswer now keywords e x) := by
  rcases s.judge_cases x.response with ⟨h', -⟩ | ⟨-, h', -⟩ | ⟨-, -, hj⟩
  · exact absurd h' h
  · rw [hstatus] at h'; cases h'
  · rw [searchResult_answered, hj]; rfl

theorem Brings.result_of_nil (h : s.Brings now keywords e u []) :
    s.searchResult now keywords e u = ⟨.noResults, []⟩ := by
  obtain ⟨x, rfl, h, hstatus, hrecords⟩ := h
  rw [searchResult_of_success h hstatus]
  rcases readAnswer_of_some hrecords with ⟨-, hread⟩ | ⟨hne, -⟩
  · rw [hread]; rfl
  · exact absurd rfl hne

theorem Brings.result_of_ne {records : List Fields} (h : s.Brings now keywords e u records)
    (hne : records ≠ []) :
    ∃ torrents, torrents ≠ [] ∧ s.searchResult now keywords e u = ⟨.success, torrents⟩ := by
  obtain ⟨x, rfl, h, hstatus, hrecords⟩ := h
  rw [searchResult_of_success h hstatus]
  rcases readAnswer_of_some hrecords with ⟨rfl, -⟩ | ⟨-, hread⟩
  · exact absurd rfl hne
  · exact ⟨_, mt List.map_eq_nil_iff.mp hne, by rw [hread]; rfl⟩

/-- Other failures count as unreadable, if no authorizer claims that there are
no torrents. -/
theorem Breaks.result (h : s.Breaks e u) (hrefused : u ≠ .refused .noTorrents) :
    s.searchResult now keywords e u = ⟨.parseError, []⟩ := by
  have hother : ∀ err : SiteError, err ≠ .needLogin → err ≠ .noTorrents →
      resultOf (.error err) = ⟨.parseError, []⟩ := by
    intro err h₁ h₂
    cases err <;> first | rfl | exact absurd rfl h₁ | exact absurd rfl h₂
  rcases h with ⟨err, rfl, h⟩ | ⟨err, rfl⟩ | ⟨err, rfl⟩ | ⟨x, rfl, h, hbad⟩
  · exact hother err h fun he => hrefused (by rw [he])
  · rfl
  · rfl
  · rcases s.judge_cases x.response with ⟨h', -⟩ | ⟨-, -, t, hj⟩ | ⟨-, hstatus, -⟩
    · exact absurd h' h
    · rw [searchResult_answered, hj]; rfl
    · rcases hbad with hfail | hbad
      · rw [hstatus] at hfail; cases hfail
      · have hnone : s.searchRecords? now keywords e x = none :=
          searchRecords?_eq_none_iff.mpr hbad
        obtain ⟨err, hread, h₁, h₂⟩ := readAnswer_of_none hnone
        rw [searchResult_of_success h hstatus, hread]
        exact hother err h₁ h₂

/-! ### The whole search -/

/-- What a built-in authorizer refuses is not for want of torrents. -/
theorem Sends.refused_ne (hauth : ∀ a, s.hooks.authorizer = some a → Credentials.Builtin a)
    (h : s.Sends request es u) : u ≠ .refused .noTorrents := by
  rintro rfl
  cases h with | refused h =>
  unfold authorize at h
  split at h
  · next a ha =>
    rcases (hauth a ha).failsWith _ _ _ _ h with he | ⟨t, he⟩ | he <;> cases he
  · cases (held_pure_iff.mp h).2

theorem search_held_iff {overlay : Option Json} {result : SearchResult}
    (hallowed : s.metadata.allowsSearch = true) (hentry : s.entry overlay = .ok e)
    (henabled : e.isEnabled = true) (hrequest : s.searchRequest? keywords e = some request) :
    (s.search now keywords overlay).Held es result ↔
      ∃ u, s.Sends request es u ∧ result = s.searchResult now keywords e u := by
  unfold search
  rw [hallowed, hentry]
  show Held (if (!e.isEnabled) = true then _ else _) es result ↔ _
  rw [henabled, hrequest]
  show (resultOf <$> (s.fetchTorrents now keywords e request).run).Held es result ↔ _
  rw [held_map_iff]
  constructor
  · rintro ⟨r, h, rfl⟩
    obtain ⟨u, hu, rfl⟩ := fetchTorrents_held_iff.mp h
    exact ⟨u, hu, rfl⟩
  · rintro ⟨u, hu, rfl⟩
    exact ⟨_, fetchTorrents_held_iff.mpr ⟨u, hu, rfl⟩, rfl⟩

/-- Where the site is not asked, a search ends at once. -/
theorem search_unasked {overlay : Option Json} {result : SearchResult}
    (h : (s.search now keywords overlay).Held es result) :
    (s.metadata.allowsSearch = false → es = [] ∧ result = ⟨.passed, []⟩) ∧
    (s.metadata.allowsSearch = true →
      (∀ err, s.entry overlay = .error err → es = [] ∧ result = ⟨.parseError, []⟩) ∧
      ∀ e, s.entry overlay = .ok e → e.isEnabled = false ∨ s.searchRequest? keywords e = none →
        es = [] ∧ result = ⟨.passed, []⟩) := by
  unfold search at h
  refine ⟨fun hallowed => ?_, fun hallowed => ⟨fun err hentry => ?_, fun e hentry hnone => ?_⟩⟩
  · rw [hallowed] at h
    exact held_pure_iff.mp h
  · rw [hallowed, hentry] at h
    exact held_pure_iff.mp h
  · rw [hallowed, hentry] at h
    change Held (if (!e.isEnabled) = true then _ else _) es result at h
    cases henabled : e.isEnabled with
    | false =>
      rw [henabled] at h
      exact held_pure_iff.mp h
    | true =>
      rw [henabled, hnone.resolve_left (by simp [henabled])] at h
      exact held_pure_iff.mp h

/-- Of the four kinds of ends, an upshot has the one that the status names. -/
theorem searchResult_status (hrefused : u ≠ .refused .noTorrents) :
    ((s.searchResult now keywords e u).status = .needLogin ↔ s.NeedsLogin u) ∧
    ((s.searchResult now keywords e u).status = .noResults ↔ s.Brings now keywords e u []) ∧
    ((s.searchResult now keywords e u).status = .success ↔
      ∃ records, records ≠ [] ∧ s.Brings now keywords e u records) ∧
    ((s.searchResult now keywords e u).status = .parseError ↔ s.Breaks e u) := by
  have hneeds : s.NeedsLogin u → (s.searchResult now keywords e u).status = .needLogin := by
    intro h; rw [h.result]
  have hnone : s.Brings now keywords e u [] →
      (s.searchResult now keywords e u).status = .noResults := by
    intro h; rw [h.result_of_nil]
  have hsome : (∃ records, records ≠ [] ∧ s.Brings now keywords e u records) →
      (s.searchResult now keywords e u).status = .success := by
    rintro ⟨records, hne, h⟩
    obtain ⟨torrents, -, hr⟩ := h.result_of_ne hne
    rw [hr]
  have hbreaks : s.Breaks e u → (s.searchResult now keywords e u).status = .parseError := by
    intro h; rw [h.result hrefused]
  have hkinds : s.NeedsLogin u ∨ s.Brings now keywords e u [] ∨
      (∃ records, records ≠ [] ∧ s.Brings now keywords e u records) ∨ s.Breaks e u := by
    rcases s.search_cases now keywords e u with h | ⟨records, h⟩ | h
    · exact .inl h
    · cases records with
      | nil => exact .inr (.inl h)
      | cons record more => exact .inr (.inr (.inl ⟨_, List.cons_ne_nil _ _, h⟩))
    · exact .inr (.inr (.inr h))
  -- an upshot of another kind would have another status
  refine ⟨⟨fun hs => ?_, hneeds⟩, ⟨fun hs => ?_, hnone⟩, ⟨fun hs => ?_, hsome⟩,
    ⟨fun hs => ?_, hbreaks⟩⟩ <;>
  rcases hkinds with h | h | h | h <;> first
    | exact h
    | cases hs.symm.trans (hneeds h)
    | cases hs.symm.trans (hnone h)
    | cases hs.symm.trans (hsome h)
    | cases hs.symm.trans (hbreaks h)

theorem searchResult_data (hrefused : u ≠ .refused .noTorrents) :
    (s.searchResult now keywords e u).data ≠ [] ↔
      (s.searchResult now keywords e u).status = .success := by
  rcases s.search_cases now keywords e u with h | ⟨records, h⟩ | h
  · rw [h.result]; simp
  · by_cases hne : records = []
    · subst hne; rw [h.result_of_nil]; simp
    · obtain ⟨torrents, ht, hr⟩ := h.result_of_ne hne
      rw [hr]; simpa using ht
  · rw [h.result hrefused]; simp

end Site

namespace Sample

/-- A site that is searched with a key. -/
def keySite : Site where
  metadata := { id := "demo", searchAllowed := some true, userInput := [("apikey", "k")] }
  hooks := Schema.gazelleApi.hooks

/-- Every page is forbidden. -/
def forbidding : Outside Unit where
  acquire _ st := st
  exchange _ st := (.ok { status := 403 }, st)

end Sample

namespace Site

/-- How a search ends, with no authorizer or a built-in one. It comes to an end
with any outside, and it has torrents exactly if it is a success. Where
searching is not allowed, the entry is switched off or there is no request, it
passes with nothing sent; where the entry cannot be put together, it fails with
nothing sent. Else the request is sent, at most once beside what the authorizer
sends: the status is that a login is needed exactly if there are no credentials
or the answer is one to a visitor who is not logged in, and of an answer that is
a success and can be read it tells whether there are records; all else counts
as unreadable. -/
theorem search_outcome {s : Site}
    (hauth : ∀ a, s.hooks.authorizer = some a → Credentials.Builtin a) (now : Int)
    (keywords : String) (overlay : Option Json) :
    (∀ (σ : Type) (world : Outside σ) (token : Option String) (st : σ), ∃ es,
      (s.search now keywords overlay).Held es
        ((s.search now keywords overlay).run world token st).1) ∧
    ∀ es result, (s.search now keywords overlay).Held es result →
      (result.data ≠ [] ↔ result.status = .success) ∧
      (s.metadata.allowsSearch = false → es = [] ∧ result.status = .passed) ∧
      (s.metadata.allowsSearch = true →
        (∀ err, s.entry overlay = .error err → es = [] ∧ result.status = .parseError) ∧
        ∀ e, s.entry overlay = .ok e →
          (e.isEnabled = false ∨ s.searchRequest? keywords e = none →
            es = [] ∧ result.status = .passed) ∧
          ∀ request, e.isEnabled = true → s.searchRequest? keywords e = some request →
            ∃ u credentials own authorized, s.Sends request es u ∧ es = credentials ++ own ∧
              (s.authorize (s.addBase request)).run.Held credentials authorized ∧
              (own.filter Event.isRequest).length ≤ 1 ∧
              (result.status = .needLogin ↔ s.NeedsLogin u) ∧
              (result.status = .noResults ↔ s.Brings now keywords e u []) ∧
              (result.status = .success ↔
                ∃ records, records ≠ [] ∧ s.Brings now keywords e u records) ∧
              (result.status = .parseError ↔ s.Breaks e u)) := by
  refine ⟨fun σ world token st => exists_held world _ token st, fun es result h => ?_⟩
  obtain ⟨hforbidden, hunasked⟩ := search_unasked h
  have hasked : ∀ e request, s.metadata.allowsSearch = true → s.entry overlay = .ok e →
      e.isEnabled = true → s.searchRequest? keywords e = some request →
      ∃ u, s.Sends request es u ∧ u ≠ .refused .noTorrents ∧
        result = s.searchResult now keywords e u := by
    intro e request hallowed hentry henabled hrequest
    obtain ⟨u, hu, hr⟩ := (search_held_iff hallowed hentry henabled hrequest).mp h
    exact ⟨u, hu, hu.refused_ne hauth, hr⟩
  refine ⟨?_, fun hallowed => ?_, fun hallowed => ⟨fun err hentry => ?_, fun e hentry =>
    ⟨fun hnone => ?_, fun request henabled hrequest => ?_⟩⟩⟩
  · cases hallowed : s.metadata.allowsSearch with
    | false => rw [(hforbidden hallowed).2]; simp
    | true =>
      cases hentry : s.entry overlay with
      | error err => rw [((hunasked hallowed).1 err hentry).2]; simp
      | ok e =>
        by_cases hnone : e.isEnabled = false ∨ s.searchRequest? keywords e = none
        · rw [((hunasked hallowed).2 e hentry hnone).2]; simp
        · obtain ⟨henabled, hrequest⟩ := not_or.mp hnone
          obtain ⟨request, hrequest⟩ := Option.ne_none_iff_exists'.mp hrequest
          obtain ⟨u, -, hne, rfl⟩ :=
            hasked e request hallowed hentry (by simpa using henabled) hrequest
          exact searchResult_data hne
  · obtain ⟨hes, hr⟩ := hforbidden hallowed
    exact ⟨hes, by rw [hr]⟩
  · obtain ⟨hes, hr⟩ := (hunasked hallowed).1 err hentry
    exact ⟨hes, by rw [hr]⟩
  · obtain ⟨hes, hr⟩ := (hunasked hallowed).2 e hentry hnone
    exact ⟨hes, by rw [hr]⟩
  · obtain ⟨u, hu, hne, rfl⟩ := hasked e request hallowed hentry henabled hrequest
    obtain ⟨credentials, own, authorized, hes, hheld, hone⟩ := hu.request_le_one
    exact ⟨u, credentials, own, authorized, hu, hes, hheld, hone, searchResult_status hne⟩

theorem search_outcome_of_forbidden :
    ∃ es r, (Sample.keySite.search 0 "" none).Held es r ∧ r.status = .needLogin ∧ r.data = [] := by
  have hschema : Schema.gazelleApi ∈ Schema.builtin := by simp [Schema.builtin]
  obtain ⟨hends, hout⟩ := search_outcome (s := Sample.keySite)
    (fun a ha => Credentials.builtin_of_schema hschema ha) 0 "" none
  obtain ⟨es, h⟩ := hends Unit Sample.forbidding none ()
  obtain ⟨hdata, -⟩ := hout es _ h
  have hstatus : ((Sample.keySite.search 0 "" none).run Sample.forbidding none ()).1.status =
      .needLogin := by decide +kernel
  refine ⟨es, _, h, hstatus, Classical.not_not.mp fun hne => ?_⟩
  rw [hdata.mp hne] at hstatus
  cases hstatus

end Site

end SiteScrape
