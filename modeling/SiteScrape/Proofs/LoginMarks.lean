import Mathlib
import SiteScrape.Proofs.SearchOutcome

/-!
# Keywords and the login status

Keywords stand in the address of a search, and the default check looks for login
words in the address that a response came from. `Answers` says which request a
search leads to and what it is answered; of a success that comes from the very
address that was asked, the status depends on that address and on the page
alone (`Answers.needLogin_iff`), so two searches with the same page differ just
by the words in their addresses.
-/

namespace SiteScrape

open Talk

/-- The target of a request with a relative address. -/
theorem Request.target_of_relative {r : Request} {base : String} {u v : Url}
    (hurl : Url.parse r.url = .error .relativeWithoutBase) (hbase : r.baseUrl = some base)
    (hu : Url.parse? base = some u) (hv : Url.join u r.url = .ok v) : r.target = .ok v := by
  unfold Request.target
  simp only [hurl, hbase, Option.bind_some, hu, hv]

/-- A success from the very address that a request asks, which sends on to no
other. -/
structure Response.IsDirect (response : Response) (r : Request) (asked : Url) : Prop where
  asks : r.fullUrl = .ok asked
  success : response.isSuccess = true
  finalUrl_eq : response.finalUrl = asked.text
  stays : response.header? "refresh" = none

namespace Site

variable {s : Site} {now now₁ now₂ : Int} {overlay : Option Json}
  {keywords keywords₁ keywords₂ : String} {r r₁ r₂ : Request} {asked asked₁ asked₂ : Url}
  {response response₁ response₂ : Response} {result result₁ result₂ : SearchResult}

/-- A search with these keywords leads to a request, the site answers it, and
this is the result. -/
inductive Answers (s : Site) (now : Int) (overlay : Option Json) (keywords : String) :
    Request → Response → SearchResult → Prop where
  | intro {e : SearchEntry} {request : Json} {es : List Event} {x : Exchange} {r : Request}
      {result : SearchResult} : s.metadata.allowsSearch = true → s.entry overlay = .ok e →
      e.isEnabled = true → s.searchRequest? keywords e = some request →
      s.Sends request es (.answered x) → Request.ofJson x.request = .ok r →
      result = s.searchResult now keywords e (.answered x) →
      Answers s now overlay keywords r x.response result

/-- A search that is answered is one that is held. -/
theorem Answers.exists_held (h : s.Answers now overlay keywords r response result) :
    ∃ es, (s.search now keywords overlay).Held es result := by
  cases h with
  | intro hallowed hentry henabled hrequest hsends _ hresult =>
    exact ⟨_, (search_held_iff hallowed hentry henabled hrequest).mpr ⟨_, hsends, hresult⟩⟩

/-- An answered search needs a login exactly if the response is one to a
visitor who is not logged in. -/
theorem Answers.needLogin_iff_turnsAway (h : s.Answers now overlay keywords r response result) :
    result.status = .needLogin ↔ s.TurnsAway response := by
  cases h with
  | @intro e _ _ x _ _ _ _ _ _ _ _ hresult =>
    have hanswered : Upshot.answered x ≠ .refused .noTorrents := nofun
    have hneeds : (s.searchResult now keywords e (.answered x)).status = .needLogin ↔
        s.NeedsLogin (.answered x) := (searchResult_status hanswered).1
    rw [hresult, hneeds]
    constructor
    · rintro (h | ⟨_, h, haway⟩)
      · cases h
      · cases h; exact haway
    · exact fun haway => .inr ⟨x, rfl, haway⟩

/-- Of a direct success the default check looks at the address that was asked,
and under the strict rule at the page. -/
theorem turnsAway_iff_of_direct (hcheck : s.hooks.loginCheck = none)
    (h : response.IsDirect r asked) :
    s.TurnsAway response ↔ Login.isLoginUrl asked.text = true ∨
      (s.metadata.strictLoginCheck = true ∧ Login.hasShortForm response.body = true) := by
  have hstatus : ¬(response.status = 401 ∨ response.status = 403) := by
    have hsuccess := h.success
    simp only [Response.isSuccess, Bool.and_eq_true, decide_eq_true_eq] at hsuccess
    omega
  have hlogged : s.isLoggedIn response = (!Login.isLoginUrl asked.text &&
      !(s.metadata.strictLoginCheck && Login.hasShortForm response.body)) := by
    unfold isLoggedIn
    rw [hcheck]
    simp [Login.isLoggedIn, h.finalUrl_eq, h.stays]
  unfold TurnsAway
  rw [← or_assoc, or_iff_right hstatus, hlogged]
  cases Login.isLoginUrl asked.text <;> simp

theorem Answers.needLogin_iff (h : s.Answers now overlay keywords r response result)
    (hcheck : s.hooks.loginCheck = none) (hdirect : response.IsDirect r asked) :
    result.status = .needLogin ↔ Login.isLoginUrl asked.text = true ∨
      (s.metadata.strictLoginCheck = true ∧ Login.hasShortForm response.body = true) :=
  h.needLogin_iff_turnsAway.trans (turnsAway_iff_of_direct hcheck hdirect)

end Site

namespace Sample

/-- A search at `/browse`. -/
def browseEntry : SearchEntry := { requestConfig := some (.obj [("url", .str "/browse")]) }

def browseSite : Site where
  metadata := {
    id := "demo", urls := ["https://t.example/"], searchAllowed := some true
    search := some browseEntry }

/-- The request for keywords, as a value. -/
def browseJson (params : Fields) : Json :=
  .obj [("data", .obj []), ("responseType", .str "document"), ("params", .obj params),
    ("url", .str "/browse")]

/-- The request for keywords, as it is sent. -/
def browseRequest (params : Fields) : Request where
  url := "/browse"
  params := params
  data := .obj []
  baseUrl := some "https://t.example/"

/-- The address without keywords. -/
def browseUrl : Url where
  scheme := "https"
  host := some (.name "t.example")
  path := .segments ["browse"]

def keywordParams (keywords : String) : Fields := [("keywords", .str keywords)]

/-- The address that keywords lead to. -/
def keywordUrl (keywords : String) : Url :=
  browseUrl.withPairs (Request.queryPairs (keywordParams keywords))

/-- The same page at any address. -/
def pageAt (asked : Url) : Response := { body := "<p>Hello</p>", finalUrl := asked.text }

end Sample

namespace Site

theorem browseRequest_fullUrl (params : Fields) :
    (Sample.browseRequest params).fullUrl =
      .ok (Sample.browseUrl.withPairs (Request.queryPairs params)) := by
  have hrelative : Url.parse "/browse" = .error .relativeWithoutBase := by rfl
  have hbase : Url.parse? "https://t.example/" =
      some { Sample.browseUrl with path := .segments [""] } := by cbv
  have hjoin : Url.join { Sample.browseUrl with path := .segments [""] } "/browse" =
      .ok Sample.browseUrl := by rfl
  have htarget : (Sample.browseRequest params).target = .ok Sample.browseUrl :=
    Request.target_of_relative hrelative rfl hbase hjoin
  unfold Request.fullUrl
  rw [htarget]
  rfl

/-- Keywords without a tag are answered with the page. -/
theorem browseSite_answers (keywords : String)
    (hrequest : Sample.browseSite.searchRequest? keywords Sample.browseEntry =
      some (Sample.browseJson (Sample.keywordParams keywords))) :
    ∃ result, Sample.browseSite.Answers 0 none keywords
      (Sample.browseRequest (Sample.keywordParams keywords))
      (Sample.pageAt (Sample.keywordUrl keywords)) result := by
  have hr : Request.ofJson
      (Sample.browseSite.addBase (Sample.browseJson (Sample.keywordParams keywords))) =
        .ok (Sample.browseRequest (Sample.keywordParams keywords)) := by rfl
  exact ⟨_, .intro rfl rfl rfl hrequest (.answered (held_pure_iff.mpr ⟨rfl, rfl⟩) hr) hr rfl⟩

/-- The page does not depend on the address. -/
theorem pageAt_body (asked : Url) : (Sample.pageAt asked).body = "<p>Hello</p>" := rfl

theorem pageAt_isDirect (keywords : String) :
    (Sample.pageAt (Sample.keywordUrl keywords)).IsDirect
      (Sample.browseRequest (Sample.keywordParams keywords)) (Sample.keywordUrl keywords) :=
  ⟨browseRequest_fullUrl _, rfl, rfl, rfl⟩

variable {s : Site} {now₁ now₂ : Int} {overlay : Option Json} {keywords₁ keywords₂ : String}
  {r₁ r₂ : Request} {asked₁ asked₂ : Url} {response₁ response₂ : Response}
  {result₁ result₂ : SearchResult}

/-- Of two searches that the site answers with the same page, each directly from
the address that it asked: they agree on whether a login is needed exactly if
both addresses have a login word behind their host or neither has, or the page
is a short login form and the strict rule holds. So keywords that bring no such
word into the address do not decide the status; where just one address has one,
that search alone reports that a login is needed. -/
theorem search_needLogin_agree_iff (hcheck : s.hooks.loginCheck = none)
    (h₁ : s.Answers now₁ overlay keywords₁ r₁ response₁ result₁)
    (h₂ : s.Answers now₂ overlay keywords₂ r₂ response₂ result₂)
    (hdirect₁ : response₁.IsDirect r₁ asked₁) (hdirect₂ : response₂.IsDirect r₂ asked₂)
    (hbody : response₁.body = response₂.body) :
    ((result₁.status = .needLogin ↔ result₂.status = .needLogin) ↔
      (Login.isLoginUrl asked₁.text = true ↔ Login.isLoginUrl asked₂.text = true) ∨
      (s.metadata.strictLoginCheck = true ∧ Login.hasShortForm response₁.body = true)) := by
  rw [h₁.needLogin_iff hcheck hdirect₁, h₂.needLogin_iff hcheck hdirect₂, hbody]
  by_cases hform : s.metadata.strictLoginCheck = true ∧ Login.hasShortForm response₂.body = true
  · simp [hform]
  · simp [hform]

theorem search_needLogin_agree_of_plain_words :
    ∃ result₁ result₂,
      Sample.browseSite.Answers 0 none "ubuntu"
        (Sample.browseRequest (Sample.keywordParams "ubuntu")) (Sample.pageAt (Sample.keywordUrl "ubuntu")) result₁ ∧
      Sample.browseSite.Answers 0 none "debian"
        (Sample.browseRequest (Sample.keywordParams "debian")) (Sample.pageAt (Sample.keywordUrl "debian")) result₂ ∧
      (result₁.status = .needLogin ↔ result₂.status = .needLogin) := by
  obtain ⟨result₁, h₁⟩ := browseSite_answers "ubuntu" (by rfl)
  obtain ⟨result₂, h₂⟩ := browseSite_answers "debian" (by rfl)
  have hmarks : Login.isLoginUrl (Sample.keywordUrl "ubuntu").text =
      Login.isLoginUrl (Sample.keywordUrl "debian").text := by decide +kernel
  refine ⟨result₁, result₂, h₁, h₂, ?_⟩
  have hagree := search_needLogin_agree_iff rfl h₁ h₂ (pageAt_isDirect "ubuntu")
    (pageAt_isDirect "debian") ((pageAt_body _).trans (pageAt_body _).symm)
  exact hagree.mpr (.inl (by rw [hmarks]))

/-- The address of the site and that of a search without keywords have no login
word, the page is the same, and yet searching for `login` reports that a login
is needed where searching for `ubuntu` does not. -/
theorem search_needLogin_by_keywords :
    Sample.browseSite.hooks.loginCheck = none ∧
    Login.isLoginUrl "https://t.example/" = false ∧
    Sample.browseSite.searchRequest? "" Sample.browseEntry = some (Sample.browseJson []) ∧
    (Sample.browseRequest []).fullUrl = .ok Sample.browseUrl ∧
    Login.isLoginUrl Sample.browseUrl.text = false ∧
    ∃ r₁ r₂ asked₁ asked₂ response₁ response₂ result₁ result₂,
      Sample.browseSite.Answers 0 none "ubuntu" r₁ response₁ result₁ ∧
      Sample.browseSite.Answers 0 none "login" r₂ response₂ result₂ ∧
      response₁.IsDirect r₁ asked₁ ∧ response₂.IsDirect r₂ asked₂ ∧
      response₁.body = response₂.body ∧
      result₁.status ≠ .needLogin ∧ result₂.status = .needLogin := by
  have hurl : (Sample.browseRequest []).fullUrl = .ok Sample.browseUrl := browseRequest_fullUrl []
  have hrequest : Sample.browseSite.searchRequest? "" Sample.browseEntry =
      some (Sample.browseJson []) := by rfl
  have hbase : Login.isLoginUrl "https://t.example/" = false := by decide +kernel
  have hbare : Login.isLoginUrl Sample.browseUrl.text = false := by decide +kernel
  refine ⟨rfl, hbase, hrequest, hurl, hbare, ?_⟩
  obtain ⟨result₁, h₁⟩ := browseSite_answers "ubuntu" (by rfl)
  obtain ⟨result₂, h₂⟩ := browseSite_answers "login" (by rfl)
  have hplain : Login.isLoginUrl (Sample.keywordUrl "ubuntu").text = false := by decide +kernel
  have hword : Login.isLoginUrl (Sample.keywordUrl "login").text = true := by decide +kernel
  have hdirect₁ := pageAt_isDirect "ubuntu"
  have hdirect₂ := pageAt_isDirect "login"
  refine ⟨_, _, _, _, _, _, result₁, result₂, h₁, h₂, hdirect₁, hdirect₂,
    (pageAt_body _).trans (pageAt_body _).symm, ?_, ?_⟩
  · rw [ne_eq, h₁.needLogin_iff rfl hdirect₁, hplain]
    rintro (h | ⟨h, -⟩) <;> cases h
  · exact (h₂.needLogin_iff rfl hdirect₂).mpr (.inl hword)

end Site

end SiteScrape
