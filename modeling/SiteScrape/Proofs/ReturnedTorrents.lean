import SiteScrape.Proofs.EscapedTexts
import SiteScrape.Proofs.OneNode
import SiteScrape.Proofs.WrittenTorrents
import SiteScrape.Service.Answer

/-!
# Torrents that are handed back

A client that wants the link of a torrent sends the torrent back as it got it
(`HandsBack`). The body is refused where it is too large or nested too deeply
(`HandsBack.value_eq`); else the torrent that is read leads to the same link, and the
answer is the one for the torrent itself (`torrent_handed_back`). With a link of its
own nothing is asked of the site (`linkAnswer_of_link`).
-/

namespace SiteScrape

theorem Url.Percent.decodeComponent?_of_not_mem {s : String} (h : '%' ∉ s.toList) :
    decodeComponent? s = some s := by
  have hread : (s.toList.map some).mapM (fun c : Option Char => c) = some s.toList :=
    Decode.mapM_map_write fun _ _ => rfl
  rw [decodeComponent?, decodeBytes_of_not_mem h, Text.Utf8.decode?, Text.Utf8.decodeFrom_bytes]
  exact (congrArg (Option.map String.ofList) hread).trans (congrArg some String.ofList_toList)

namespace Service

open Decode

variable {σ : Type} {here : Setting σ} {d : Deployment} {s : State σ} {c : Call} {id : String}
  {site : Site} {t : Torrent}

/-- The call asks a site for the link of a torrent, and gives the torrent back as it was written. -/
structure HandsBack (c : Call) (id : String) (t : Torrent) : Prop where
  post : c.method = "POST"
  path : (Endpoint.ofPath? c.path).bind Endpoint.plain? = some (.downloadLink id)
  json : c.contentType.any MediaType.isJson = true
  body : c.body = (Json.obj [("torrent", t.encode)]).text

/-- The call is served by the endpoint for links. -/
theorem HandsBack.respond_eq (h : HandsBack c id t) (here : Setting σ) (d : Deployment) (s : State σ) :
    respond here d c s = serve here d c s (.downloadLink id) := by
  obtain ⟨e, he, hplain⟩ := Option.bind_eq_some_iff.mp h.path
  have htakes : e.takes c.method = true := by
    rw [h.post]
    cases e with
    | downloadLink => rfl
    | health | config | sites | search => cases hplain
    | site | siteSearch | accountInfo =>
      obtain ⟨_, -, hid⟩ := Option.map_eq_some_iff.mp hplain
      cases hid
  have hoptions : (c.method == "OPTIONS") = false := by rw [h.post]; rfl
  have hwhole (r : Reply) : r.forMethod c.method = r := by rw [h.post]; rfl
  unfold respond
  rw [he]
  simp only [hoptions, htakes, hplain, hwhole, Bool.not_true, Bool.false_eq_true, if_false]

/-- What the body of the call is read as. -/
theorem HandsBack.value_eq (h : HandsBack c id t) : c.value =
    if bodyLimit < c.body.utf8ByteSize then .error 413
    else if (Json.obj [("torrent", t.encode)]).depth ≤ Json.maxDepth then
      .ok (.obj [("torrent", t.encode.asRead)])
    else .error 400 := by
  have hparse := Json.parseEntries_text (.obj [("torrent", t.encode)])
  rw [← h.body] at hparse
  unfold Call.value
  rw [h.json, hparse]
  by_cases hdeep : (Json.obj [("torrent", t.encode)]).depth ≤ Json.maxDepth
  · rw [if_pos hdeep, if_pos hdeep]
    rfl
  · rw [if_neg hdeep, if_neg hdeep]
    rfl

/-- The link of a torrent is asked of a site. -/
def linkAnswer (here : Setting σ) (site : Site) (t : Torrent) (s : State σ) : Reply × State σ :=
  let (r, s) := converse here.world site (site.downloadLink here.now t).run s
  (linkReply r, s)

theorem linkAnswer_eq_of_linksLike {t t' : Torrent} (h : t.LinksLike t') (here : Setting σ)
    (site : Site) (s : State σ) : linkAnswer here site t s = linkAnswer here site t' s := by
  unfold linkAnswer
  rw [Site.downloadLink_eq_of_linksLike h]

theorem HandsBack.respond_of_refused (h : HandsBack c id t) {status : Nat}
    (hvalue : c.value = .error status) (here : Setting σ) (d : Deployment) (s : State σ) :
    respond here d c s = (.refusal status, s) := by
  rw [h.respond_eq, serve, withOrder, hvalue]

theorem decodeTorrent_obj (v : Json) : decodeTorrent (.obj [("torrent", v)]) = Torrent.decode v := by
  have hrecord : record ["torrent"] (.obj [("torrent", v)]) = some [("torrent", v)] := rfl
  have hfield : Assoc.get? [("torrent", v)] "torrent" = some v := rfl
  rw [decodeTorrent, hrecord, Option.bind_eq_bind, Option.bind_some, required, hfield, Option.bind_some]

theorem HandsBack.respond_of_read (h : HandsBack c id t) {t' : Torrent}
    (hvalue : c.value = .ok (.obj [("torrent", t.encode.asRead)]))
    (hread : Torrent.decode t.encode.asRead = some t') (hlinks : t'.LinksLike t)
    (hsite : d.site? id = some site) (here : Setting σ) (s : State σ) :
    respond here d c s = linkAnswer here site t s := by
  rw [h.respond_eq, serve, withOrder, hvalue]
  simp only [decodeTorrent_obj, hread, withSite, hsite]
  exact linkAnswer_eq_of_linksLike hlinks here site s

/-- What needs nothing of the outside leaves everything as it is. -/
theorem converse_done {α : Type} (world : Talk.Outside σ) (site : Site) (a : α) (s : State σ) :
    converse world site (.done a) s = (a, s) := by
  unfold converse Talk.run
  cases h : s.tokens.get? site.id with
  | none => rfl
  | some token => simp [Assoc.insert_self h]

/-- Where the torrent has its link, nothing is asked of the site. -/
theorem linkAnswer_of_link {link : String} (hlink : t.link = some link)
    (hblank : Text.isBlankText link = false) (here : Setting σ) (site : Site) (s : State σ) :
    linkAnswer here site t s =
      (.ok (.obj [("link", .str (absoluteUrl (site.metadata.baseUrl?.getD "") link))]), s) := by
  have hfound : t.link.filter (fun link => !Text.isBlankText link) = some link := by
    rw [hlink, Option.filter_some, hblank]
    rfl
  have hdone : (site.downloadLink here.now t).run =
      .done (.ok (absoluteUrl (site.metadata.baseUrl?.getD "") link)) := by
    rw [Site.downloadLink, hfound]
    rfl
  rw [linkAnswer, hdone, converse_done]
  rfl

/-- How deep an outside identifier may be nested in a torrent that is handed back. -/
def identifierDepth : Nat := 125

theorem depth_body_le_iff (hprogress : ∀ f ∈ t.progress, Double.isFinite f = true) :
    (Json.obj [("torrent", t.encode)]).depth ≤ Json.maxDepth ↔
      ∀ p ∈ t.ext, p.2.depth ≤ identifierDepth := by
  have hnumber : ∀ v ∈ t.progress.map Json.ofFloat, v.depth = 0 := by
    rw [Torrent.map_ofFloat hprogress]
    intro v hv
    obtain ⟨f, -, rfl⟩ := Option.map_eq_some_iff.mp hv
    rfl
  rw [← Torrent.depth_entries_le_iff (t := t) hnumber (by decide : 2 ≤ identifierDepth),
    ← Torrent.encode_eq]
  show max t.encode.depth 0 + 1 ≤ 127 ↔ t.encode.depth ≤ 125 + 1
  omega

/-- A torrent of field values is read as it was written. Handed back to the endpoint for links,
its body may be too large, or an outside identifier nested too deeply; then the call is refused
and nothing is sent. Else the answer is the one for the torrent itself, and where it has a link,
the link, without anything being sent. -/
theorem torrent_handed_back (name : String) {fields : Fields}
    (hfields : ∀ p ∈ fields, p.2.isProper = true) :
    Torrent.decode (Torrent.ofFields name fields).encode = some (Torrent.ofFields name fields) ∧
    ∀ {σ : Type} (here : Setting σ) (d : Deployment) (s : State σ) {c : Call} {id : String},
      HandsBack c id (Torrent.ofFields name fields) →
      (bodyLimit < c.body.utf8ByteSize → respond here d c s = (.refusal 413, s)) ∧
      (c.body.utf8ByteSize ≤ bodyLimit →
        ((∃ p ∈ (Torrent.ofFields name fields).ext, identifierDepth < p.2.depth) →
          respond here d c s = (.refusal 400, s)) ∧
        ((∀ p ∈ (Torrent.ofFields name fields).ext, p.2.depth ≤ identifierDepth) →
          ∀ site, d.site? id = some site →
            respond here d c s = linkAnswer here site (Torrent.ofFields name fields) s ∧
            ∀ link, (Torrent.ofFields name fields).link = some link →
              Text.isBlankText link = false →
              respond here d c s =
                (.ok (.obj [("link", .str (absoluteUrl (site.metadata.baseUrl?.getD "") link))]),
                  s))) := by
  have hprogress := Torrent.isFinite_progress name hfields
  have hdepth := depth_body_le_iff hprogress
  obtain ⟨t', hread, hlinks⟩ :=
    Torrent.exists_decode_asRead (Torrent.isOutside_ofFields name fields) hprogress
  refine ⟨Torrent.decode_encode_ofFields hfields, fun here d s c id h => ⟨fun hlarge => ?_,
    fun hfits => ⟨fun ⟨p, hp, hdeep⟩ => ?_, fun hshallow site hsite => ?_⟩⟩⟩
  · exact h.respond_of_refused (by rw [h.value_eq, if_pos hlarge]) here d s
  · have hrefused : ¬ (Json.obj [("torrent", (Torrent.ofFields name fields).encode)]).depth ≤
        Json.maxDepth := fun hle => Nat.not_le.mpr hdeep (hdepth.mp hle p hp)
    exact h.respond_of_refused (by rw [h.value_eq, if_neg (Nat.not_lt.mpr hfits), if_neg hrefused])
      here d s
  · have hanswer := h.respond_of_read
      (by rw [h.value_eq, if_neg (Nat.not_lt.mpr hfits), if_pos (hdepth.mpr hshallow)]) hread hlinks
      hsite here s
    exact ⟨hanswer, fun link hlink hblank => hanswer.trans (linkAnswer_of_link hlink hblank here site s)⟩

/-- A site that counts the requests it gets and answers none. -/
def counting : Setting Nat where
  world := { acquire := fun _ n => n, exchange := fun _ n => (.error (.http "closed"), n + 1) }
  now := 0
  elapsed _ _ := 0

def filmSite : Site where
  metadata := { id := "demo", urls := ["https://tracker.example/"] }

def filmDeployment : Deployment := ⟨{}, [("demo", filmSite)]⟩

def handBack (t : Torrent) : Call where
  method := "POST"
  path := "/api/v1/sites/demo/download-link"
  body := (Json.obj [("torrent", t.encode)]).text
  contentType := some "application/json"

theorem handsBack_handBack (t : Torrent) : HandsBack (handBack t) "demo" t := by
  have hescaped : Endpoint.ofPath? "/api/v1/sites/demo/download-link" =
      some (.downloadLink "demo") := by decide +kernel
  have hplain : Url.Percent.decodeComponent? "demo" = some "demo" :=
    Url.Percent.decodeComponent?_of_not_mem (by decide)
  have hpath : (Endpoint.ofPath? "/api/v1/sites/demo/download-link").bind Endpoint.plain? =
      some (.downloadLink "demo") := by
    rw [hescaped, Option.bind_some, Endpoint.plain?, hplain]
    rfl
  have hjson : (some "application/json").any MediaType.isJson = true := by decide +kernel
  exact ⟨rfl, hpath, hjson, rfl⟩

/-- Fields of all kinds. -/
def filmFields : Fields :=
  [("id", .str "7"), ("title", .str "Film"), ("link", .str "magnet:?xt=urn:btih:7"),
    ("size", .ofUInt64 0xffffffffffffffff), ("time", .ofInt64 (-1)),
    ("tags", .arr [.str "free", .obj [("name", .str "hd"), ("color", .str "red")]]),
    ("status", .str "Seeding"), ("progress", .str "99.5 %"),
    ("ext_ids", .obj [("imdb", .str "tt1"), ("votes", .arr [.ofInt64 5, .null])])]

def film : Torrent := .ofFields "demo" filmFields

theorem torrent_handed_back_of_film :
    (∀ p ∈ filmFields, p.2.isProper = true) ∧ HandsBack (handBack film) "demo" film ∧
      Torrent.decode film.encode = some film ∧
      respond counting filmDeployment (handBack film) ⟨[], 0⟩ =
        (.ok (.obj [("link", .str "magnet:?xt=urn:btih:7")]), ⟨[], 0⟩) := by
  have hfields : ∀ p ∈ filmFields, p.2.isProper = true := by decide +kernel
  have hcall := handsBack_handBack film
  have hfits : (handBack film).body.utf8ByteSize ≤ bodyLimit := by decide +kernel
  have hshallow : ∀ p ∈ film.ext, p.2.depth ≤ identifierDepth := by decide +kernel
  have hlink : film.link = some "magnet:?xt=urn:btih:7" := by decide +kernel
  have hurl : absoluteUrl "https://tracker.example/" "magnet:?xt=urn:btih:7" =
      "magnet:?xt=urn:btih:7" := by decide +kernel
  obtain ⟨hback, hanswers⟩ := torrent_handed_back "demo" hfields
  obtain ⟨-, hread⟩ := hanswers counting filmDeployment ⟨[], 0⟩ hcall
  obtain ⟨-, hlinks⟩ := (hread hfits).2 hshallow filmSite rfl
  refine ⟨hfields, hcall, hback, ?_⟩
  have hanswer := hlinks _ hlink (by decide +kernel)
  rwa [show filmSite.metadata.baseUrl?.getD "" = "https://tracker.example/" from rfl, hurl] at hanswer

/-- Arrays inside one another. -/
def nest : Nat → Json
  | 0 => .arr []
  | n + 1 => .arr [nest n]

def nestedFields : Fields :=
  [("id", .str "1"), ("title", .str "T"), ("link", .str "https://tracker.example/dl/1"),
    ("ext_a", nest 125)]

def nested : Torrent := .ofFields "demo" nestedFields

/-- With one level more than there may be the torrent is not taken back, though it has its link. -/
theorem torrent_refused_of_nested :
    (∀ p ∈ nestedFields, p.2.isProper = true) ∧ HandsBack (handBack nested) "demo" nested ∧
      nested.link = some "https://tracker.example/dl/1" ∧
      (respond counting filmDeployment (handBack nested) ⟨[], 0⟩).1.status = 400 ∧
      (linkAnswer counting filmSite nested ⟨[], 0⟩).1.status = 200 := by
  have hfields : ∀ p ∈ nestedFields, p.2.isProper = true := by decide +kernel
  have hcall := handsBack_handBack nested
  have hlink : nested.link = some "https://tracker.example/dl/1" := by decide +kernel
  have hfits : (handBack nested).body.utf8ByteSize ≤ bodyLimit := by decide +kernel
  have hdeep : ¬ (Json.obj [("torrent", nested.encode)]).depth ≤ Json.maxDepth := by decide +kernel
  refine ⟨hfields, hcall, hlink, ?_, ?_⟩
  · rw [hcall.respond_of_refused (by rw [hcall.value_eq, if_neg (Nat.not_lt.mpr hfits), if_neg hdeep])]
    rfl
  · rw [linkAnswer_of_link hlink (by decide +kernel)]
    rfl

end Service

end SiteScrape
