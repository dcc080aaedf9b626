import SiteScrape.Proofs.AbsentField
import SiteScrape.Proofs.ReadTexts

/-!
# Fields that are texts

A text that a page shows for a title or a name passes through the reading of
whole numbers on its way to the finished record. `texts_read` says what is left
of it: the text without the blanks around it, and a whole number of 64 bits in
its shortest form. Identifiers are not read that way and keep their text.
-/

namespace SiteScrape

open Talk
open Rows (Reader Share bodyFields)

/-- The fields of a torrent that are texts, identifiers apart. -/
inductive TorrentText where
  | title
  | subTitle
  | author
  | category
  deriving DecidableEq

namespace TorrentText

def key : TorrentText → String
  | title => "title"
  | subTitle => "subTitle"
  | author => "author"
  | category => "category"

/-- The text in a torrent. -/
def of? (t : Torrent) : TorrentText → Option String
  | title => some t.title
  | subTitle => t.subTitle
  | author => t.author
  | category => t.category

end TorrentText

/-- The fields of account data that are texts, identifiers apart. -/
inductive AccountText where
  | name
  | levelName
  deriving DecidableEq

namespace AccountText

def key : AccountText → String
  | name => "name"
  | levelName => "levelName"

/-- The text in account data. -/
def of? (u : UserInfo) : AccountText → Option String
  | name => u.name
  | levelName => u.levelName

end AccountText

/-! ### Torrents -/

section

variable {r : Reader} {m : Metadata} {record : Fields} {v : Json} {key t : String}

/-- Addresses are made absolute in two other fields. -/
theorem get?_withAbsoluteUrls (hurl : key ≠ "url") (hlink : key ≠ "link") (base : String) :
    (Reader.withAbsoluteUrls base record).get? key = record.get? key := by
  unfold Reader.withAbsoluteUrls
  simp [Assoc.get?_modify, Ne.symm hurl, Ne.symm hlink]

theorem TorrentText.of?_torrent (field : TorrentText) (h : record.get? field.key = some v)
    (hv : Lenient.text? v = some t) : field.of? (r.torrent m record) = some t := by
  have hget (base : String) : (Reader.withAbsoluteUrls base record).get? field.key = some v := by
    rw [get?_withAbsoluteUrls (by cases field <;> decide) (by cases field <;> decide), h]
  cases field <;>
    simp only [TorrentText.key] at hget <;>
    simp [TorrentText.of?, Reader.torrent, Torrent.ofFields, hget, hv]

theorem id_torrent (h : record.get? "id" = some v) (hv : Lenient.text? v = some t) :
    (r.torrent m record).id = t := by
  have hget (base : String) : (Reader.withAbsoluteUrls base record).get? "id" = some v := by
    rw [get?_withAbsoluteUrls (by decide) (by decide), h]
  simp [Reader.torrent, Torrent.ofFields, hget, hv]

/-- Outside identifiers keep the values of the record. -/
theorem get?_ext_torrent (honce : Assoc.KeysOnce record)
    (hkey : (Text.stripLead Torrent.extLead key).isSome) (h : record.get? key = some v)
    (hv : v.isNull = false) : (r.torrent m record).ext.get? key = some v := by
  have hurl : key ≠ "url" := by rintro rfl; exact absurd hkey (by decide)
  have hlink : key ≠ "link" := by rintro rfl; exact absurd hkey (by decide)
  have honce' (base : String) : Assoc.KeysOnce (Reader.withAbsoluteUrls base record) := by
    unfold Reader.withAbsoluteUrls
    exact Assoc.KeysOnce.modify (Assoc.KeysOnce.modify honce _ _) _ _
  unfold Reader.torrent Torrent.ofFields
  dsimp only
  rw [((honce' _).filter _).get?_sorted, (honce' _).get?_filter,
    get?_withAbsoluteUrls hurl hlink, h]
  simp [Option.filter_some, hkey, hv]

end

/-! ### Account data -/

theorem AccountText.of?_ofFields (field : AccountText) {site : String} {status : QueryStatus}
    {fields : Fields} {now : Int} {v : Json} {t : String}
    (h : fields.get? field.key = some v) (hv : Lenient.text? v = some t) :
    field.of? (.ofFields site status fields now) = some t := by
  cases field <;>
    simp only [AccountText.key] at h <;>
    simp [AccountText.of?, UserInfo.ofFields, UserInfo.fillRatios, h, hv]

namespace Site

variable {s : Site} {plan : AccountPlan} {now : Int} {previous : Option UserInfo} {i j k : Nat}
  {c d e : Collected} {turns later : List Turn} {turn : Turn} {f place t : String} {page : Visit}
  {F : Field}

/-- A text that a page shows for an unknown field is collected, and kept. -/
theorem get?_of_shown (hhook : s.hooks.accountFields.get? f = none) (hnew : c.value? f = none)
    (ht : s.Takes now plan j c turn d) (hreads : turn.Reads plan f page F)
    (hwin : F.winner? s.hooks.resolver now page.source = some (place, .str t))
    (hfilters : F.filtersAt place = []) (hl : s.Walk now plan (j + 1) d later k e) :
    Assoc.get? e f = some ((accountCoercion f).finish (.str t)) ∧
      Text.isBlankText t = false := by
  have hblank : Text.isBlankText t = false := Field.not_blank_of_winner? hwin
  have hshows : s.Shows now plan f turn ((accountCoercion f).finish (.str t)) :=
    ⟨page, F, place, .str t, hreads, hwin, by rw [hfilters]; rfl, isNothing_finish hblank⟩
  have hd : d.value? f = some ((accountCoercion f).finish (.str t)) := by
    rw [ht.value?_eq hhook, hnew, Option.none_or, hshows.gained?]
  exact ⟨(Collected.value?_eq_some_iff.mp (hl.grows.kept f _ hd)).1, hblank⟩

end Site

/-! ### What is left of a text -/

/-- Of a text that the rows of a share show for a text field, no filter running
on it, the finished torrent has what the reading of whole numbers leaves;
identifiers keep the text itself. The torrents stand in the order of the shares
whose rows are found. The same is so for the account data that a
query makes after a page has shown a text for a field that was unknown until
then. -/
theorem texts_read :
    (∀ (r : Reader) (m : Metadata) (rows : RowSource) (fields : Assoc Field) (body : Body)
      (shares : List Share) (n i : Nat) (share : Share),
      r.Divides rows body shares n → shares[i]? = some share → share.isFound →
      ∃ torrents torrent, r.torrents m ⟨some rows, fields⟩ body = .ok torrents ∧
        torrents[(shares.take i).countP Share.isFound]? = some torrent ∧
        (∀ (field : TorrentText) t, r.hooks.torrentFields.get? field.key = none →
          r.Reads (bodyFields rows fields body) field.key t share →
          field.of? torrent = some (Coercion.numeric.textOf t)) ∧
        (∀ t, r.hooks.torrentFields.get? "id" = none →
          r.Reads (bodyFields rows fields body) "id" t share → torrent.id = Text.trim t) ∧
        ∀ key t, (Text.stripLead Torrent.extLead key).isSome →
          r.hooks.torrentFields.get? key = none →
          r.Reads (bodyFields rows fields body) key t share →
          torrent.ext.get? key = some (.str (Text.trim t))) ∧
    ∀ (s : Site) (plan : AccountPlan) (now : Int) (previous : Option UserInfo)
      (field : AccountText) (turns later : List Turn) (turn : Turn) (j k : Nat)
      (c d e : Collected) (page : Visit) (F : Field) (place t : String) (last : List Event)
      (status : QueryStatus),
      s.metadata.userInfo = some plan → s.metadata.allowsUserInfo = true →
      s.hooks.accountFields.get? field.key = none →
      s.Walk now plan 0 (.carriedOver plan previous) turns j c → c.value? field.key = none →
      s.Takes now plan j c turn d → turn.Reads plan field.key page F →
      F.winner? s.hooks.resolver now page.source = some (place, .str t) →
      F.filtersAt place = [] → s.Walk now plan (j + 1) d later k e →
      s.Halts now plan k e last (.ok (status, e)) →
      ∃ u, (s.accountInfo now previous).Held (eventsOf (turns ++ turn :: later) ++ last) (.ok u) ∧
        field.of? u = some (Coercion.numeric.textOf t) := by
  constructor
  · intro r m rows fields body shares n i share hdivides hshare hfound
    obtain ⟨torrents, record, htorrents, hi, hgives, honce⟩ :=
      Rows.exists_torrent fields m hdivides hshare hfound
    refine ⟨torrents, _, htorrents, hi, fun field t hhook hreads => ?_, fun t hhook hreads => ?_,
      fun key t hkey hhook hreads => ?_⟩
    · have hcoercion : Rows.coercionOf field.key = .numeric := by cases field <;> decide
      have hget := hgives.get?_of_reads hhook hreads
      rw [hcoercion] at hget
      exact field.of?_torrent hget (text?_finish hreads.not_blank)
    · have hget := hgives.get?_of_reads hhook hreads
      exact id_torrent hget (text?_finish (c := .keep) hreads.not_blank)
    · have hcoercion : Rows.coercionOf key = .keep := by simp [Rows.coercionOf, hkey]
      have hget := hgives.get?_of_reads hhook hreads
      rw [hcoercion] at hget
      exact get?_ext_torrent honce hkey hget rfl
  · intro s plan now previous field turns later turn j k c d e page F place t last status hplan
      hallowed hhook hw hnew ht hreads hwin hfilters hl hhalts
    obtain ⟨hget, hblank⟩ := Site.get?_of_shown hhook hnew ht hreads hwin hfilters hl
    refine ⟨_, (Site.accountInfo_held_iff hplan hallowed).mpr
      ⟨turns ++ turn :: later, k, e, last, _, hw.append (.turn ht hl), hhalts, rfl, rfl⟩, ?_⟩
    have hcoercion : Site.accountCoercion field.key = .numeric := by cases field <;> decide
    rw [hcoercion] at hget
    exact field.of?_ofFields hget (text?_finish hblank)

namespace Sample

/-- A body with one torrent that is called by a number. -/
def agents : Json := .obj [("rows", .arr [.obj [("id", .str "007"), ("title", .str "007")]])]

def agentFields : Assoc Field :=
  [("id", { selectors := ["id"] }), ("title", { selectors := ["title"] })]

/-- A plan that reads the name off a page. -/
def agentPlan : AccountPlan where
  process := [{ requestConfig := jsonPage "/me", fields := ["name"] }]
  selectors := [("name", { selectors := ["name"] })]

def agentSite : Site where
  metadata := { id := "demo", userInfoAllowed := some true, userInfo := some agentPlan }

def agentPage : Json := .obj [("name", .str "007")]

def agentEvents : List Event :=
  [.acquired "demo",
    .exchanged { url := "/me", responseKind := .json } (.ok { body := agentPage.text })]

/-- The page is read, and the name is there. -/
def agentTurn : Turn where
  step := { requestConfig := jsonPage "/me", fields := ["name"] }
  known := []
  visit := some { request := jsonPage "/me", events := agentEvents, source := .json agentPage }

end Sample

open Sample

theorem agentSite_takes :
    agentSite.Takes 0 agentPlan 0 [] agentTurn [("name", .ofInt64 7)] := by
  have hauthorized : (agentSite.authorize (agentSite.addBase (jsonPage "/me"))).run.Held
      [] (.ok (jsonPage "/me")) := held_pure_iff.mpr ⟨rfl, rfl⟩
  have hsends : agentSite.Sends (jsonPage "/me") ([] ++ agentEvents)
      (.answered ⟨jsonPage "/me", .json, { body := agentPage.text }⟩) := .answered hauthorized rfl
  have hbody : Body.ofText .json agentPage.text = .ok (.json agentPage) := by cbv
  have hcollect : agentSite.collect 0 (agentPlan.fieldsOf agentTurn.step) (.json agentPage)
      agentTurn.step [] = [("name", .ofInt64 7)] := by cbv
  rw [← hcollect]
  exact .read rfl rfl rfl (Site.send_held_iff.mpr ⟨_, hsends, rfl⟩) hbody

theorem texts_read_of_agent :
    (∃ torrents torrent,
      (⟨{}, { now := 0 }⟩ : Reader).torrents { id := "demo" }
        ⟨some { selectors := ["rows"] }, agentFields⟩ (.json agents) = .ok torrents ∧
      torrents[0]? = some torrent ∧ torrent.title = "7" ∧ torrent.id = "007") ∧
    ∃ u, (agentSite.accountInfo 0 none).Held agentEvents (.ok u) ∧ u.name = some "7" := by
  obtain ⟨htorrent, haccount⟩ := texts_read
  have hseven : Coercion.numeric.textOf "007" = "7" := by decide +kernel
  constructor
  · have hrows : (⟨{}, { now := 0 }⟩ : Reader).ItemRows { selectors := ["rows"] } agents
        [.obj [("id", .str "007"), ("title", .str "007")]] := Rows.itemRows_iff.mpr (by cbv)
    obtain ⟨torrents, torrent, htorrents, hi, htitle, hid, -⟩ :=
      htorrent ⟨{}, { now := 0 }⟩ { id := "demo" } { selectors := ["rows"] } agentFields
        (.json agents) _ _ 0 _ (.list hrows (by simp)) rfl rfl
    have hread (key : String) (hkey : key = "id" ∨ key = "title") :
        (⟨{}, { now := 0 }⟩ : Reader).Reads agentFields key "007"
          (.row (.json (.obj [("id", .str "007"), ("title", .str "007")]))) := by
      rcases hkey with rfl | rfl
      · exact .row ⟨_, rfl, "id", by cbv, rfl⟩
      · exact .row ⟨_, rfl, "title", by cbv, rfl⟩
    refine ⟨torrents, torrent, htorrents, hi, ?_, ?_⟩
    · exact Option.some.inj ((htitle .title "007" rfl (hread _ (.inr rfl))).trans (by rw [hseven]))
    · exact (hid "007" rfl (hread _ (.inl rfl))).trans (by decide +kernel)
  · obtain ⟨u, hheld, hname⟩ := haccount agentSite agentPlan 0 none .name [] [] agentTurn 0 1 []
      [("name", .ofInt64 7)] _ ⟨jsonPage "/me", agentEvents, .json agentPage⟩
      { selectors := ["name"] } "name" "007" [] .success rfl rfl rfl (.stay ..) rfl
      agentSite_takes ⟨rfl, by decide, rfl⟩ (by cbv) rfl (.stay ..) (.finished (by decide))
    exact ⟨u, hheld, hname.trans (by rw [hseven])⟩

/-- A title that consists of digits loses the zeros in front. -/
theorem title_of_digits :
    (match (⟨{}, { now := 0 }⟩ : Reader).torrents { id := "demo" }
        ⟨some { selectors := ["rows"] }, agentFields⟩ (.json agents) with
      | .ok torrents => torrents.map (·.title)
      | .error _ => []) = ["7"] ∧ Text.trim "007" = "007" := by
  refine ⟨by decide +kernel, by decide +kernel⟩

end SiteScrape
