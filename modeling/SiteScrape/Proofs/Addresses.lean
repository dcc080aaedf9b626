import SiteScrape.Proofs.ReadTexts
import SiteScrape.Proofs.WebUrls

/-!
# Addresses of torrents

What a reference on a page means follows from the address of the page
(`Means`). A torrent whose row shows a reference for one of its two addresses
has what the reference means, unless the reference spells a whole number: then
the number is taken for the address, and resolved by nothing
(`addresses_read`).
-/

namespace SiteScrape

open Rows (Reader Share bodyFields)

/-- The addresses of a torrent. -/
inductive TorrentAddress where
  | url
  | link
  deriving DecidableEq

namespace TorrentAddress

def key : TorrentAddress → String
  | url => "url"
  | link => "link"

def of? (t : Torrent) : TorrentAddress → Option String
  | url => t.url
  | link => t.link

end TorrentAddress

/-- What a reference without blanks around it means on a page at `base`. -/
inductive Means (base : Url) (t : String) : String → Prop where
  /-- A magnet link means itself. -/
  | magnet (h : (Text.stripLead "magnet:" t).isSome) : Means base t t
  /-- Behind two slashes stands an address of the scheme of the page. -/
  | sameScheme {rest : String} (h : Text.stripLead "//" t = some rest) :
      Means base t (base.scheme ++ "://" ++ rest)
  /-- All else that is relative, or leads to the web, means what it leads to. -/
  | resolved {u : Url} (hmagnet : Text.stripLead "magnet:" t = none)
      (hslashes : Text.stripLead "//" t = none)
      (hweb : Url.scheme? (Url.significant t) = none ∨ u.kind = .web)
      (h : Url.join base t = .ok u) : Means base t u.text

variable {base : Url} {t address : String}

/-! ### Meanings are addresses -/

theorem stripLead_eq_some_iff {lead s rest : String} :
    Text.stripLead lead s = some rest ↔ s = lead ++ rest := by
  unfold Text.stripLead
  rw [Option.map_eq_some_iff]
  constructor
  · rintro ⟨cs, hcs, rfl⟩
    rw [Text.afterLead_eq_some] at hcs
    exact String.toList_inj.mp (by simpa using hcs)
  · rintro rfl
    exact ⟨rest.toList, Text.afterLead_eq_some.mpr (by simp), by simp⟩

theorem range_of_isAlpha {c : Char} (h : c.isAlpha) : 65 ≤ c.toNat ∧ c.toNat ≤ 122 := by
  have hval : c.val.toNat = c.toNat := rfl
  have hbounds : 'A'.val.toNat = 65 ∧ 'Z'.val.toNat = 90 ∧ 'a'.val.toNat = 97 ∧
      'z'.val.toNat = 122 := by decide
  simp only [Char.isAlpha, Char.isUpper, Char.isLower, Bool.or_eq_true, Bool.and_eq_true,
    decide_eq_true_eq, ge_iff_le, UInt32.le_iff_toNat_le, hval] at h
  omega

theorem isBlank_of_isAlpha {c : Char} (h : c.isAlpha) : Text.isBlank c = false := by
  have hrange := range_of_isAlpha h
  refine Url.isBlank_of_plain ?_ ?_
  · simp only [Url.isPlain, Bool.and_eq_true, decide_eq_true_eq]
    omega
  · rintro rfl
    exact absurd hrange (by decide)

theorem isDigit_of_isAlpha {c : Char} (h : c.isAlpha) : c.isDigit = false := by
  have hrange := range_of_isAlpha h
  have hval : c.val.toNat = c.toNat := rfl
  have hnine : '9'.val.toNat = 57 := by decide
  simp only [Char.isDigit, Bool.and_eq_false_iff, decide_eq_false_iff_not, ge_iff_le,
    UInt32.le_iff_toNat_le, hval]
  omega

theorem Url.Framed.trim_eq {s : String} (h : Framed s) : Text.trim s = s := by
  obtain ⟨c, rest, hs, halpha⟩ := h.front
  have hends : Text.Ends Text.isBlank s.toList :=
    ⟨fun d hd => by
      rw [hs] at hd
      obtain rfl := Option.some.inj hd
      exact isBlank_of_isAlpha halpha, h.back⟩
  rw [Text.trim, hends.trimBoth_eq, String.ofList_toList]

theorem Url.Framed.ne_empty {s : String} (h : Framed s) : s ≠ "" := by
  obtain ⟨c, rest, hs, -⟩ := h.front
  rintro rfl
  simp at hs

/-- A trimmed text has no blank at its end. -/
theorem last_of_trim (ht : Text.trim t = t) {c : Char} (hc : t.toList.getLast? = some c) :
    Text.isBlank c = false := by
  rw [← ht, Text.trim, String.toList_ofList] at hc
  exact (Text.ends_trimBoth _ _).last c hc

/-- What a trimmed reference means begins with a letter, and has no blank at its
end. -/
theorem Means.framed (hbase : base.Proper) (ht : Text.trim t = t) (h : Means base t address) :
    Url.Framed address := by
  cases h with
  | magnet h =>
    obtain ⟨rest, hrest⟩ := Option.isSome_iff_exists.mp h
    rw [stripLead_eq_some_iff] at hrest
    exact ⟨⟨'m', "agnet:".toList ++ rest.toList, by rw [hrest, String.toList_append]; rfl,
      by decide⟩, fun c => last_of_trim ht⟩
  | @sameScheme rest h =>
    rw [stripLead_eq_some_iff] at h
    constructor
    · obtain ⟨c, more, hscheme, halpha⟩ := Url.head_of_web hbase.web
      simp only [String.toList_append, hscheme, List.cons_append]
      exact ⟨c, _, rfl, halpha⟩
    · intro c hc
      refine last_of_trim ht (c := c) ?_
      rw [h]
      simpa [List.getLast?_append] using hc
  | @resolved u _ _ hweb h =>
    refine Url.framed_text ?_
    rcases hweb with hrel | hweb
    · exact Url.proper_of_relative hbase hrel h
    · exact Url.proper_of_join hbase hweb h

/-- Made absolute, a reference is what it means. -/
theorem absoluteUrl_eq {final : String} (hfinal : Url.parse? final = some base)
    (hblank : Text.trim t ≠ "") (h : Means base (Text.trim t) address) :
    absoluteUrl final t = address := by
  unfold absoluteUrl
  generalize Text.trim t = s at hblank h
  cases h with
  | magnet h => simp [h]
  | sameScheme h =>
    have hmagnet : Text.stripLead "magnet:" s = none := by
      refine Option.eq_none_iff_forall_ne_some.mpr fun rest hrest => ?_
      rw [stripLead_eq_some_iff] at h hrest
      have hheads := congrArg (·.toList.head?) (h.symm.trans hrest)
      simp at hheads
    simp [hmagnet, hblank, hfinal, h]
  | resolved hmagnet hslashes _ h => simp [hmagnet, hblank, hfinal, hslashes, h]

/-- A number is no meaning: no letter stands in front of it. -/
theorem Url.Framed.ne_number {s : String} (h : Framed s) (n : Int) : s ≠ toString n := by
  obtain ⟨c, rest, hs, halpha⟩ := h.front
  rintro rfl
  cases n with
  | ofNat n =>
    have hdigits : (toString (Int.ofNat n)).toList = Nat.toDigits 10 n := by
      simp [Int.repr]
    have hdigit : c.isDigit := Nat.isDigit_of_mem_toDigits (b := 10) (n := n) (by decide)
      (by decide) (by rw [← hdigits, hs]; exact List.mem_cons_self)
    rw [isDigit_of_isAlpha halpha] at hdigit
    cases hdigit
  | negSucc n =>
    have hminus : (toString (Int.negSucc n)).toList.head? = some '-' := by simp [Int.repr]
    rw [hs] at hminus
    obtain rfl := Option.some.inj hminus
    exact absurd halpha (by decide)

/-! ### Words for references -/

namespace Url

variable {k : SchemeKind} {segments : List String} {word : List Char} {segment : String}

/-- What nothing divides is one segment. -/
theorem readSegments_word {cs : List Char}
    (h : ∀ c ∈ cs, (c = '?' || c = '#' || isSlash k c) = false) :
    readSegments k segments word cs =
      addSegment k segments (readSegments.segmentText (cs.reverse ++ word)) true := by
  induction cs generalizing word with
  | nil => rfl
  | cons c cs ih =>
    obtain ⟨hc, hcs⟩ := List.forall_mem_cons.mp h
    simp only [Bool.or_eq_false_iff, decide_eq_false_iff_not] at hc
    rw [readSegments, if_neg (by simp [hc]), if_neg (by simp [hc]), ih hcs]
    simp

theorem addSegment_plain {last : Bool} (hdouble : isDoubleDot segment = false)
    (hdot : isDot segment = false) :
    addSegment .web segments segment last = segments ++ [segment] := by
  simp [addSegment, hdouble, hdot]

theorem withTail_plain {cs : List Char} (h : ∀ c ∈ cs, (c = '?' || c = '#') = false) (u : Url) :
    withTail u cs = { u with fragment := none } := by
  have hrest : cs.dropWhile (fun c => !(c = '?' || c = '#')) = [] :=
    List.dropWhile_eq_nil_iff.mpr fun c hc => by rw [h c hc]; rfl
  simp only [withTail, splitAtAny, hrest, withTail.fragmentOf]

/-- A word leads to what stands beside the page. -/
theorem join_word (hbase : base.Proper) (hpath : base.path = .segments segments)
    (ht : significant t = word) (hne : word ≠ []) (hscheme : scheme? word = none)
    (hword : (word.any fun c => c = '?' || c = '#' || isSlash .web c) = false)
    (hsegment : String.ofList (Percent.encodeChars keepInPath word) = segment)
    (hdouble : isDoubleDot segment = false) (hdot : isDot segment = false) :
    join base t =
      .ok { base with
        path := .segments (segments.dropLast ++ [segment]), query := none, fragment := none } := by
  replace hword : ∀ c ∈ word, (c = '?' || c = '#' || isSlash .web c) = false := by
    simpa only [Bool.not_eq_true] using List.any_eq_false.mp hword
  have hread : readSegments .web segments.dropLast [] word = segments.dropLast ++ [segment] := by
    rw [readSegments_word hword, List.append_nil, readSegments.segmentText, List.reverse_reverse,
      hsegment, addSegment_plain hdouble hdot]
  have htail := withTail_plain fun c hc => (Bool.or_eq_false_iff.mp (hword c hc)).1
  obtain ⟨c, rest, rfl⟩ := List.exists_cons_of_ne_nil hne
  obtain ⟨⟨hquestion, hhash⟩, hslash⟩ : (c ≠ '?' ∧ c ≠ '#') ∧ isSlash .web c = false := by
    simpa using hword c List.mem_cons_self
  have hslashes : ¬ (decide (c = '/') || decide (c = '\\')) = true := by
    simpa [isSlash, SchemeKind.isSpecial] using hslash
  unfold join parseWith
  simp only [ht, hscheme, hpath]
  split
  · next h => exact absurd (List.cons.inj h).1 hhash
  · next h _ => cases h
  · rw [if_neg (by simpa using hbase.scheme_ne_file)]
    unfold relativeTo
    split
    · next h => cases h
    · next h => exact absurd (List.cons.inj h).1 hhash
    · next h => exact absurd (List.cons.inj h).1 hquestion
    · next h =>
      obtain ⟨rfl, rfl⟩ := List.cons.inj h
      simp only [if_neg hslashes, htail, hpath, hbase.web, hread]
end Url

/-! ### Addresses in torrents -/

section

variable {r : Reader} {record : Fields}

/-- A text in the record becomes absolute. -/
theorem TorrentAddress.of?_torrent_text (field : TorrentAddress) (m : Metadata)
    (h : record.get? field.key = some (.str t)) :
    field.of? (r.torrent m record) = Lenient.text? (.str (absoluteUrl (r.baseUrl m) t)) := by
  cases field <;>
    simp only [TorrentAddress.key] at h <;>
    simp [TorrentAddress.of?, Reader.torrent, Torrent.ofFields, Reader.withAbsoluteUrls,
      Assoc.get?_modify, h]

/-- A number in the record stays. -/
theorem TorrentAddress.of?_torrent_number (field : TorrentAddress) (m : Metadata) {n : Int64}
    (h : record.get? field.key = some (.ofInt64 n)) :
    field.of? (r.torrent m record) = some (toString n.toInt) := by
  rw [← text?_ofInt64]
  cases field <;>
    simp only [TorrentAddress.key] at h <;>
    simp [TorrentAddress.of?, Reader.torrent, Torrent.ofFields, Reader.withAbsoluteUrls,
      Assoc.get?_modify, h, Json.ofInt64]

end

theorem baseUrl_of_parse {r : Reader} (m : Metadata)
    (h : Url.parse? r.context.finalUrl = some base) : r.baseUrl m = r.context.finalUrl := by
  have hne : r.context.finalUrl ≠ "" := by
    intro hempty
    rw [hempty] at h
    have hnone : Url.parse? "" = none := by rfl
    rw [hnone] at h
    cases h
  simp [Reader.baseUrl, hne]

/-- The address in the torrent of a share that shows a reference for it, no
filter running on it, on a page of the web: it is what the reference means
exactly if the reference spells no whole number of 64 bits. If it does, the
address is that number, which means nothing. -/
theorem addresses_read {r : Reader} {m : Metadata} {rows : RowSource} {fields : Assoc Field}
    {body : Body} {shares : List Share} {n i : Nat} {share : Share}
    (hdivides : r.Divides rows body shares n) (hshare : shares[i]? = some share)
    (hfinal : Url.parse? r.context.finalUrl = some base) (hweb : base.kind = .web)
    (field : TorrentAddress) (hhook : r.hooks.torrentFields.get? field.key = none)
    (hreads : r.Reads (bodyFields rows fields body) field.key t share)
    (hmeans : Means base (Text.trim t) address) :
    ∃ torrents torrent, r.torrents m ⟨some rows, fields⟩ body = .ok torrents ∧
      torrents[(shares.take i).countP Share.isFound]? = some torrent ∧
      (field.of? torrent = some address ↔ Decimal.int64? (Text.trim t) = none) ∧
      ∀ number, Decimal.int64? (Text.trim t) = some number →
        field.of? torrent = some (toString number.toInt) := by
  have hproper : base.Proper := Url.proper_of_parse? hweb hfinal
  have hframed := hmeans.framed hproper (Text.trim_trim t)
  have htrim := trim_ne_empty hreads.not_blank
  have hcoercion : Rows.coercionOf field.key = .numeric := by cases field <;> decide
  obtain ⟨torrents, record, htorrents, hi, hgives, -⟩ :=
    Rows.exists_torrent fields m hdivides hshare hreads.isFound
  have hget := hgives.get?_of_reads hhook hreads
  rw [hcoercion, finish_numeric] at hget
  refine ⟨torrents, _, htorrents, hi, ?_⟩
  cases hnumber : Decimal.int64? (Text.trim t) with
  | none =>
    rw [hnumber] at hget
    have haddress : field.of? (r.torrent m record) = some address := by
      rw [field.of?_torrent_text m hget, baseUrl_of_parse m hfinal,
        absoluteUrl_eq hfinal (by rwa [Text.trim_trim]) (by rwa [Text.trim_trim])]
      simp [Lenient.text?, hframed.trim_eq, hframed.ne_empty]
    exact ⟨by simp [haddress], by simp⟩
  | some number =>
    rw [hnumber] at hget
    have haddress := field.of?_torrent_number (r := r) m hget
    refine ⟨iff_of_false ?_ (by simp), ?_⟩
    · rw [haddress]
      exact fun h => hframed.ne_number number.toInt (Option.some.inj h).symm
    · rintro _ ⟨⟩
      exact haddress

namespace Sample

/-- The address of a page. -/
def homeUrl : Url :=
  { scheme := "https", host := some (.name "t.example"), path := .segments [""] }

/-- Reads what was found there. -/
def homeReader : Reader := ⟨{}, { finalUrl := "https://t.example", now := 0 }⟩

/-- A body with one torrent that shows a reference. -/
def linked (reference : String) : Json :=
  .obj [("rows", .arr [.obj [("link", .str reference)]])]

def linkFields : Assoc Field := [("link", { selectors := ["link"] })]

theorem parse?_homeUrl : Url.parse? "https://t.example" = some homeUrl := by cbv

theorem proper_homeUrl : homeUrl.Proper := Url.proper_of_parse? rfl parse?_homeUrl

end Sample

open Sample

theorem addresses_read_of_word :
    ∃ torrents torrent,
      homeReader.torrents { id := "demo" } ⟨some { selectors := ["rows"] }, linkFields⟩
        (.json (linked "ubuntu.torrent")) = .ok torrents ∧
      torrents[0]? = some torrent ∧ torrent.link = some "https://t.example/ubuntu.torrent" := by
  have hrows : homeReader.ItemRows { selectors := ["rows"] } (linked "ubuntu.torrent")
      [.obj [("link", .str "ubuntu.torrent")]] := Rows.itemRows_iff.mpr (by cbv)
  have hreads : homeReader.Reads linkFields "link" "ubuntu.torrent"
      (.row (.json (.obj [("link", .str "ubuntu.torrent")]))) :=
    .row ⟨_, rfl, "link", by cbv, rfl⟩
  have htrim : Text.trim "ubuntu.torrent" = "ubuntu.torrent" := by cbv
  have hword : Url.significant "ubuntu.torrent" = "ubuntu.torrent".toList := by cbv
  have hjoin : Url.join homeUrl "ubuntu.torrent" =
      .ok { homeUrl with path := .segments ["ubuntu.torrent"] } :=
    Url.join_word proper_homeUrl rfl hword (by decide) (by cbv) (by decide) (by cbv) (by cbv)
      (by cbv)
  have htext : Url.text { homeUrl with path := .segments ["ubuntu.torrent"] } =
      "https://t.example/ubuntu.torrent" := by cbv
  have hmeans : Means homeUrl (Text.trim "ubuntu.torrent") "https://t.example/ubuntu.torrent" := by
    rw [htrim, ← htext]
    exact .resolved (by cbv) (by cbv) (.inl (by cbv)) hjoin
  obtain ⟨torrents, torrent, htorrents, hi, haddress, -⟩ :=
    addresses_read (i := 0) (m := { id := "demo" }) (.list hrows (by simp)) rfl parse?_homeUrl
      rfl .link rfl hreads hmeans
  exact ⟨torrents, torrent, htorrents, hi, haddress.mpr (by cbv)⟩

/-- A reference that is a number becomes no address. -/
theorem number_for_address :
    Means homeUrl "123" "https://t.example/123" ∧
      (match homeReader.torrents { id := "demo" } ⟨some { selectors := ["rows"] }, linkFields⟩
          (.json (linked "123")) with
        | .ok torrents => torrents.map (·.link)
        | .error _ => []) = [some "123"] := by
  have hword : Url.significant "123" = "123".toList := by cbv
  have hjoin : Url.join homeUrl "123" = .ok { homeUrl with path := .segments ["123"] } :=
    Url.join_word proper_homeUrl rfl hword (by decide) (by cbv) (by decide) (by cbv) (by cbv)
      (by cbv)
  have htext : Url.text { homeUrl with path := .segments ["123"] } = "https://t.example/123" := by
    cbv
  refine ⟨?_, by decide +kernel⟩
  rw [← htext]
  exact .resolved (by cbv) (by cbv) (.inl (by cbv)) hjoin

end SiteScrape
