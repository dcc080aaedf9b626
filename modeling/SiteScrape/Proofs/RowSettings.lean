import SiteScrape.Proofs.ResolvedSites
import SiteScrape.Proofs.RowLayers
import SiteScrape.Sample
import SiteScrape.Site.ListPage
import SiteScrape.Site.Search

/-!
# Row settings that a layer does not mention

A named entry, or a list block, can leave out any setting of the rows. Whether
such a setting keeps the value that it has in the search block depends on how a
part without it is written: `RowSetting.IsKept` says for each setting when it
does.
-/

namespace SiteScrape

open Decode Layers

namespace Decode

variable {α β : Type} {d : Decoder α} {j : Option Json} {names : List String} {key : String}
  {ReadOff : Fields → α → Prop}

/-- What a definition says at the end of a path of fields, each of a record with
the given field names. -/
def said? (v : Json) (path : List (List String × String)) : Option Json :=
  path.foldlM (fun v (names, key) => (record names v).bind (Assoc.get? · key)) v

theorem said?_cons (v : Json) (names : List String) (key : String)
    (path : List (List String × String)) :
    said? v ((names, key) :: path) =
      ((record names v).bind (Assoc.get? · key)).bind (said? · path) := rfl

/-- A part, or its default, seen from the value that it was read off. -/
theorem Reads.readOff {o : Option α} {value : α} (h : Reads d j o)
    (hpart : ∀ {v a}, d v = some a → ∃ e, record names v = some e ∧ ReadOff e a)
    (hvalue : ReadOff [] value) :
    ∃ e, ReadOff e (o.getD value) ∧ ∀ key path, j.bind (said? · ((names, key) :: path)) =
      (Assoc.get? e key).bind (said? · path) := by
  cases o with
  | some a =>
    obtain ⟨v, rfl, hv⟩ := h.exists_of_some
    obtain ⟨e, he, hread⟩ := hpart hv
    refine ⟨e, hread, fun key path => ?_⟩
    rw [Option.bind_some, said?_cons, he, Option.bind_some]
  | none =>
    refine ⟨[], hvalue, fun key path => ?_⟩
    -- nothing is read off null alone, and null is no record
    match j with
    | none | some .null => rfl
    | some (.bool _) | some (.num _) | some (.str _) | some (.arr _) | some (.obj _) =>
      obtain ⟨a, -, ha⟩ := Option.map_eq_some_iff.mp h
      cases ha

theorem eq_of_unsaid {e : Fields} {value a : α} (h : withDefault e key d value = some a)
    (hkey : (Assoc.get? e key).bind (said? · []) = none) : a = value := by
  have habsent : Assoc.get? e key = none := by
    cases he : Assoc.get? e key with
    | none => rfl
    | some v => rw [he] at hkey; cases hkey
  rw [withDefault, habsent] at h
  exact (Option.some.inj h).symm

end Decode

/-! ### The settings -/

namespace RowSource

/-- The grouping, with the defaults where there is none. -/
def grouping (r : RowSource) : Grouping := r.group.getD {}

/-- The marks of the columns, none where there are none. -/
def marks (r : RowSource) : ColumnMarks := r.columns.getD {}

end RowSource

/-- A setting of the rows. -/
inductive RowSetting where
  | groupClass
  | childClass
  | skipClass
  | childrenPath
  | inherit
  | compensateSpan
  | header
  | markers
  | merge
  | filter
  deriving DecidableEq, Repr

namespace RowSetting

/-- Where the description of the rows has the setting. -/
def path (x : RowSetting) : List (List String × String) :=
  let inGroup (key : String) := [(RowSource.fieldNames, "group"), (Grouping.fieldNames, key)]
  let inColumns (key : String) := [(RowSource.fieldNames, "columns"), (ColumnMarks.fieldNames, key)]
  match x with
  | groupClass => inGroup "groupClass"
  | childClass => inGroup "childClass"
  | skipClass => inGroup "skipClass"
  | childrenPath => inGroup "childrenPath"
  | inherit => inGroup "inherit"
  | compensateSpan => inGroup "compensateSpan"
  | header => inColumns "header"
  | markers => inColumns "markers"
  | merge => [(RowSource.fieldNames, "merge")]
  | filter => [(RowSource.fieldNames, "filter")]

/-- Where selectors have it. -/
def pathInReading (x : RowSetting) : List (List String × String) :=
  (RowReading.fieldNames, "rows") :: x.path

/-- Where a search entry has it. -/
def pathInEntry (x : RowSetting) : List (List String × String) :=
  (SearchEntry.fieldNames, "selectors") :: x.pathInReading

/-- The setting has the same value in both. -/
def Agree (x : RowSetting) (r r' : RowSource) : Prop :=
  match x with
  | groupClass => r.grouping.groupClass = r'.grouping.groupClass
  | childClass => r.grouping.childClass = r'.grouping.childClass
  | skipClass => r.grouping.skipClass = r'.grouping.skipClass
  | childrenPath => r.grouping.childrenPath = r'.grouping.childrenPath
  | inherit => r.grouping.inherit = r'.grouping.inherit
  | compensateSpan => r.grouping.compensateSpan = r'.grouping.compensateSpan
  | header => r.marks.header = r'.marks.header
  | markers => r.marks.markers = r'.marks.markers
  | merge => r.merge = r'.merge
  | filter => r.filter = r'.filter

/-- A setting that the upper layer does not mention keeps the value of the lower
one. A grouping of the upper layer brings the defaults of what it leaves out:
they replace values and stand before the inherited fields. -/
def IsKept (x : RowSetting) (lower upper : RowSource) : Prop :=
  match x with
  | groupClass | childClass | compensateSpan => upper.group = none ∨ x.Agree lower {}
  | inherit => upper.group = none ∨ lower.group = none
  | skipClass | childrenPath | header | markers | merge | filter => True

theorem isKept_default (x : RowSetting) (upper : RowSource) : x.IsKept {} upper := by
  cases x
  case groupClass | childClass | compensateSpan | inherit => exact .inr rfl
  all_goals trivial

/-- A setting that is not mentioned has its default. -/
theorem agree_default {j : Option Json} {r : Option RowSource} (h : Reads RowSource.decode j r)
    (x : RowSetting) (hx : j.bind (said? · x.path) = none) : x.Agree (r.getD {}) {} := by
  obtain ⟨e, he, hrows⟩ := h.readOff RowSource.readOff_of_decode RowSource.readOff_nil
  obtain ⟨g, hg, hgroup⟩ :=
    (reads_of_optional he.group).readOff Grouping.readOff_of_decode Grouping.readOff_nil
  obtain ⟨c, hc, hcolumns⟩ :=
    (reads_of_optional he.columns).readOff ColumnMarks.readOff_of_decode ColumnMarks.readOff_nil
  cases x <;> rw [path, hrows] at hx
  case groupClass => exact eq_of_unsaid hg.groupClass (hgroup .. ▸ hx)
  case childClass => exact eq_of_unsaid hg.childClass (hgroup .. ▸ hx)
  case skipClass => exact eq_of_unsaid hg.skipClass (hgroup .. ▸ hx)
  case childrenPath => exact eq_of_unsaid hg.childrenPath (hgroup .. ▸ hx)
  case inherit => exact eq_of_unsaid hg.inherit (hgroup .. ▸ hx)
  case compensateSpan => exact eq_of_unsaid hg.compensateSpan (hgroup .. ▸ hx)
  case header => exact eq_of_unsaid hc.header (hcolumns .. ▸ hx)
  case markers => exact eq_of_unsaid hc.markers (hcolumns .. ▸ hx)
  case merge => exact eq_of_unsaid he.merge hx
  case filter => exact eq_of_unsaid he.filter hx

section Layers

variable {α β : Type} {lower upper merged : Option α} {value : α}

/-- Where the upper layer counts, its default replaces what is below. -/
theorem eq_lower_iff_of_or {f : α → β} (h : merged.map f = (upper.map f).or (lower.map f))
    (hupper : f (upper.getD value) = f value) :
    f (merged.getD value) = f (lower.getD value) ↔
      upper = none ∨ f (lower.getD value) = f value := by
  rw [← Option.getD_map f value merged, h]
  cases upper with
  | none => simp [Option.getD_map]
  | some b =>
    have hb : f b = f value := hupper
    simp [hb, eq_comm]

/-- Where lists are joined, a default that is not empty comes on top of what is below. -/
theorem eq_lower_iff_of_join {f : α → List β}
    (h : merged.map f = (lower.map f).merge (fun a b => b ++ a) (upper.map f))
    (hupper : f (upper.getD value) = f value) (hvalue : f value ≠ []) :
    f (merged.getD value) = f (lower.getD value) ↔ upper = none ∨ lower = none := by
  rw [← Option.getD_map f value merged, h]
  cases upper with
  | none => cases lower <;> simp
  | some b =>
    have hb : f b = f value := hupper
    cases lower <;> simp [hb, hvalue]

/-- An empty list changes nothing. -/
theorem eq_lower_of_join {f : α → List β}
    (h : merged.map f = (lower.map f).merge (fun a b => b ++ a) (upper.map f))
    (hvalue : f value = []) (hupper : f (upper.getD value) = []) :
    f (merged.getD value) = f (lower.getD value) := by
  rw [← Option.getD_map f value merged, h, ← Option.getD_map f value lower]
  cases upper with
  | none => cases lower <;> rfl
  | some b =>
    have hb : f b = [] := hupper
    cases lower <;> simp [hb, hvalue]

/-- Nor does a value that is left behind. -/
theorem eq_lower_of_first {f : α → β}
    (h : merged.map f = (lower.map f).merge (fun a _ => a) (upper.map f))
    (hupper : f (upper.getD value) = f value) : f (merged.getD value) = f (lower.getD value) := by
  rw [← Option.getD_map f value merged, h, ← Option.getD_map f value lower]
  cases lower with
  | some a => cases upper <;> rfl
  | none =>
    cases upper with
    | none => rfl
    | some b => exact hupper

/-- Nor does an absent setting of the upper layer. -/
theorem eq_lower_of_or {f : α → Option β} (h : merged.bind f = (upper.bind f).or (lower.bind f))
    (hvalue : f value = none) (hupper : f (upper.getD value) = none) :
    f (merged.getD value) = f (lower.getD value) := by
  have hview (o : Option α) : f (o.getD value) = o.bind f := by cases o <;> simp [hvalue]
  rw [hview] at hupper
  rw [hview, hview, h, hupper, Option.none_or]

end Layers

/-- A setting that the upper layer leaves at its default has the value of the
lower one just where it is kept. -/
theorem agree_iff_isKept {lower upper merged : Option RowSource}
    (h : RowSource.Overlaid lower upper merged)
    (hsorted : ∀ c, lower.bind (·.columns) = some c → c.markers.Sorted) (x : RowSetting)
    (hx : x.Agree (upper.getD {}) {}) :
    x.Agree (merged.getD {}) (lower.getD {}) ↔ x.IsKept (lower.getD {}) (upper.getD {}) := by
  have hgroup (o : Option RowSource) : (o.getD {}).group = o.bind (·.group) := by cases o <;> rfl
  have hcolumns (o : Option RowSource) : (o.getD {}).columns = o.bind (·.columns) := by
    cases o <;> rfl
  cases x <;>
    simp only [Agree, IsKept, RowSource.grouping, RowSource.marks, hgroup, hcolumns, iff_true]
      at hx ⊢
  case groupClass => exact eq_lower_iff_of_or h.group.groupClass hx
  case childClass => exact eq_lower_iff_of_or h.group.childClass hx
  case compensateSpan => exact eq_lower_iff_of_or h.group.compensateSpan hx
  case inherit => exact eq_lower_iff_of_join h.group.inherit hx (by simp)
  case skipClass => exact eq_lower_of_or h.group.skipClass rfl hx
  case childrenPath => exact eq_lower_of_or h.group.childrenPath rfl hx
  case merge => exact eq_lower_of_or h.merge rfl hx
  case filter => exact eq_lower_of_or h.filter rfl hx
  case header => exact eq_lower_of_join h.columns.header rfl hx
  case markers =>
    refine eq_lower_of_first (h.columns.markers hsorted fun c hc => ?_) hx
    rwa [hc] at hx


end RowSetting

/-! ### Entries and list pages -/

namespace RowReading

/-- The description of the rows, with the defaults where there is none. -/
def source (r : RowReading) : RowSource := r.rows.getD {}

end RowReading

namespace SearchEntry

/-- The description of the rows, with the defaults where there is none. -/
def source (e : SearchEntry) : RowSource := (RowReading.rowsOf e.selectors).getD {}

end SearchEntry

namespace RowReading

/-- Markers of a reading that was read off a definition are in order. -/
theorem sorted_markers {v : Json} {r : RowReading} (h : decode v = some r) {c : ColumnMarks}
    (hc : r.rows.bind (·.columns) = some c) : c.markers.Sorted := by
  obtain ⟨src, hsrc, hcolumns⟩ := Option.bind_eq_some_iff.mp hc
  obtain ⟨e, -, he⟩ := readOff_of_decode h
  obtain ⟨w, -, hw⟩ := (hsrc ▸ reads_of_optional he.rows).exists_of_some
  obtain ⟨e', -, he'⟩ := RowSource.readOff_of_decode hw
  obtain ⟨w', -, hw'⟩ := (hcolumns ▸ reads_of_optional he'.columns).exists_of_some
  exact ColumnMarks.sorted_markers hw'

/-- A setting that a reading does not mention has its default. -/
theorem agree_default {j : Option Json} {r : Option RowReading} (h : Reads decode j r)
    {x : RowSetting} (hx : j.bind (said? · x.pathInReading) = none) :
    x.Agree ((rowsOf r).getD {}) {} := by
  obtain ⟨e, he, hrows⟩ := h.readOff readOff_of_decode readOff_nil
  have hview : rowsOf r = (r.getD {}).rows := by cases r <;> rfl
  rw [hview]
  exact RowSetting.agree_default (reads_of_optional he.rows) x (hrows .. ▸ hx)

/-- A setting that the upper one of two readings does not mention, both of them
read off a definition. -/
theorem agree_iff_isKept {lower upper merged : Option RowReading}
    (hlower : ∀ r, lower = some r → ∃ v, decode v = some r) {j : Option Json}
    (hupper : Reads decode j upper) (h : ReadsOver decode encode lower upper merged)
    {x : RowSetting} (hx : j.bind (said? · x.pathInReading) = none) :
    x.Agree ((rowsOf merged).getD {}) ((rowsOf lower).getD {}) ↔
      x.IsKept ((rowsOf lower).getD {}) ((rowsOf upper).getD {}) := by
  have hsorted (c : ColumnMarks) (hc : (rowsOf lower).bind (·.columns) = some c) :
      c.markers.Sorted := by
    obtain ⟨src, hsrc, hcolumns⟩ := Option.bind_eq_some_iff.mp hc
    obtain ⟨r, rfl, hrows⟩ := Option.bind_eq_some_iff.mp hsrc
    obtain ⟨v, hv⟩ := hlower r rfl
    exact sorted_markers hv (Option.bind_eq_some_iff.mpr ⟨src, hrows, hcolumns⟩)
  have horderly (r : RowReading) (hr : upper = some r) : r.Orderly := by
    obtain ⟨v, -, hv⟩ := (hr ▸ hupper).exists_of_some
    exact orderly_of_decode hv
  have hover := overlaid_of_reads
    (fun r hr => (hlower r hr).elim fun _ => orderly_of_decode) horderly h
  exact RowSetting.agree_iff_isKept hover hsorted x (agree_default hupper hx)

end RowReading

/-! ### Sites -/

namespace Site

variable {definition : Json} {user : Option Json} {hooks : Hooks} {s : Site} {search : SearchEntry}

/-- The search block of a site is read off a definition. -/
theorem exists_decode_search (hs : ofDefinition definition user hooks = .ok s)
    (hsearch : s.metadata.search = some search) : ∃ v, SearchEntry.decode v = some search := by
  obtain ⟨schema, m, -, hm, rfl⟩ := ofDefinition_eq_ok_iff.mp hs
  obtain ⟨-, -, -, -, hdecode⟩ := Definition.resolve_eq_ok_iff.mp hm
  have hread := reads_of_optional (Metadata.readOff_of_decode hdecode).search
  rw [metadata_ofMetadata] at hsearch
  obtain ⟨v, -, hv⟩ := (hsearch ▸ hread).exists_of_some
  exact ⟨v, hv⟩

/-- A setting of the rows that a named entry does not mention has, in the entry
that is searched with, the value of the search block just where it is kept; and
likewise one that the selectors of a list block do not mention, where they stand
on top of those of the search. So only optional settings and the marks of
columns are always kept. -/
theorem unmentioned_row_setting (hs : ofDefinition definition user hooks = .ok s)
    (hsearch : s.metadata.search = some search) (x : RowSetting) :
    (∀ name named written e, s.metadata.searchEntries.get? name = some named →
      SearchEntry.decode written = some named → said? written x.pathInEntry = none →
      s.entry (some (.obj [("id", .str name)])) = .ok e →
      (x.Agree e.source search.source ↔ x.IsKept search.source named.source)) ∧
    ∀ l own written reading, l.mergeSearchSelectors = true → l.selectors = some own →
      RowReading.decode written = some own → said? written x.pathInReading = none →
      s.listReading l = .ok reading →
      (x.Agree reading.source search.source ↔ x.IsKept search.source own.source) := by
  obtain ⟨v, hv⟩ := exists_decode_search hs hsearch
  obtain ⟨fields, -, hselectors⟩ := SearchEntry.readOff_of_decode hv
  have hread (r : RowReading) (hr : search.selectors = some r) :
      ∃ v, RowReading.decode v = some r := by
    obtain ⟨w, -, hw⟩ := (hr ▸ reads_of_optional hselectors).exists_of_some
    exact ⟨w, hw⟩
  refine ⟨fun name named written e hnamed hwritten hx he => ?_,
    fun l own written reading hmerged hown hwritten hx hl => ?_⟩
  · have hlayer : s.namedLayer? (.obj [("id", .str name)]) = some named.encode := by
      simp [namedLayer?, Assoc.get?, Json.asString?, hnamed]
    simp only [entry, hlayer, searchLayer, hsearch, Option.map_some, Option.getD_some,
      Option.toList_some, List.singleton_append] at he
    split at he
    · next hmerge =>
      cases he
      obtain ⟨fields', hfields', hselectors'⟩ := SearchEntry.readOff_of_decode hwritten
      have honce : Assoc.KeysOnce [("id", Json.str name)] := List.pairwise_singleton ..
      have hover := SearchEntry.readsOver_of_merge honce rfl hmerge
      refine RowReading.agree_iff_isKept hread (reads_of_optional hselectors') hover ?_
      rw [RowSetting.pathInEntry, said?_cons, hfields'] at hx
      exact hx
    · cases he
  · have hown' : Reads RowReading.decode (some written) (some own) :=
      reads_some hwritten (by rintro rfl; cases hwritten)
    simp only [listReading, hmerged, hsearch, hown, ↓reduceIte, Option.bind_some] at hl
    unfold SearchEntry.source
    cases hselectors' : search.selectors with
    | none =>
      -- the block stands alone, and below it all settings are at their defaults
      rw [hselectors'] at hl
      cases hl
      exact iff_of_true (RowReading.agree_default hown' hx) (x.isKept_default _)
    | some r =>
      rw [hselectors'] at hl
      dsimp only at hl
      split at hl
      · next hmerge =>
        cases hl
        obtain ⟨w, hw⟩ := hread r hselectors'
        have hover := RowReading.readsOver_of_merge (RowReading.orderly_of_decode hw)
          (RowReading.orderly_of_decode hwritten) hmerge
        exact RowReading.agree_iff_isKept (fun r' hr' => hread r' (hselectors'.trans hr')) hown'
          hover hx
      · cases hl

end Site

namespace Sample

/-- Only the class of rows to leave out. -/
def skippedEditions : Json :=
  .obj [("rows", .obj [("group", .obj [("skipClass", .str "edition")])])]

def musicEntry : Json := .obj [("selectors", skippedEditions)]

/-- Releases with torrents below them; editions are left out in music and on the front page. -/
def releaseDefinition : Json :=
  .obj [("id", .str "demo"), ("urls", .ofStrings [baseUrl]),
    ("search", .obj [
      ("requestConfig", .obj [("url", .str "/browse")]),
      ("selectors", .obj [("rows", .obj [
        ("selector", .str "tr"),
        ("group", .obj [("groupClass", .str "release"), ("childClass", .str "torrent"),
          ("inherit", .ofStrings ["title"]), ("compensateSpan", .bool false)])])])]),
    ("searchEntry", .obj [("music", musicEntry)]),
    ("list", .arr [.obj [("urlPattern", .str "/front"), ("selectors", skippedEditions)]])]

/-- The entry for music and the list block of the site, over its search block. -/
structure OverReleases (s : Site) (search named e : SearchEntry) (l : ListPage)
    (own reading : RowReading) : Prop where
  made : Site.ofDefinition releaseDefinition none {} = .ok s
  search : s.metadata.search = some search
  named : s.metadata.searchEntries.get? "music" = some named
  entry : s.entry (some (.obj [("id", .str "music")])) = .ok e
  list : s.metadata.lists = [l] ∧ l.mergeSearchSelectors = true
  own : l.selectors = some own
  reading : s.listReading l = .ok reading

theorem overReleases : ∃ s search named e l own reading,
    OverReleases s search named e l own reading ∧
      SearchEntry.decode musicEntry = some named ∧
      RowReading.decode skippedEditions = some own ∧
      search.source.grouping.groupClass = "release" ∧ e.source.grouping.groupClass = "group" ∧
      search.source.group.isSome ∧ named.source.group.isSome ∧ own.source.group.isSome :=
  ⟨_, _, _, _, _, _, _, ⟨rfl, rfl, rfl, rfl, ⟨rfl, rfl⟩, rfl, rfl⟩, rfl, rfl, rfl, rfl, rfl, rfl,
    rfl⟩

end Sample

namespace Site

/-- The fields inherited from a release, which neither the entry for music nor
the front page mentions, are others there than in the search block. -/
theorem unmentioned_row_setting_of_skipped_editions :
    ∃ s search named e l own reading, Sample.OverReleases s search named e l own reading ∧
      said? Sample.musicEntry RowSetting.inherit.pathInEntry = none ∧
      said? Sample.skippedEditions RowSetting.inherit.pathInReading = none ∧
      ¬ RowSetting.inherit.Agree e.source search.source ∧
      ¬ RowSetting.inherit.Agree reading.source search.source := by
  obtain ⟨s, search, named, e, l, own, reading, h, hnamed, hown, -, -, hlower, hentry, hlist⟩ :=
    Sample.overReleases
  obtain ⟨hentries, hlists⟩ := unmentioned_row_setting h.made h.search .inherit
  have hkept (upper : RowSource) (hupper : upper.group.isSome) :
      ¬ RowSetting.inherit.IsKept search.source upper := by
    rintro (hnone | hnone)
    · simp [hnone] at hupper
    · simp [hnone] at hlower
  refine ⟨s, search, named, e, l, own, reading, h, rfl, rfl, ?_, ?_⟩
  · rw [hentries "music" named Sample.musicEntry e h.named hnamed rfl h.entry]
    exact hkept _ hentry
  · rw [hlists l own Sample.skippedEditions reading h.list.2 h.own hown rfl h.reading]
    exact hkept _ hlist

/-- The class of header rows, which the entry for music does not mention, is
back at its default there. -/
theorem groupClass_reset_by_entry :
    ∃ s search named e l own reading, Sample.OverReleases s search named e l own reading ∧
      SearchEntry.decode Sample.musicEntry = some named ∧
      said? Sample.musicEntry RowSetting.groupClass.pathInEntry = none ∧
      ¬ RowSetting.groupClass.Agree e.source search.source := by
  obtain ⟨s, search, named, e, l, own, reading, h, hnamed, -, hsearch, he, -⟩ :=
    Sample.overReleases
  refine ⟨s, search, named, e, l, own, reading, h, hnamed, rfl, ?_⟩
  show ¬ e.source.grouping.groupClass = search.source.grouping.groupClass
  rw [hsearch, he]
  decide

end Site

end SiteScrape
