import SiteScrape.Proofs.ReadBack
import SiteScrape.Proofs.RowSettings

/-!
# Search blocks read back

An override search writes the search block and reads what comes out with the
layers on top. Every part of a block is read back as it was (`readsBack`, for
each of them), so layers that say nothing change nothing: neither an empty
overlay nor the empty selectors of a list block.
-/

namespace SiteScrape

open Decode Layers

/-! ### Fields -/

namespace Filter

theorem readsBack : ReadsBack decode encode := by
  intro v f h
  obtain ⟨name, args⟩ := f
  cases args with
  | nil => rfl
  | cons arg rest =>
    cases v with
    | obj entries =>
      simp only [decode, Option.bind_eq_bind, Option.bind_eq_some_iff, Option.some.injEq] at h
      obtain ⟨e, -, _, -, _, hargs, h⟩ := h
      cases h
      have hback : withDefault [("name", .str name), ("args", .arr (arg :: rest))] "args"
          (list any) [] = some (arg :: rest) :=
        readsBack_any.list.withDefault hargs rfl (by simp [Assoc.get?])
      show (withDefault _ "args" (list any) []).bind _ = _
      rw [hback]
      rfl
    | str => cases h
    | null | bool | num | arr => cases h

end Filter

namespace Field

def fieldNames : List String :=
  ["selector", "attr", "data", "elementProcess", "case", "filters", "switchFilters", "text"]

structure ReadOff (e : Fields) (f : Field) : Prop where
  selectors : withDefault e "selector" oneOrMany [] = some f.selectors
  attr : Decode.optional e "attr" string = some f.attr
  data : Decode.optional e "data" string = some f.data
  processor : Decode.optional e "elementProcess" string = some f.processor
  cases : Decode.optional e "case" fields = some f.cases
  filters : withDefault e "filters" (list Filter.decode) [] = some f.filters
  switchFilters : withDefault e "switchFilters" (sortedMap (list Filter.decode)) [] =
    some f.switchFilters
  text : Decode.optional e "text" any = some f.text

theorem decode_eq_some_iff {v : Json} {f : Field} :
    decode v = some f ↔ ∃ e, record fieldNames v = some e ∧ f.ReadOff e := by
  constructor
  · intro h
    simp only [decode, Option.bind_eq_bind, Option.bind_eq_some_iff, Option.some.injEq] at h
    obtain ⟨e, he, _, hselectors, _, hattr, _, hdata, _, hprocessor, _, hcases, _, hfilters, _,
      hswitch, _, htext, rfl⟩ := h
    exact ⟨e, he, hselectors, hattr, hdata, hprocessor, hcases, hfilters, hswitch, htext⟩
  · rintro ⟨e, he, h⟩
    have he : record ["selector", "attr", "data", "elementProcess", "case", "filters",
      "switchFilters", "text"] v = some e := he
    simp only [decode, he, h.selectors, h.attr, h.data, h.processor, h.cases, h.filters,
      h.switchFilters, h.text, Option.bind_eq_bind, Option.bind_some]

theorem isRecord_encode (f : Field) : IsRecord f.encode := by
  refine ⟨_, rfl, Assoc.keysOnce_of_sublist (["selector"] ++ ["attr"] ++ ["data"] ++
    ["elementProcess"] ++ ["case"] ++ ["filters"] ++ ["switchFilters"] ++ ["text"]) ?_
    (by decide)⟩
  simp only [Assoc.keys_append]
  exact (((((((keys_unlessEmpty ..).append (keys_optional ..)).append (keys_optional ..)).append
    (keys_optional ..)).append (keys_optional ..)).append (keys_unlessEmpty ..)).append
    (keys_unlessEmpty ..)).append (keys_optional ..)

theorem readsBack_filters : ReadsBack (list Filter.decode) encodeFilters := Filter.readsBack.list

theorem readsBack : ReadsBack decode encode := by
  intro v f h
  obtain ⟨e, -, he⟩ := decode_eq_some_iff.mp h
  refine decode_eq_some_iff.mpr ⟨_, record_of_isRecord f.isRecord_encode, ?_⟩
  constructor
  case selectors => exact readsBack_oneOrMany.unlessEmpty he.selectors (by simp)
  case attr =>
    exact readsBack_string.optional_of_ne_null (fun _ => Json.noConfusion) he.attr (by simp)
  case data =>
    exact readsBack_string.optional_of_ne_null (fun _ => Json.noConfusion) he.data (by simp)
  case processor =>
    exact readsBack_string.optional_of_ne_null (fun _ => Json.noConfusion) he.processor (by simp)
  case cases =>
    exact readsBack_fields.optional_of_ne_null (fun _ => Json.noConfusion) he.cases (by simp)
  case filters => exact readsBack_filters.unlessEmpty he.filters (by simp)
  case switchFilters => exact readsBack_filters.sortedMap.unlessEmpty he.switchFilters (by simp)
  case text => exact readsBack_any.optional keepsNonNull_any he.text (by simp)

theorem readsBack_map : ReadsBack decodeMap encodeMap := readsBack.sortedMap

end Field

/-! ### Rows -/

namespace Grouping

/-- With the fields of the header row. -/
structure WhollyReadOff (e : Fields) (g : Grouping) : Prop extends ReadOff e g where
  groupId : withDefault e "groupId" Field.decode {} = some g.groupId
  childGroupId : withDefault e "childGroupId" Field.decode {} = some g.childGroupId
  selectors : withDefault e "selectors" Field.decodeMap [] = some g.selectors

theorem decode_eq_some_iff {v : Json} {g : Grouping} :
    decode v = some g ↔ ∃ e, record fieldNames v = some e ∧ g.WhollyReadOff e := by
  constructor
  · intro h
    simp only [decode, Option.bind_eq_bind, Option.bind_eq_some_iff, Option.some.injEq] at h
    obtain ⟨e, he, _, hgroup, _, hchild, _, hskip, _, hid, _, hchildId, _, hpath, _, hinherit, _,
      hspan, _, hselectors, rfl⟩ := h
    exact ⟨e, he, ⟨hgroup, hchild, hskip, hpath, hinherit, hspan⟩, hid, hchildId, hselectors⟩
  · rintro ⟨e, he, h⟩
    have he : record ["groupClass", "childClass", "skipClass", "groupId", "childGroupId",
      "childrenPath", "inherit", "compensateSpan", "selectors"] v = some e := he
    simp only [decode, he, h.groupClass, h.childClass, h.skipClass, h.groupId, h.childGroupId,
      h.childrenPath, h.inherit, h.compensateSpan, h.selectors, Option.bind_eq_bind,
      Option.bind_some]

theorem readsBack : ReadsBack decode encode := by
  intro v g h
  obtain ⟨e, -, he⟩ := decode_eq_some_iff.mp h
  refine decode_eq_some_iff.mpr ⟨_, record_of_isRecord g.isRecord_encode, ?_⟩
  constructor
  case toReadOff =>
    constructor
    case groupClass => exact readsBack_string.withDefault he.groupClass rfl (by simp [Assoc.get?])
    case childClass => exact readsBack_string.withDefault he.childClass rfl (by simp [Assoc.get?])
    case skipClass =>
      exact readsBack_string.optional_of_ne_null (fun _ => Json.noConfusion) he.skipClass
        (by simp [optionalText, Assoc.get?])
    case childrenPath =>
      exact readsBack_string.optional_of_ne_null (fun _ => Json.noConfusion) he.childrenPath
        (by simp [optionalText, Assoc.get?])
    case inherit =>
      exact readsBack_texts.withDefault he.inherit rfl (by simp [optionalText, Assoc.get?])
    case compensateSpan =>
      exact readsBack_bool.withDefault he.compensateSpan rfl (by simp [optionalText, Assoc.get?])
  case groupId =>
    exact Field.readsBack.withDefault he.groupId rfl (by simp [optionalText, Assoc.get?])
  case childGroupId =>
    exact Field.readsBack.withDefault he.childGroupId rfl (by simp [optionalText, Assoc.get?])
  case selectors =>
    exact Field.readsBack_map.unlessEmpty he.selectors (by simp [optionalText, Assoc.get?])

end Grouping

namespace ColumnMarks

theorem decode_eq_some_iff {v : Json} {c : ColumnMarks} :
    decode v = some c ↔ ∃ e, record fieldNames v = some e ∧ c.ReadOff e := by
  refine ⟨readOff_of_decode, ?_⟩
  rintro ⟨e, he, h⟩
  have he : record ["header", "markers"] v = some e := he
  simp only [decode, he, h.header, h.markers, Option.bind_eq_bind, Option.bind_some]

theorem readsBack : ReadsBack decode encode := by
  intro v c h
  obtain ⟨e, -, he⟩ := decode_eq_some_iff.mp h
  refine decode_eq_some_iff.mpr ⟨_, record_of_isRecord c.isRecord_encode, ?_⟩
  constructor
  case header => exact readsBack_oneOrMany.withDefault he.header rfl (by simp [Assoc.get?])
  case markers => exact readsBack_texts.sortedMap.withDefault he.markers rfl (by simp [Assoc.get?])

end ColumnMarks

namespace RowSource

/-- With the selectors of rows. -/
structure WhollyReadOff (e : Fields) (r : RowSource) : Prop extends ReadOff e r where
  selectors : withDefault e "selector" oneOrMany [] = some r.selectors

theorem decode_eq_some_iff {v : Json} {r : RowSource} :
    decode v = some r ↔ ∃ e, record fieldNames v = some e ∧ r.WhollyReadOff e := by
  constructor
  · intro h
    simp only [decode, Option.bind_eq_bind, Option.bind_eq_some_iff, Option.some.injEq] at h
    obtain ⟨e, he, _, hselectors, _, hfilter, _, hmerge, _, hgroup, _, hcolumns, rfl⟩ := h
    exact ⟨e, he, ⟨hfilter, hmerge, hgroup, hcolumns⟩, hselectors⟩
  · rintro ⟨e, he, h⟩
    have he : record ["selector", "filter", "merge", "group", "columns"] v = some e := he
    simp only [decode, he, h.selectors, h.filter, h.merge, h.group, h.columns,
      Option.bind_eq_bind, Option.bind_some]

theorem readsBack : ReadsBack decode encode := by
  intro v r h
  obtain ⟨e, -, he⟩ := decode_eq_some_iff.mp h
  refine decode_eq_some_iff.mpr ⟨_, record_of_isRecord r.isRecord_encode, ?_⟩
  constructor
  case toReadOff =>
    constructor
    case filter =>
      exact readsBack_string.optional_of_ne_null (fun _ => Json.noConfusion) he.filter
        (by simp [optionalText, Assoc.get?])
    case merge =>
      refine (readsBack_natBelow (Nat.le_refl _)).optional_of_ne_null (fun _ => Json.noConfusion)
        he.merge ?_
      cases hmerge : r.merge <;> simp [optionalText, Assoc.get?]
    case group =>
      exact Grouping.readsBack.optional_of_ne_null (fun _ => Json.noConfusion) he.group
        (by simp [optionalText, Assoc.get?])
    case columns =>
      exact ColumnMarks.readsBack.optional_of_ne_null (fun _ => Json.noConfusion) he.columns
        (by simp [optionalText, Assoc.get?])
  case selectors => exact readsBack_oneOrMany.withDefault he.selectors rfl (by simp [Assoc.get?])

end RowSource

namespace RowReading

theorem decode_eq_some_iff {v : Json} {r : RowReading} :
    decode v = some r ↔ ∃ e, openRecord ["rows"] v = some e ∧ r.ReadOff e := by
  constructor
  · intro h
    simp only [decode, Option.bind_eq_bind, Option.bind_eq_some_iff, Option.some.injEq] at h
    obtain ⟨e, he, _, hrows, _, hfields, rfl⟩ := h
    exact ⟨e, he, hrows, hfields⟩
  · rintro ⟨e, he, h⟩
    simp only [decode, he, h.rows, h.fields, Option.bind_eq_bind, Option.bind_some]

/-- The entries of a written reading that describe fields. -/
theorem filter_encode {r : RowReading} (h : r.Orderly) :
    List.filter (·.1 != "rows") (Json.optional "rows" (r.rows.map RowSource.encode) ++
      r.fields.mapValues Field.encode) = r.fields.mapValues Field.encode := by
  have hrows : List.filter (·.1 != "rows")
      (Json.optional "rows" (r.rows.map RowSource.encode)) = [] := by
    cases r.rows <;> rfl
  rw [List.filter_append, hrows, List.nil_append]
  refine List.filter_eq_self.mpr fun p hp => ?_
  have hkey : p.1 ∈ r.fields.keys := by
    rw [← Assoc.keys_mapValues Field.encode]
    exact List.mem_map_of_mem hp
  rw [bne_iff_ne]
  rintro hrows
  exact h.no_rows (hrows ▸ hkey)

theorem readsBack : ReadsBack decode encode := by
  intro v r h
  have horderly := orderly_of_decode h
  obtain ⟨e, -, he⟩ := decode_eq_some_iff.mp h
  refine decode_eq_some_iff.mpr ⟨_, record_of_isRecord horderly.isRecord_encode, ?_⟩
  constructor
  case rows =>
    have habsent : r.fields.get? "rows" = none := Assoc.get?_eq_none_iff.mpr horderly.no_rows
    exact RowSource.readsBack.optional_of_ne_null (fun _ => Json.noConfusion) he.rows
      (by simp [Assoc.get?_mapValues, habsent])
  case fields =>
    rw [filter_encode horderly]
    refine sortedPairs_mapValues (sorted_of_sortedPairs he.fields) fun p hp => ?_
    obtain ⟨w, hw⟩ := exists_of_mem_sortedPairs he.fields hp
    exact Field.readsBack w p.2 hw

end RowReading

/-! ### Entries -/

theorem CategoryOption.readsBack : ReadsBack decode encode := by
  rintro v ⟨name, value⟩ h
  simp only [decode, Option.bind_eq_bind, Option.bind_eq_some_iff, Option.some.injEq] at h
  obtain ⟨e, -, _, -, _, hvalue, h⟩ := h
  cases h
  have hback : required [("name", .str name), ("value", value)] "value" any = some value :=
    readsBack_any.required hvalue (by simp [Assoc.get?])
  exact congrArg (Option.map (CategoryOption.mk name)) hback

theorem Category.readsBack : ReadsBack decode encode := by
  rintro v ⟨name, key, options, cross⟩ h
  simp only [decode, Option.bind_eq_bind, Option.bind_eq_some_iff, Option.some.injEq] at h
  obtain ⟨e, -, _, -, _, -, _, hoptions, _, -, h⟩ := h
  cases h
  have hback : withDefault [("name", .str name), ("key", .str key),
      ("options", .arr (options.map CategoryOption.encode)), ("cross", .bool cross)] "options"
      (list CategoryOption.decode) [] = some options :=
    CategoryOption.readsBack.list.withDefault hoptions rfl (by simp [Assoc.get?])
  show (withDefault _ "options" (list CategoryOption.decode) []).bind _ = _
  rw [hback]
  rfl

namespace TaggedKeywords

def fieldNames : List String :=
  ["enabled", "requestConfig", "requestConfigTransformer", "keywordPath"]

structure ReadOff (e : Fields) (t : TaggedKeywords) : Prop where
  enabled : Decode.optional e "enabled" bool = some t.enabled
  requestConfig : Decode.optional e "requestConfig" any = some t.requestConfig
  transformer : Decode.optional e "requestConfigTransformer" string = some t.transformer
  keywordPath : Decode.optional e "keywordPath" string = some t.keywordPath

theorem decode_eq_some_iff {v : Json} {t : TaggedKeywords} :
    decode v = some t ↔ ∃ e, record fieldNames v = some e ∧ t.ReadOff e := by
  constructor
  · intro h
    simp only [decode, Option.bind_eq_bind, Option.bind_eq_some_iff, Option.some.injEq] at h
    obtain ⟨e, he, _, henabled, _, hrequest, _, htransformer, _, hpath, rfl⟩ := h
    exact ⟨e, he, henabled, hrequest, htransformer, hpath⟩
  · rintro ⟨e, he, h⟩
    have he : record ["enabled", "requestConfig", "requestConfigTransformer", "keywordPath"] v =
      some e := he
    simp only [decode, he, h.enabled, h.requestConfig, h.transformer, h.keywordPath,
      Option.bind_eq_bind, Option.bind_some]

theorem isRecord_encode (t : TaggedKeywords) : IsRecord t.encode := by
  refine ⟨_, rfl, Assoc.keysOnce_of_sublist (["enabled"] ++ ["requestConfig"] ++
    ["requestConfigTransformer"] ++ ["keywordPath"]) ?_ (by decide)⟩
  simp only [Assoc.keys_append]
  exact (((keys_optional ..).append (keys_optional ..)).append (keys_optional ..)).append
    (keys_optional ..)

theorem readsBack : ReadsBack decode encode := by
  intro v t h
  obtain ⟨e, -, he⟩ := decode_eq_some_iff.mp h
  refine decode_eq_some_iff.mpr ⟨_, record_of_isRecord t.isRecord_encode, ?_⟩
  constructor
  case enabled =>
    exact readsBack_bool.optional_of_ne_null (fun _ => Json.noConfusion) he.enabled
      (by simp [optionalBool, optionalText])
  case requestConfig =>
    exact readsBack_any.optional keepsNonNull_any he.requestConfig
      (by simp [optionalBool, optionalText])
  case transformer =>
    exact readsBack_string.optional_of_ne_null (fun _ => Json.noConfusion) he.transformer
      (by simp [optionalBool, optionalText])
  case keywordPath =>
    exact readsBack_string.optional_of_ne_null (fun _ => Json.noConfusion) he.keywordPath
      (by simp [optionalBool, optionalText])

end TaggedKeywords

theorem KeywordRule.readsBack : ReadsBack decode encode := by
  intro v rule h
  cases rule with
  | flag enabled => rfl
  | described entry =>
    cases v with
    | null | bool | num | str => cases h
    | arr | obj =>
      have h : (TaggedKeywords.decode _).map described = some (described entry) := h
      obtain ⟨_, hentry, heq⟩ := Option.map_eq_some_iff.mp h
      cases heq
      exact congrArg (Option.map described) (TaggedKeywords.readsBack _ _ hentry)

namespace SearchEntry

structure ReadOff (e : Fields) (s : SearchEntry) : Prop where
  id : Decode.optional e "id" string = some s.id
  name : Decode.optional e "name" string = some s.name
  enabled : Decode.optional e "enabled" bool = some s.enabled
  requestConfig : Decode.optional e "requestConfig" any = some s.requestConfig
  transformer : Decode.optional e "requestConfigTransformer" string = some s.transformer
  keywordPath : Decode.optional e "keywordPath" string = some s.keywordPath
  keywordRules : withDefault e "advanceKeywordParams" (sortedMap KeywordRule.decode) [] =
    some s.keywordRules
  selectors : Decode.optional e "selectors" RowReading.decode = some s.selectors
  categories : withDefault e "categories" (list Category.decode) [] = some s.categories

theorem decode_eq_some_iff {v : Json} {s : SearchEntry} :
    decode v = some s ↔ ∃ e, record fieldNames v = some e ∧ s.ReadOff e := by
  constructor
  · intro h
    simp only [decode, Option.bind_eq_bind, Option.bind_eq_some_iff, Option.some.injEq] at h
    obtain ⟨e, he, _, hid, _, hname, _, henabled, _, hrequest, _, htransformer, _, hpath, _,
      hrules, _, hselectors, _, hcategories, rfl⟩ := h
    exact ⟨e, he, hid, hname, henabled, hrequest, htransformer, hpath, hrules, hselectors,
      hcategories⟩
  · rintro ⟨e, he, h⟩
    have he : record ["id", "name", "enabled", "requestConfig", "requestConfigTransformer",
      "keywordPath", "advanceKeywordParams", "selectors", "categories"] v = some e := he
    simp only [decode, he, h.id, h.name, h.enabled, h.requestConfig, h.transformer, h.keywordPath,
      h.keywordRules, h.selectors, h.categories, Option.bind_eq_bind, Option.bind_some]

theorem readsBack : ReadsBack decode encode := by
  intro v s h
  obtain ⟨e, -, he⟩ := decode_eq_some_iff.mp h
  refine decode_eq_some_iff.mpr ⟨_, record_of_isRecord s.isRecord_encode, ?_⟩
  constructor
  case id =>
    exact readsBack_string.optional_of_ne_null (fun _ => Json.noConfusion) he.id
      (by simp [optionalBool, optionalText])
  case name =>
    exact readsBack_string.optional_of_ne_null (fun _ => Json.noConfusion) he.name
      (by simp [optionalBool, optionalText])
  case enabled =>
    exact readsBack_bool.optional_of_ne_null (fun _ => Json.noConfusion) he.enabled
      (by simp [optionalBool, optionalText])
  case requestConfig =>
    exact readsBack_any.optional keepsNonNull_any he.requestConfig
      (by simp [optionalBool, optionalText])
  case transformer =>
    exact readsBack_string.optional_of_ne_null (fun _ => Json.noConfusion) he.transformer
      (by simp [optionalBool, optionalText])
  case keywordPath =>
    exact readsBack_string.optional_of_ne_null (fun _ => Json.noConfusion) he.keywordPath
      (by simp [optionalBool, optionalText])
  case keywordRules =>
    exact KeywordRule.readsBack.sortedMap.unlessEmpty he.keywordRules
      (by simp [optionalBool, optionalText])
  case selectors =>
    exact RowReading.readsBack.optional_of_ne_null (fun _ => Json.noConfusion) he.selectors
      (by simp [optionalBool, optionalText])
  case categories =>
    exact Category.readsBack.list.unlessEmpty he.categories
      (by simp [optionalBool, optionalText])

end SearchEntry

/-! ### Sites -/

namespace Site

variable {s : Site} {search : SearchEntry}

/-- The metadata of a site was read off JSON. -/
def IsRead (s : Site) : Prop := ∃ v, Metadata.decode v = some s.metadata

theorem isRead_of_ofDefinition {definition : Json} {user : Option Json} {hooks : Hooks}
    (h : ofDefinition definition user hooks = .ok s) : s.IsRead := by
  obtain ⟨schema, m, -, hm, rfl⟩ := ofDefinition_eq_ok_iff.mp h
  obtain ⟨-, -, -, -, hdecode⟩ := Definition.resolve_eq_ok_iff.mp hm
  exact ⟨_, by rwa [metadata_ofMetadata]⟩

theorem IsRead.exists_decode_search (hs : s.IsRead) (hsearch : s.metadata.search = some search) :
    ∃ v, SearchEntry.decode v = some search := by
  obtain ⟨v, hv⟩ := hs
  obtain ⟨_, e, -, he⟩ := Metadata.exists_readOff_of_decode hv
  obtain ⟨w, -, hw⟩ := exists_of_optional (hsearch ▸ he.search)
  exact ⟨w, hw⟩

theorem IsRead.decode_searchLayer (hs : s.IsRead) :
    SearchEntry.decode s.searchLayer = some (s.metadata.search.getD {}) := by
  cases hsearch : s.metadata.search with
  | none => rw [searchLayer, hsearch]; rfl
  | some search =>
    obtain ⟨v, hv⟩ := hs.exists_decode_search hsearch
    rw [searchLayer, hsearch]
    exact SearchEntry.readsBack v search hv

/-- An overlay that names no entry and changes nothing is as good as none. -/
theorem IsRead.entry_eq (hs : s.IsRead) {overlay : Json} (hname : s.namedLayer? overlay = none)
    (hmerge : mergeValue .deep s.searchLayer overlay = s.searchLayer) :
    s.entry (some overlay) = s.entry none := by
  have hlayers : Layers.merge s.searchLayer ((s.namedLayer? overlay).toList ++ [overlay]) =
      s.searchLayer := by
    rw [hname]
    exact hmerge
  simp only [entry, hlayers, hs.decode_searchLayer]

theorem merge_empty (lower : Fields) : mergeValue .deep (.obj lower) (.obj []) = .obj lower := by
  rw [mergeValue_obj, mergeFields]

theorem mergeValue_searchLayer_empty (s : Site) :
    mergeValue .deep s.searchLayer (.obj []) = s.searchLayer := by
  unfold searchLayer
  cases s.metadata.search <;> exact merge_empty _

/-- The site with other list blocks. -/
def withLists (s : Site) (lists : List ListPage) : Site :=
  { s with metadata := { s.metadata with lists } }

/-- Empty selectors on top of those of the search add nothing. -/
theorem IsRead.listReading_empty (hs : s.IsRead) (hsearch : s.metadata.search = some search)
    (hselectors : search.selectors.isSome) {l : ListPage} (hl : l.mergeSearchSelectors = true) :
    s.listReading { l with selectors := some {} } = s.listReading { l with selectors := none } := by
  obtain ⟨v, hv⟩ := hs.exists_decode_search hsearch
  obtain ⟨e, -, he⟩ := SearchEntry.decode_eq_some_iff.mp hv
  obtain ⟨r, hr⟩ := Option.isSome_iff_exists.mp hselectors
  obtain ⟨w, -, hw⟩ := exists_of_optional (hr ▸ he.selectors)
  have hmerge : Layers.merge r.encode [RowReading.encode {}] = r.encode := merge_empty _
  simp only [listReading, hl, hsearch, hr, ↓reduceIte, Option.bind_some, hmerge,
    RowReading.readsBack w r hw]

/-- What a page holds depends on the list blocks only by the one that is for it. -/
theorem readList_withLists (lists : List ListPage) (now : Int) (url body : String) :
    (s.withLists lists).readList now url body =
      (match lists.find? (·.isFor url) with
      | none => .error (.definition (.noListFor url))
      | some l => do
        let reading ← s.listReading l
        let body ← Body.ofText .document body
        Rows.Reader.torrents ⟨s.hooks, { finalUrl := url, now }⟩ s.metadata reading body) := rfl

/-- One block in place of another for the same addresses and with the same reading. -/
theorem readList_replace {l l' : ListPage} (hpatterns : l'.urlPatterns = l.urlPatterns)
    (hreading : s.listReading l' = s.listReading l) (before after : List ListPage) (now : Int)
    (url body : String) :
    (s.withLists (before ++ l' :: after)).readList now url body =
      (s.withLists (before ++ l :: after)).readList now url body := by
  have hfor : l'.isFor url = l.isFor url := by rw [ListPage.isFor, hpatterns, ListPage.isFor]
  rw [readList_withLists, readList_withLists, List.find?_append, List.find?_append,
    List.find?_cons, List.find?_cons, hfor]
  cases before.find? (·.isFor url) with
  | some b => rfl
  | none =>
    cases l.isFor url with
    | true => simp only [Option.none_or, hreading]
    | false => rfl

/-- A search block that was read is written so that it is read again, whatever
it holds. So wherever the metadata of a site was read, as it is for any site made
of a definition, a search with an empty overlay, or null, is one without; and a
list block with empty selectors, where those of the search stand below, reads
every page as one without selectors does. -/
theorem search_blocks_survive :
    (∀ v e, SearchEntry.decode v = some e → SearchEntry.decode e.encode = some e) ∧
    (∀ definition user hooks s, ofDefinition definition user hooks = .ok s → s.IsRead) ∧
    ∀ s : Site, s.IsRead →
      s.entry (some (.obj [])) = s.entry none ∧ s.entry (some .null) = s.entry none ∧
      ∀ search, s.metadata.search = some search → search.selectors.isSome →
        ∀ before (l : ListPage) after, l.mergeSearchSelectors = true → ∀ now url body,
          (s.withLists (before ++ { l with selectors := some {} } :: after)).readList now url body =
            (s.withLists (before ++ { l with selectors := none } :: after)).readList now url
              body := by
  refine ⟨SearchEntry.readsBack, fun _ _ _ _ => isRead_of_ofDefinition, fun s hs => ⟨?_, ?_, ?_⟩⟩
  · exact hs.entry_eq rfl s.mergeValue_searchLayer_empty
  · exact hs.entry_eq rfl (mergeValue_null ..)
  · intro search hsearch hselectors before l after hl now url body
    have hreading := hs.listReading_empty hsearch hselectors hl
    exact readList_replace (by rfl) hreading before after now url body

/-- The site of releases: its front page reads the same with empty selectors and
with none, and a search with an empty overlay is one without. -/
theorem search_blocks_survive_of_releases :
    ∃ s search named e l own reading, Sample.OverReleases s search named e l own reading ∧
      SearchEntry.decode search.encode = some search ∧
      s.entry (some (.obj [])) = s.entry none ∧
      ∀ now url body, (s.withLists [{ l with selectors := some {} }]).readList now url body =
        (s.withLists [{ l with selectors := none }]).readList now url body := by
  obtain ⟨hblocks, hmade, hsites⟩ := search_blocks_survive
  obtain ⟨s, search, named, e, l, own, reading, h, -, -, -, -, hgroup, -⟩ := Sample.overReleases
  have hselectors : search.selectors.isSome := by
    cases hnone : search.selectors with
    | none => simp [SearchEntry.source, RowReading.rowsOf, hnone] at hgroup
    | some r => rfl
  have hread := hmade _ _ _ _ h.made
  obtain ⟨v, hv⟩ := exists_decode_search h.made h.search
  obtain ⟨hempty, -, hlists⟩ := hsites s hread
  refine ⟨s, search, named, e, l, own, reading, h, hblocks v search hv, hempty, ?_⟩
  exact hlists search h.search hselectors [] l [] h.list.2

end Site

end SiteScrape
