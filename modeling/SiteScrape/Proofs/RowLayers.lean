import SiteScrape.Definition.Reading
import SiteScrape.Proofs.WrittenRecords

/-!
# Where rows are, layer over layer

A named entry lies over the search block, and a list block over the selectors
of the search. Both are read into their parts before they are laid over each
other, and a part that was read has all settings, mentioned or not: an optional
one stays absent, one with a default is written as if it had been mentioned.
For each part, `ReadOff` says what it is read off, and `Overlaid` what comes out
of two layers of it.
-/

namespace SiteScrape

open Decode Layers

namespace Grouping

def fieldNames : List String :=
  ["groupClass", "childClass", "skipClass", "groupId", "childGroupId", "childrenPath", "inherit",
    "compensateSpan", "selectors"]

structure ReadOff (e : Fields) (g : Grouping) : Prop where
  groupClass : withDefault e "groupClass" string "group" = some g.groupClass
  childClass : withDefault e "childClass" string "group_torrent" = some g.childClass
  skipClass : Decode.optional e "skipClass" string = some g.skipClass
  childrenPath : Decode.optional e "childrenPath" string = some g.childrenPath
  inherit : withDefault e "inherit" (list string) ["title", "category"] = some g.inherit
  compensateSpan : withDefault e "compensateSpan" bool true = some g.compensateSpan

theorem readOff_nil : ReadOff [] {} := ⟨rfl, rfl, rfl, rfl, rfl, rfl⟩

theorem readOff_of_decode {v : Json} {g : Grouping} (h : decode v = some g) :
    ∃ e, record fieldNames v = some e ∧ g.ReadOff e := by
  simp only [decode, Option.bind_eq_bind, Option.bind_eq_some_iff, Option.some.injEq] at h
  obtain ⟨e, he, _, hgroup, _, hchild, _, hskip, _, -, _, -, _, hpath, _, hinherit, _, hspan, _, -,
    rfl⟩ := h
  exact ⟨e, he, hgroup, hchild, hskip, hpath, hinherit, hspan⟩

theorem isRecord_encode (g : Grouping) : IsRecord g.encode := by
  refine ⟨_, rfl, Assoc.keysOnce_of_sublist (["groupClass", "childClass"] ++ ["skipClass"] ++
    ["groupId", "childGroupId"] ++ ["childrenPath"] ++ ["inherit", "compensateSpan"] ++
    ["selectors"]) ?_ (by decide)⟩
  simp only [Assoc.keys_append]
  exact (((((List.Sublist.refl _).append (keys_optional ..)).append (.refl _)).append
    (keys_optional ..)).append (.refl _)).append (keys_unlessEmpty ..)

/-- What the grouping of two layers comes to. -/
structure Overlaid (lower upper merged : Option Grouping) : Prop where
  groupClass : merged.map (·.groupClass) = (upper.map (·.groupClass)).or (lower.map (·.groupClass))
  childClass : merged.map (·.childClass) = (upper.map (·.childClass)).or (lower.map (·.childClass))
  skipClass : merged.bind (·.skipClass) = (upper.bind (·.skipClass)).or (lower.bind (·.skipClass))
  childrenPath : merged.bind (·.childrenPath) =
    (upper.bind (·.childrenPath)).or (lower.bind (·.childrenPath))
  inherit : merged.map (·.inherit) =
    (lower.map (·.inherit)).merge (fun a b => b ++ a) (upper.map (·.inherit))
  compensateSpan : merged.map (·.compensateSpan) =
    (upper.map (·.compensateSpan)).or (lower.map (·.compensateSpan))

theorem overlaid_of_reads {lower upper merged : Option Grouping}
    (h : ReadsOver decode encode lower upper merged) : Overlaid lower upper merged := by
  have hrec : WrittenAsRecords encode lower upper := .of_all isRecord_encode
  have hread (fields : Fields) (g : Grouping) (hg : decode (.obj fields) = some g) :
      g.ReadOff fields := of_readOff_obj readOff_of_decode hg
  constructor
  case groupClass =>
    exact h.map_eq_or hrec (fun g => by simp [encode, Assoc.get?]) (by decide) isPlain_str
      (fun _ => rfl) fun _ _ hg => (hread _ _ hg).groupClass
  case childClass =>
    exact h.map_eq_or hrec (fun g => by simp [encode, Assoc.get?]) (by decide) isPlain_str
      (fun _ => rfl) fun _ _ hg => (hread _ _ hg).childClass
  case skipClass =>
    exact h.bind_eq hrec (fun g => by simp [encode, optionalText, Assoc.get?]) (by decide)
      isPlain_str (fun _ _ => eq_of_string) fun _ _ hg => (hread _ _ hg).skipClass
  case childrenPath =>
    exact h.bind_eq hrec (fun g => by simp [encode, optionalText, Assoc.get?]) (by decide)
      isPlain_str (fun _ _ => eq_of_string) fun _ _ hg => (hread _ _ hg).childrenPath
  case inherit =>
    exact h.map_eq_join hrec (fun g => by simp [encode, optionalText, Assoc.get?]) (by decide)
      list_ofStrings fun _ _ hg => (hread _ _ hg).inherit
  case compensateSpan =>
    exact h.map_eq_or hrec (fun g => by simp [encode, optionalText, Assoc.get?]) (by decide)
      isPlain_bool (fun _ => rfl) fun _ _ hg => (hread _ _ hg).compensateSpan

end Grouping

namespace ColumnMarks

def fieldNames : List String := ["header", "markers"]

structure ReadOff (e : Fields) (c : ColumnMarks) : Prop where
  header : withDefault e "header" oneOrMany [] = some c.header
  markers : withDefault e "markers" (sortedMap (list string)) [] = some c.markers

theorem readOff_nil : ReadOff [] {} := ⟨rfl, rfl⟩

theorem readOff_of_decode {v : Json} {c : ColumnMarks} (h : decode v = some c) :
    ∃ e, record fieldNames v = some e ∧ c.ReadOff e := by
  simp only [decode, Option.bind_eq_bind, Option.bind_eq_some_iff, Option.some.injEq] at h
  obtain ⟨e, he, _, hheader, _, hmarkers, rfl⟩ := h
  exact ⟨e, he, hheader, hmarkers⟩

theorem sorted_markers {v : Json} {c : ColumnMarks} (h : decode v = some c) : c.markers.Sorted := by
  obtain ⟨e, -, he⟩ := readOff_of_decode h
  have hmarkers := he.markers
  unfold withDefault at hmarkers
  split at hmarkers
  · exact sorted_of_sortedMap hmarkers
  · exact Option.some.inj hmarkers ▸ Assoc.sorted_nil

theorem isRecord_encode (c : ColumnMarks) : IsRecord c.encode :=
  ⟨_, rfl, Assoc.keysOnce_of_sublist ["header", "markers"] (.refl _) (by decide)⟩

/-- What the columns of two layers come to; of the markers only where the upper
layer has none. -/
structure Overlaid (lower upper merged : Option ColumnMarks) : Prop where
  header : merged.map (·.header) =
    (lower.map (·.header)).merge (fun a b => b ++ a) (upper.map (·.header))
  markers : (∀ c, lower = some c → c.markers.Sorted) → (∀ c, upper = some c → c.markers = []) →
    merged.map (·.markers) = (lower.map (·.markers)).merge (fun a _ => a) (upper.map (·.markers))

theorem overlaid_of_reads {lower upper merged : Option ColumnMarks}
    (h : ReadsOver decode encode lower upper merged) : Overlaid lower upper merged := by
  have hrec : WrittenAsRecords encode lower upper := .of_all isRecord_encode
  have hread (fields : Fields) (c : ColumnMarks) (hc : decode (.obj fields) = some c) :
      c.ReadOff fields := of_readOff_obj readOff_of_decode hc
  constructor
  case header =>
    exact h.map_eq_join hrec (fun c => by simp [encode, Assoc.get?]) (by decide)
      oneOrMany_ofStrings fun _ _ hc => (hread _ _ hc).header
  case markers =>
    intro hsorted hempty
    have hfield (c : ColumnMarks) : c.encode.field? "markers" = some (textsByKey c.markers) := by
      simp [encode, textsByKey, Assoc.get?]
    refine h.map_eq hrec (fun a _ => a) hfield (fun _ => Json.noConfusion) ?_ ?_
      fun _ _ hc => (hread _ _ hc).markers
    · rintro a b ha hb
      obtain ⟨c, hc, rfl⟩ := Option.map_eq_some_iff.mp hb
      rw [hempty c hc, show Rule.ofKey "markers" = .deep by decide]
      exact mergeValue_obj ..
    · rintro b hb
      refine sortedMap_textsByKey ?_
      cases lower with
      | some c =>
        have hmarkers : c.markers = b := by cases upper <;> simpa using hb
        exact hmarkers ▸ hsorted c rfl
      | none =>
        have hb' : upper.map (·.markers) = some b := by simpa using hb
        obtain ⟨c, hc, rfl⟩ := Option.map_eq_some_iff.mp hb'
        rw [hempty c hc]
        exact Assoc.sorted_nil

end ColumnMarks

namespace RowSource

def fieldNames : List String := ["selector", "filter", "merge", "group", "columns"]

structure ReadOff (e : Fields) (r : RowSource) : Prop where
  filter : Decode.optional e "filter" string = some r.filter
  merge : Decode.optional e "merge" (natBelow 0x10000000000000000) = some r.merge
  group : Decode.optional e "group" Grouping.decode = some r.group
  columns : Decode.optional e "columns" ColumnMarks.decode = some r.columns

theorem readOff_nil : ReadOff [] {} := ⟨rfl, rfl, rfl, rfl⟩

theorem readOff_of_decode {v : Json} {r : RowSource} (h : decode v = some r) :
    ∃ e, record fieldNames v = some e ∧ r.ReadOff e := by
  simp only [decode, Option.bind_eq_bind, Option.bind_eq_some_iff, Option.some.injEq] at h
  obtain ⟨e, he, _, -, _, hfilter, _, hmerge, _, hgroup, _, hcolumns, rfl⟩ := h
  exact ⟨e, he, hfilter, hmerge, hgroup, hcolumns⟩

theorem isRecord_encode (r : RowSource) : IsRecord r.encode := by
  refine ⟨_, rfl, Assoc.keysOnce_of_sublist
    (["selector"] ++ ["filter"] ++ ["merge"] ++ ["group"] ++ ["columns"]) ?_ (by decide)⟩
  simp only [Assoc.keys_append]
  exact ((((List.Sublist.refl _).append (keys_optional ..)).append (keys_optional ..)).append
    (keys_optional ..)).append (keys_optional ..)

/-- What the rows of two layers come to. -/
structure Overlaid (lower upper merged : Option RowSource) : Prop where
  filter : merged.bind (·.filter) = (upper.bind (·.filter)).or (lower.bind (·.filter))
  merge : merged.bind (·.merge) = (upper.bind (·.merge)).or (lower.bind (·.merge))
  group : Grouping.Overlaid (lower.bind (·.group)) (upper.bind (·.group)) (merged.bind (·.group))
  columns : ColumnMarks.Overlaid (lower.bind (·.columns)) (upper.bind (·.columns))
    (merged.bind (·.columns))

theorem overlaid_of_reads {lower upper merged : Option RowSource}
    (h : ReadsOver decode encode lower upper merged) : Overlaid lower upper merged := by
  have hrec : WrittenAsRecords encode lower upper := .of_all isRecord_encode
  have hread (fields : Fields) (r : RowSource) (hr : decode (.obj fields) = some r) :
      r.ReadOff fields := of_readOff_obj readOff_of_decode hr
  constructor
  case filter =>
    exact h.bind_eq hrec (fun r => by simp [encode, optionalText, Assoc.get?]) (by decide)
      isPlain_str (fun _ _ => eq_of_string) fun _ _ hr => (hread _ _ hr).filter
  case merge =>
    have hfield (r : RowSource) :
        r.encode.field? "merge" = r.merge.map fun n : Nat => .ofInt n := by
      cases hmerge : r.merge <;> simp [encode, optionalText, Assoc.get?, hmerge]
    exact h.bind_eq hrec hfield (by decide)
      (fun n => isPlain_num (.ofInt n)) (fun _ _ => eq_of_natBelow_ofInt)
      fun _ _ hr => (hread _ _ hr).merge
  case group =>
    exact Grouping.overlaid_of_reads (h.part hrec
      (fun r _ => by simp [encode, optionalText, Assoc.get?]) (by decide)
      (fun _ => Json.noConfusion)
      fun _ _ hr => (hread _ _ hr).group)
  case columns =>
    exact ColumnMarks.overlaid_of_reads (h.part hrec
      (fun r _ => by simp [encode, optionalText, Assoc.get?]) (by decide)
      (fun _ => Json.noConfusion)
      fun _ _ hr => (hread _ _ hr).columns)

end RowSource

namespace RowReading

def fieldNames : List String := ["rows"]

/-- The description of the rows, if there is one. -/
def rowsOf (selectors : Option RowReading) : Option RowSource := selectors.bind (·.rows)

structure ReadOff (e : Fields) (r : RowReading) : Prop where
  rows : Decode.optional e "rows" RowSource.decode = some r.rows
  fields : sortedPairs Field.decode (e.filter (·.1 != "rows")) = some r.fields

theorem readOff_nil : ReadOff [] {} := ⟨rfl, rfl⟩

theorem readOff_of_decode {v : Json} {r : RowReading} (h : decode v = some r) :
    ∃ e, record fieldNames v = some e ∧ r.ReadOff e := by
  simp only [decode, Option.bind_eq_bind, Option.bind_eq_some_iff, Option.some.injEq] at h
  obtain ⟨e, he, _, hrows, _, hfields, rfl⟩ := h
  refine ⟨e, ?_, hrows, hfields⟩
  unfold openRecord at he
  split at he
  · cases he
  · exact he

/-- What a reading read off a definition is like: its fields stand once, apart
from the rows. -/
structure Orderly (r : RowReading) : Prop where
  fields_once : r.fields.KeysOnce
  no_rows : "rows" ∉ r.fields.keys

theorem orderly_of_decode {v : Json} {r : RowReading} (h : decode v = some r) : r.Orderly := by
  obtain ⟨e, -, he⟩ := readOff_of_decode h
  obtain ⟨read, hread, hsorted⟩ := Option.map_eq_some_iff.mp he.fields
  refine ⟨hsorted ▸ (Assoc.sorted_sorted read).keysOnce, fun hmem => ?_⟩
  rw [← hsorted] at hmem
  have hkey := Assoc.mem_keys_sorted hmem
  rw [(view_of_mapM hread).1] at hkey
  obtain ⟨p, hp, hrows⟩ := List.mem_map.mp hkey
  simp [hrows] at hp

theorem Orderly.isRecord_encode {r : RowReading} (h : r.Orderly) : IsRecord r.encode := by
  refine ⟨_, rfl, ?_⟩
  unfold Assoc.KeysOnce
  rw [Assoc.keys_append, Assoc.keys_mapValues]
  refine List.nodup_append.mpr ⟨(keys_optional ..).nodup (by simp), h.fields_once,
    fun k hk k' hk' => ?_⟩
  have hrows : k = "rows" := List.mem_singleton.mp ((keys_optional ..).subset hk)
  rintro rfl
  exact h.no_rows (hrows ▸ hk')

/-- A reading over another, read off a definition each. -/
theorem readsOver_of_merge {lower upper merged : RowReading} (hlower : lower.Orderly)
    (hupper : upper.Orderly)
    (h : decode (Layers.merge lower.encode [upper.encode]) = some merged) :
    ReadsOver decode encode (some lower) (some upper) (some merged) := by
  obtain ⟨fields, hfields, -⟩ := isRecord_overlay
    (fun v hv => Option.some.inj hv ▸ hlower.isRecord_encode)
    (fun v hv => Option.some.inj hv ▸ hupper.isRecord_encode) rfl
  refine reads_some h ?_
  rw [hfields]
  exact Json.noConfusion

theorem overlaid_of_reads {lower upper merged : Option RowReading}
    (hlower : ∀ r, lower = some r → r.Orderly) (hupper : ∀ r, upper = some r → r.Orderly)
    (h : ReadsOver decode encode lower upper merged) :
    RowSource.Overlaid (rowsOf lower) (rowsOf upper) (rowsOf merged) := by
  have hrec : WrittenAsRecords encode lower upper := fun r hr =>
    (hr.elim (hlower r) (hupper r)).isRecord_encode
  refine RowSource.overlaid_of_reads (h.part hrec (fun r hr => ?_) (by decide)
    (fun _ => Json.noConfusion) fun _ _ hr => (of_readOff_obj readOff_of_decode hr).rows)
  have habsent : r.fields.get? "rows" = none :=
    Assoc.get?_eq_none_iff.mpr (hr.elim (hlower r) (hupper r)).no_rows
  simp [encode, Assoc.get?_mapValues, habsent]

end RowReading

namespace SearchEntry

def fieldNames : List String :=
  ["id", "name", "enabled", "requestConfig", "requestConfigTransformer", "keywordPath",
    "advanceKeywordParams", "selectors", "categories"]

theorem readOff_of_decode {v : Json} {s : SearchEntry} (h : decode v = some s) :
    ∃ e, record fieldNames v = some e ∧
      Decode.optional e "selectors" RowReading.decode = some s.selectors := by
  simp only [decode, Option.bind_eq_bind, Option.bind_eq_some_iff, Option.some.injEq] at h
  obtain ⟨e, he, _, -, _, -, _, -, _, -, _, -, _, -, _, -, _, hselectors, _, -, rfl⟩ := h
  exact ⟨e, he, hselectors⟩

theorem isRecord_encode (s : SearchEntry) : IsRecord s.encode := by
  refine ⟨_, rfl, Assoc.keysOnce_of_sublist (["id"] ++ ["name"] ++ ["enabled"] ++
    ["requestConfig"] ++ ["requestConfigTransformer"] ++ ["keywordPath"] ++
    ["advanceKeywordParams"] ++ ["selectors"] ++ ["categories"]) ?_ (by decide)⟩
  simp only [Assoc.keys_append]
  exact ((((((((keys_optional ..).append (keys_optional ..)).append (keys_optional ..)).append
    (keys_optional ..)).append (keys_optional ..)).append (keys_optional ..)).append
    (keys_unlessEmpty ..)).append (keys_optional ..)).append (keys_unlessEmpty ..)

/-- The selectors of an entry over another, with a layer on top that says nothing of them. -/
theorem readsOver_of_merge {lower upper merged : SearchEntry} {top : Fields}
    (honce : top.KeysOnce) (hsilent : top.get? "selectors" = none)
    (h : decode (Layers.merge lower.encode [upper.encode, .obj top]) = some merged) :
    ReadsOver RowReading.decode RowReading.encode lower.selectors upper.selectors
      merged.selectors := by
  have hrec : WrittenAsRecords encode (some lower) (some upper) := .of_all isRecord_encode
  have htop (v : Json) (hv : some (Json.obj top) = some v) : IsRecord v :=
    ⟨top, (Option.some.inj hv).symm, honce⟩
  have hboth (v : Json) (hv : some (mergeValue .deep lower.encode upper.encode) = some v) :
      IsRecord v := isRecord_overlay (fun _ => hrec.left) (fun _ => hrec.right) hv
  have hbelow : (mergeValue .deep lower.encode upper.encode).field? "selectors" =
      overlay .deep (lower.selectors.map RowReading.encode)
        (upper.selectors.map RowReading.encode) :=
    hrec.overlay_field? (fun e _ => by simp [encode, optionalText, optionalBool])
      (fun _ => Json.noConfusion)
  have htopmost : (mergeValue .deep (mergeValue .deep lower.encode upper.encode) (.obj top)).field?
      "selectors" = (mergeValue .deep lower.encode upper.encode).field? "selectors" := by
    have habsent : (some (Json.obj top)).bind (·.field? "selectors") = none := hsilent
    have hnull : (some (Json.obj top)).bind (·.field? "selectors") ≠ some .null := by simp [habsent]
    have hoverlay := overlay_field? hboth htop hnull
    rwa [habsent, overlay_none] at hoverlay
  obtain ⟨fields, hfields, -⟩ := isRecord_overlay hboth htop rfl
  rw [hfields, Json.field?_obj] at htopmost
  rw [show Layers.merge lower.encode [upper.encode, .obj top] = .obj fields from hfields] at h
  have hread := reads_of_optional (of_readOff_obj readOff_of_decode h)
  rwa [htopmost, hbelow] at hread

end SearchEntry

end SiteScrape
