import SiteScrape.Proofs.ReadBack
import SiteScrape.Proofs.WrittenJson
import SiteScrape.Site.Download

/-!
# Written torrents

A torrent is written as the fields that it has (`Torrent.data`) and its outside
identifiers, whose names begin alike and are no names of fields. So every field is
found again (`IsOutside.get?_entries`), the rest are the identifiers, and a torrent of
field values is read as it was written (`decode_encode_ofFields`): JSON can hold its
progress, for what is read off a value is infinite at worst and then cut down to
between zero and a hundred (`isFinite_clampPercent`). Read off its text, a torrent may
have another progress and other doubles in its identifiers, but the same link
(`exists_decode_asRead`).
-/

namespace SiteScrape

theorem Assoc.mapValues_eq_self {α : Type} {m : Assoc α} {f : α → α} (h : ∀ p ∈ m, f p.2 = p.2) :
    m.mapValues f = m := by
  induction m with
  | nil => rfl
  | cons p rest ih =>
    obtain ⟨hp, hrest⟩ := List.forall_mem_cons.mp h
    exact congrArg₂ List.cons (Prod.ext rfl hp) (ih hrest)

/-! ### Values that JSON can hold -/

namespace Json

mutual

/-- What JSON can hold: no key stands twice in an object, and every double is finite. -/
def isProper : Json → Bool
  | .num (.float f) => Double.isFinite f
  | .arr items => itemsProper items
  | .obj fields => decide (Assoc.keys fields).Nodup && fieldsProper fields
  | _ => true

def itemsProper : List Json → Bool
  | [] => true
  | v :: rest => isProper v && itemsProper rest

def fieldsProper : List (String × Json) → Bool
  | [] => true
  | (_, v) :: rest => isProper v && fieldsProper rest

end

mutual

theorem distinct_of_isProper : ∀ v : Json, v.isProper = true → v.distinct = v
  | .null, _ | .bool _, _ | .num _, _ | .str _, _ => rfl
  | .arr items, h => congrArg Json.arr (distinctItems_of_proper items h)
  | .obj fields, h => by
    obtain ⟨honce, hfields⟩ := Bool.and_eq_true_iff.mp h
    have honce : (Assoc.keys fields).Nodup := of_decide_eq_true honce
    rw [distinct, distinctFields_of_proper fields hfields, Assoc.KeysOnce.ofPairs_eq honce]

theorem distinctItems_of_proper : ∀ items, itemsProper items = true → distinctItems items = items
  | [], _ => rfl
  | v :: rest, h => by
    obtain ⟨hv, hrest⟩ := Bool.and_eq_true_iff.mp h
    rw [distinctItems, distinct_of_isProper v hv, distinctItems_of_proper rest hrest]

theorem distinctFields_of_proper : ∀ fields, fieldsProper fields = true → distinctFields fields = fields
  | [], _ => rfl
  | (k, v) :: rest, h => by
    obtain ⟨hv, hrest⟩ := Bool.and_eq_true_iff.mp h
    rw [distinctFields, distinct_of_isProper v hv, distinctFields_of_proper rest hrest]

end

end Json

/-! ### Percentages -/

section Percent

open Double

theorem Filter.isNumber_of_signedDecimal? {cs : List Char} {f : Float}
    (h : Filter.signedDecimal? cs = some f) : Double.IsNumber f := by
  induction cs with
  | nil => cases h
  | cons c rest ih =>
    have hdecimal (d : Filter.Digits) : Double.IsNumber d.value := isNumber_ofScientific _ _ _
    unfold Filter.signedDecimal? at h
    split at h
    · cases h
      exact (hdecimal _).neg
    · split at h
      · cases h
        exact hdecimal _
      · exact ih h

theorem isNumber_of_isFinite {f : Float} (h : isFinite f = true) : Double.IsNumber f := by
  intro hnan
  rw [isFinite, hnan] at h
  cases h

theorem isNumber_numberIn (s : String) : Double.IsNumber (Filter.numberIn s) := by
  unfold Filter.numberIn
  cases h : Filter.signedDecimal? (s.toList.filter fun c => c != ',' && !Text.isBlank c) with
  | none => exact isNumber_of_isFinite (by decide +kernel)
  | some f => exact Filter.isNumber_of_signedDecimal? h

/-- What is read off a value is a number. -/
theorem Lenient.isNumber_of_float? {v : Json} {f : Float} (hv : v.isProper = true)
    (h : Lenient.float? v = some f) : Double.IsNumber f := by
  cases v with
  | null | arr | obj => cases h
  | num n =>
    cases h
    cases n with
    | int n => exact isNumber_ofInt n
    | float f => exact isNumber_of_isFinite hv
  | str s =>
    rw [Lenient.float?] at h
    split at h
    · cases h
      exact isNumber_numberIn s
    · cases h
  | bool b =>
    cases h
    cases b
    · exact isNumber_of_isFinite (by decide +kernel)
    · exact isNumber_of_isFinite (by decide +kernel)

theorem isFinite_clampPercent {f : Float} (h : Double.IsNumber f) :
    isFinite (Torrent.clampPercent f) = true := by
  unfold Torrent.clampPercent
  split_ifs with hneg hlarge
  · decide +kernel
  · decide +kernel
  · by_contra hfinite
    exact (lt_or_lt_of_not_finite h (Bool.eq_false_iff.mpr hfinite)).elim hneg hlarge

end Percent

/-! ### Writing and reading a torrent -/

namespace TorrentTag

theorem decode_encode (t : TorrentTag) : decode t.encode = some t := by
  obtain ⟨name, color⟩ := t
  cases color <;> rfl

theorem asRead_encode (t : TorrentTag) : t.encode.asRead = t.encode := by
  obtain ⟨name, color⟩ := t
  cases color <;> rfl

theorem depth_encode (t : TorrentTag) : t.encode.depth = 1 := by
  obtain ⟨name, color⟩ := t
  cases color <;> rfl

end TorrentTag

theorem TorrentStatus.oneOf_name (s : TorrentStatus) : Decode.oneOf names (.str s.name) = some s := by
  cases s <;> rfl

namespace Torrent

open Decode

variable {t : Torrent} {ext : Fields}

/-- The fields by name but for the outside identifiers, with the progress given. -/
def data (t : Torrent) (progress : Option Json) : Assoc (Option Json) :=
  [("site", some (.str t.site)), ("id", some (.str t.id)), ("title", some (.str t.title)),
    ("subTitle", t.subTitle.map .str), ("url", t.url.map .str), ("link", t.link.map .str),
    ("time", t.time.map .ofInt64), ("size", t.size.map .ofUInt64),
    ("seeders", t.seeders.map .ofInt64), ("leechers", t.leechers.map .ofInt64),
    ("completed", t.completed.map .ofInt64), ("comments", t.comments.map .ofInt64),
    ("category", t.category.map .str),
    ("tags", if t.tags.isEmpty then none else some (.arr (t.tags.map TorrentTag.encode))),
    ("status", some (.str t.status.name)), ("progress", progress), ("author", t.author.map .str)]

theorem keys_data (t : Torrent) (progress : Option Json) : (t.data progress).keys = knownNames := rfl

theorem keysOnce_data (t : Torrent) (progress : Option Json) : (t.data progress).KeysOnce := by
  show knownNames.Nodup
  decide

/-- The entries of the fields that have a value, and the outside identifiers. -/
def entries (t : Torrent) (progress : Option Json) (ext : Fields) : Fields :=
  ((t.data progress).flatMap fun e => Json.optional e.1 e.2) ++ ext

theorem encode_eq (t : Torrent) : t.encode = .obj (t.entries (t.progress.map .ofFloat) t.ext) := by
  cases htags : t.tags.isEmpty <;> simp [encode, entries, data, Json.optional, htags]

/-- Outside identifiers stand in order, and their names are known by how they begin. -/
structure IsOutside (ext : Fields) : Prop where
  sorted : Assoc.Sorted ext
  led : ∀ key ∈ Assoc.keys ext, (Text.stripLead extLead key).isSome = true

theorem not_led_of_known : ∀ name ∈ knownNames, (Text.stripLead extLead name).isSome = false := by
  decide +kernel

theorem IsOutside.not_mem (h : IsOutside ext) {name : String} (hname : name ∈ knownNames) :
    name ∉ Assoc.keys ext := by
  intro hmem
  have hled := h.led name hmem
  rw [not_led_of_known name hname] at hled
  cases hled

variable {progress : Option Json}

theorem keys_sublist (t : Torrent) (progress : Option Json) :
    (Assoc.keys ((t.data progress).flatMap fun e => Json.optional e.1 e.2)).Sublist knownNames :=
  keys_flatMap_optional (t.data progress) fun v => v

theorem IsOutside.keysOnce (h : IsOutside ext) (t : Torrent) (progress : Option Json) :
    (t.entries progress ext).KeysOnce := by
  unfold Assoc.KeysOnce entries
  rw [Assoc.keys_append]
  have hsub := keys_sublist t progress
  refine List.nodup_append.mpr ⟨hsub.nodup (by decide), h.sorted.keysOnce, ?_⟩
  rintro key hkey _ hkey' rfl
  exact h.not_mem (hsub.subset hkey) hkey'

/-- A known name stands for its field. -/
theorem IsOutside.get?_entries (h : IsOutside ext) (t : Torrent) (progress : Option Json)
    {name : String} (hname : name ∈ knownNames) :
    (t.entries progress ext).get? name = ((t.data progress).get? name).bind fun v => v := by
  rw [entries, Assoc.get?_append, get?_flatMap_optional (fun v => v) (keysOnce_data t progress),
    Assoc.get?_eq_none_iff.mpr (h.not_mem hname), Option.or_none]

/-- What is no known name is an outside identifier. -/
theorem IsOutside.filter_entries (h : IsOutside ext) (t : Torrent) (progress : Option Json) :
    (t.entries progress ext).filter (fun p => !knownNames.contains p.1) = ext := by
  rw [entries, List.filter_append]
  have hknown : ((t.data progress).flatMap fun e => Json.optional e.1 e.2).filter
      (fun p => !knownNames.contains p.1) = [] := by
    refine List.filter_eq_nil_iff.mpr fun p hp => ?_
    have hmem := (keys_sublist t progress).subset (List.mem_map_of_mem hp)
    simpa using hmem
  have hext : List.filter (fun p => !knownNames.contains p.1) ext = ext := by
    refine List.filter_eq_self.mpr fun p hp => ?_
    have hmem : p.1 ∉ knownNames := fun hname => h.not_mem hname (List.mem_map_of_mem hp)
    simpa using hmem
  rw [hknown, hext, List.nil_append]

theorem IsOutside.sortedPairs (h : IsOutside ext) :
    sortedPairs any ext = some (ext.mapValues Json.distinct) := by
  have hread : ext.mapM (fun p => (any p.2).map fun w => (p.1, w)) =
      some (ext.mapValues Json.distinct) :=
    List.mapM_pure
  have hsorted : (ext.mapValues Json.distinct).Sorted := by
    unfold Assoc.Sorted
    rw [Assoc.keys_mapValues]
    exact h.sorted
  rw [Decode.sortedPairs, hread, Option.map_some, hsorted.sorted_eq]

/-- A field that was written or left out is read as it was. -/
theorem optional_of_written {α : Type} {e : Fields} {key : String} {d : Decoder α} {x : Option α}
    {write : α → Json} (hwritten : e.get? key = x.map write) (hread : ∀ a, d (write a) = some a)
    (hnull : ∀ a, write a ≠ .null) : Decode.optional e key d = some x := by
  rw [Decode.optional, withDefault, hwritten]
  cases x with
  | none => rfl
  | some a => exact reads_some (hread a) (hnull a)

theorem required_of_written {α : Type} {e : Fields} {key : String} {d : Decoder α} {v : Json} {a : α}
    (hwritten : e.get? key = some v) (hread : d v = some a) : required e key d = some a := by
  rw [required, hwritten]
  exact hread

theorem int64_ofInt64 (n : Int64) : int64 (.ofInt64 n) = some n := by
  show (if n.toInt < 0x8000000000000000 then some (Int64.ofInt n.toInt) else none) = some n
  have hfits : n.toInt < 0x8000000000000000 := n.toInt_lt
  rw [if_pos hfits, Int64.ofInt_toInt]

theorem uint64_ofUInt64 (n : UInt64) : uint64 (.ofUInt64 n) = some n := by
  show (if 0 ≤ (n.toNat : Int) then some (UInt64.ofNat (n.toNat : Int).toNat) else none) = some n
  rw [if_pos (Int.natCast_nonneg _), Int.toNat_natCast, UInt64.ofNat_toNat]

theorem list_tags (tags : List TorrentTag) :
    list TorrentTag.decode (.arr (tags.map TorrentTag.encode)) = some tags :=
  mapM_map_write fun tag _ => tag.decode_encode

section Entries

variable {e : Fields} {key : String}

theorem optional_text_of_written {s : Option String} (h : e.get? key = s.map .str) :
    Decode.optional e key string = some s :=
  optional_of_written h (fun _ => rfl) fun _ => Json.noConfusion

theorem optional_int64_of_written {n : Option Int64} (h : e.get? key = n.map .ofInt64) :
    Decode.optional e key int64 = some n :=
  optional_of_written h int64_ofInt64 fun _ => Json.noConfusion

/-- Tags are left out when there are none. -/
theorem tags_of_written {tags : List TorrentTag} (h : e.get? key =
      if tags.isEmpty then none else some (.arr (tags.map TorrentTag.encode))) :
    withDefault e key (list TorrentTag.decode) [] = some tags := by
  rw [withDefault, h]
  cases tags with
  | nil => rfl
  | cons tag rest => exact list_tags (tag :: rest)

theorem status_of_written {s : TorrentStatus} (h : e.get? key = some (.str s.name)) :
    withDefault e key (oneOf TorrentStatus.names) .unknown = some s := by
  rw [withDefault, h]
  exact s.oneOf_name

end Entries

theorem bind_of_eq_some {α β : Type} {x : Option α} {a : α} {f : α → Option β} {r : Option β}
    (h : x = some a) (hf : f a = r) : (x >>= f) = r := by
  rw [h]
  exact hf

/-- The entries of a torrent are read as the torrent, with what is written of its progress and
its outside identifiers. -/
theorem IsOutside.decode_entries (h : IsOutside ext) (t : Torrent) (percent : Option Float) :
    decode (.obj (t.entries (percent.map fun f => .num (.float f)) ext)) =
      some { t with progress := percent, ext := ext.mapValues Json.distinct } := by
  have hopen : openRecord knownNames
      (.obj (t.entries (percent.map fun f => .num (.float f)) ext)) = some _ :=
    record_of_isRecord ⟨_, rfl, h.keysOnce t _⟩
  have hfield := fun (name : String) (hname : name ∈ knownNames) =>
    h.get?_entries t (percent.map fun f => .num (.float f)) hname
  have hfilter := h.filter_entries t (percent.map fun f => .num (.float f))
  generalize t.entries (percent.map fun f => .num (.float f)) ext = e at hopen hfield hfilter
  have hsite : required e "site" string = some t.site :=
    required_of_written (hfield "site" (by decide)) rfl
  have hid : required e "id" string = some t.id := required_of_written (hfield "id" (by decide)) rfl
  have htitle : required e "title" string = some t.title :=
    required_of_written (hfield "title" (by decide)) rfl
  have hsize : Decode.optional e "size" uint64 = some t.size :=
    optional_of_written (hfield "size" (by decide)) uint64_ofUInt64 fun _ => Json.noConfusion
  have hprogress : Decode.optional e "progress" float = some percent :=
    optional_of_written (hfield "progress" (by decide)) (fun _ => rfl) fun _ => Json.noConfusion
  -- field by field, in the order of the record
  unfold decode
  exact bind_of_eq_some hopen <| bind_of_eq_some hsite <| bind_of_eq_some hid <|
    bind_of_eq_some htitle <|
    bind_of_eq_some (optional_text_of_written (hfield "subTitle" (by decide))) <|
    bind_of_eq_some (optional_text_of_written (hfield "url" (by decide))) <|
    bind_of_eq_some (optional_text_of_written (hfield "link" (by decide))) <|
    bind_of_eq_some (optional_int64_of_written (hfield "time" (by decide))) <|
    bind_of_eq_some hsize <|
    bind_of_eq_some (optional_int64_of_written (hfield "seeders" (by decide))) <|
    bind_of_eq_some (optional_int64_of_written (hfield "leechers" (by decide))) <|
    bind_of_eq_some (optional_int64_of_written (hfield "completed" (by decide))) <|
    bind_of_eq_some (optional_int64_of_written (hfield "comments" (by decide))) <|
    bind_of_eq_some (optional_text_of_written (hfield "category" (by decide))) <|
    bind_of_eq_some (tags_of_written (hfield "tags" (by decide))) <|
    bind_of_eq_some (status_of_written (hfield "status" (by decide))) <|
    bind_of_eq_some hprogress <|
    bind_of_eq_some (optional_text_of_written (hfield "author" (by decide))) <|
    bind_of_eq_some (hfilter ▸ h.sortedPairs) rfl

/-! ### Torrents of field values -/

theorem isOutside_ofFields (site : String) (fields : Fields) :
    IsOutside (ofFields site fields).ext := by
  refine ⟨Assoc.sorted_sorted _, fun key hkey => ?_⟩
  obtain ⟨p, hp, rfl⟩ := List.mem_map.mp (Assoc.mem_keys_sorted hkey)
  exact (Bool.and_eq_true_iff.mp (List.mem_filter.mp hp).2).1

variable {site : String} {fields : Fields}

theorem isProper_of_mem_ext (h : ∀ p ∈ fields, p.2.isProper = true) {p : String × Json}
    (hp : p ∈ (ofFields site fields).ext) : p.2.isProper = true :=
  h p (List.mem_filter.mp (Assoc.mem_of_mem_sorted hp)).1

theorem isProper_get? (h : ∀ p ∈ fields, p.2.isProper = true) (key : String) :
    ((fields.get? key).getD .null).isProper = true := by
  cases hv : fields.get? key with
  | none => rfl
  | some v => exact h (key, v) (Assoc.mem_of_get?_eq_some hv)

theorem isFinite_progress (site : String) (h : ∀ p ∈ fields, p.2.isProper = true) :
    ∀ f ∈ (ofFields site fields).progress, Double.isFinite f = true := by
  intro f hf
  obtain ⟨g, hg, rfl⟩ := Option.map_eq_some_iff.mp hf
  exact isFinite_clampPercent (Lenient.isNumber_of_float? (isProper_get? h "progress") hg)

theorem map_ofFloat {percent : Option Float} (h : ∀ f ∈ percent, Double.isFinite f = true) :
    percent.map .ofFloat = percent.map fun f => Json.num (.float f) := by
  cases percent with
  | none => rfl
  | some f => exact congrArg some (if_pos (h f rfl))

/-- A torrent of field values is read as it was written. -/
theorem decode_encode_ofFields (h : ∀ p ∈ fields, p.2.isProper = true) :
    decode (ofFields site fields).encode = some (ofFields site fields) := by
  rw [encode_eq, map_ofFloat (isFinite_progress site h), (isOutside_ofFields site fields).decode_entries]
  rw [Assoc.mapValues_eq_self fun p hp => Json.distinct_of_isProper p.2 (isProper_of_mem_ext h hp)]

/-! ### Torrents in texts -/

theorem asRead_ofInt64 (n : Int64) : (Json.ofInt64 n).asRead = .ofInt64 n :=
  Json.numberAsRead_int _ _

theorem asRead_ofUInt64 (n : UInt64) : (Json.ofUInt64 n).asRead = .ofUInt64 n :=
  Json.numberAsRead_int _ _

end Torrent

theorem mapValues_flatMap_optional (m : Assoc (Option Json)) (f : Json → Json) :
    Assoc.mapValues f (m.flatMap fun e => Json.optional e.1 e.2) =
      (m.mapValues (Option.map f)).flatMap fun e => Json.optional e.1 e.2 := by
  induction m with
  | nil => rfl
  | cons e rest ih =>
    obtain ⟨key, v⟩ := e
    rw [List.flatMap_cons, Assoc.mapValues, List.map_append]
    refine (congrArg (_ ++ ·) ih).trans ?_
    cases v <;> rfl

namespace Torrent

theorem mapValues_data (t : Torrent) (progress : Option Json) :
    (t.data progress).mapValues (Option.map Json.asRead) = t.data (progress.map Json.asRead) := by
  have text (s : Option String) : (s.map Json.str).map Json.asRead = s.map .str := by
    cases s <;> rfl
  have whole (n : Option Int64) : (n.map Json.ofInt64).map Json.asRead = n.map .ofInt64 := by
    cases n with
    | none => rfl
    | some n => exact congrArg some (asRead_ofInt64 n)
  have hsize : (t.size.map Json.ofUInt64).map Json.asRead = t.size.map .ofUInt64 := by
    cases t.size with
    | none => rfl
    | some n => exact congrArg some (asRead_ofUInt64 n)
  have htags : Json.asRead (.arr (t.tags.map TorrentTag.encode)) = .arr (t.tags.map TorrentTag.encode) := by
    rw [Json.asRead, Json.itemsAsRead_eq, List.map_map]
    exact congrArg Json.arr (List.map_congr_left fun tag _ => tag.asRead_encode)
  have htags : (if t.tags.isEmpty then none else some (Json.arr (t.tags.map TorrentTag.encode))).map
      Json.asRead = if t.tags.isEmpty then none else some (.arr (t.tags.map TorrentTag.encode)) := by
    split
    · rfl
    · exact congrArg some htags
  simp only [data, Assoc.mapValues, List.map_cons, List.map_nil, text, whole, hsize, htags,
    Option.map_some]
  rfl

/-- A torrent as its text is read: its progress may differ, and doubles in outside identifiers. -/
theorem asRead_entries (t : Torrent) (progress : Option Json) (ext : Fields) :
    Json.asRead (.obj (t.entries progress ext)) =
      .obj (t.entries (progress.map Json.asRead) (ext.mapValues Json.asRead)) := by
  rw [Json.asRead, Json.fieldsAsRead_eq, entries, entries, ← mapValues_data,
    ← mapValues_flatMap_optional]
  exact congrArg Json.obj List.map_append

theorem depth_le_of_mem_data {t : Torrent} {progress : Option Json}
    (h : ∀ v ∈ progress, v.depth = 0) : ∀ e ∈ t.data progress, ∀ v ∈ e.2, v.depth ≤ 2 := by
  have htags : Json.itemsDepth (t.tags.map TorrentTag.encode) ≤ 1 :=
    Json.itemsDepth_le_iff.mpr fun v hv => by
      obtain ⟨tag, -, rfl⟩ := List.mem_map.mp hv
      exact tag.depth_encode.le
  have hprogress : ∀ v, progress = some v → v.depth ≤ 2 := fun v hv => by
    rw [h v hv]
    exact Nat.zero_le _
  simpa [data, Json.depth, Json.ofInt64, Json.ofUInt64, htags] using hprogress

/-- How deep a written torrent is nested depends on its outside identifiers. -/
theorem depth_entries_le_iff {t : Torrent} {progress : Option Json} {ext : Fields} {n : Nat}
    (h : ∀ v ∈ progress, v.depth = 0) (hn : 2 ≤ n) :
    (Json.obj (t.entries progress ext)).depth ≤ n + 1 ↔ ∀ p ∈ ext, p.2.depth ≤ n := by
  have hknown : ∀ p ∈ (t.data progress).flatMap fun e => Json.optional e.1 e.2, p.2.depth ≤ n := by
    intro p hp
    obtain ⟨e, he, hpe⟩ := List.mem_flatMap.mp hp
    obtain ⟨key, v⟩ := e
    cases v with
    | none => cases hpe
    | some v =>
      obtain rfl := List.mem_singleton.mp hpe
      exact (depth_le_of_mem_data h _ he v rfl).trans hn
  rw [Json.depth, Nat.add_le_add_iff_right, Json.fieldsDepth_le_iff, entries, List.forall_mem_append]
  exact ⟨And.right, fun hext => ⟨hknown, hext⟩⟩

/-- The two torrents lead to the same link. -/
structure LinksLike (t t' : Torrent) : Prop where
  id : t.id = t'.id
  url : t.url = t'.url
  link : t.link = t'.link

/-- What is read off the text of a torrent leads to the link of the torrent. -/
theorem exists_decode_asRead (hext : IsOutside t.ext)
    (hprogress : ∀ f ∈ t.progress, Double.isFinite f = true) :
    ∃ t', decode t.encode.asRead = some t' ∧ t'.LinksLike t := by
  have hread : IsOutside (t.ext.mapValues Json.asRead) := by
    have hkeys := Assoc.keys_mapValues Json.asRead t.ext
    exact ⟨by unfold Assoc.Sorted; rw [hkeys]; exact hext.sorted, by rw [hkeys]; exact hext.led⟩
  obtain ⟨percent, hpercent⟩ : ∃ percent : Option Float,
      (t.progress.map .ofFloat).map Json.asRead = percent.map fun f => .num (.float f) := by
    rw [map_ofFloat hprogress]
    cases hf : t.progress with
    | none => exact ⟨none, rfl⟩
    | some f =>
      obtain ⟨g, hg⟩ := Json.exists_numberAsRead_float (hprogress f hf)
      exact ⟨some g, congrArg some hg⟩
  rw [encode_eq, asRead_entries, hpercent, hread.decode_entries]
  exact ⟨_, rfl, rfl, rfl, rfl⟩

end Torrent

namespace Site

theorem downloadLink_eq_of_linksLike {t t' : Torrent} (h : t.LinksLike t') (s : Site) (now : Int) :
    s.downloadLink now t = s.downloadLink now t' := by
  obtain ⟨hid, hurl, hlink⟩ := h
  simp only [downloadLink, fetchLink, detailRequest, hid, hurl, hlink]

end Site

end SiteScrape
