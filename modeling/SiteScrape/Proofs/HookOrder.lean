import SiteScrape.Proofs.KeyOrder
import SiteScrape.Proofs.ReadBack
import SiteScrape.Proofs.ReadTexts

/-!
# The order of hooks

A row is read for the default fields, then for the declared ones, then for those
that only hooks know, in the order in which the hooks happen to be listed. No
field is read twice (`nodup_keys`), and what stands at a key is what was read
there in its turn (`get?_foldl_addField`). Hooks of the last kind that do not
look at each other's fields all see the record of the others, so each adds what
it would add alone (`foldl_addField_hooked`), and another order of the hooks
gives the same entries in another order.
-/

namespace SiteScrape

namespace Rows

variable {r : Reader} {fields : Assoc Field} {source : Source} {known keys done : List String}
  {key : String} {before record record' : Fields} {order : Assoc TorrentFieldHook}

/-! ### Fields by what asks for them -/

/-- Only a hook gives the field: it is neither a default field nor declared. -/
def hookOnly (fields : Assoc Field) (key : String) : Bool :=
  !(addKeys defaultKeys fields.keys).contains key

/-- So it stands in neither of the two lists. -/
theorem hookOnly_iff : hookOnly fields key = true ↔ key ∉ defaultKeys ∧ key ∉ fields.keys := by
  simp [hookOnly, mem_addKeys]

theorem nodup_addKeys (h : known.Nodup) : (addKeys known keys).Nodup := by
  unfold addKeys
  refine List.foldlRecOn _ _ h fun known h key _ => ?_
  split
  · exact h
  · next hkey =>
    refine List.nodup_append.mpr ⟨h, List.pairwise_singleton .., fun k hk k' hk' heq => hkey ?_⟩
    rw [← List.mem_singleton.mp hk', ← heq]
    simpa using hk

/-- New keys that do not repeat go behind the known ones as they stand. -/
theorem addKeys_eq_append (h : keys.Nodup) :
    addKeys known keys = known ++ keys.filter fun key => !known.contains key := by
  induction keys generalizing known with
  | nil => simp [addKeys]
  | cons key rest ih =>
    obtain ⟨hkey, hrest⟩ := List.nodup_cons.mp h
    have hstep : addKeys known (key :: rest) =
        addKeys (if known.contains key then known else known ++ [key]) rest := rfl
    rw [hstep]
    split
    · next hknown => rw [ih hrest, List.filter_cons_of_neg (by simpa using hknown)]
    · next hknown =>
      have hsame : rest.filter (fun k => !(known ++ [key]).contains k) =
          rest.filter fun k => !known.contains k := by
        refine List.filter_congr fun k hk => ?_
        have hne : k ≠ key := fun heq => hkey (heq ▸ hk)
        simp [hne]
      rw [ih hrest, hsame, List.filter_cons_of_pos (by simpa using hknown), List.append_assoc]
      rfl

namespace Reader

/-- A hook or selectors stand behind the field. -/
def Configured (r : Reader) (fields : Assoc Field) (key : String) : Prop :=
  (r.hooks.torrentFields.get? key).isSome ∨ ((fields.get? key).filter Field.isConfigured).isSome

/-- The record of a row after some of its fields. -/
def after (r : Reader) (fields : Assoc Field) (source : Source) (done : List String) : Fields :=
  done.foldl (r.addField fields source) []

theorem isSome_value?_iff :
    (r.value? fields source before key).isSome = true ↔ r.Configured fields key := by
  unfold value? Configured
  cases hhook : r.hooks.torrentFields.get? key with
  | some hook => simp
  | none => simp

/-! ### One field after the other -/

theorem nodup_keys (r : Reader) (fields : Assoc Field) : (r.keys fields).Nodup :=
  nodup_addKeys (nodup_addKeys (by decide))

/-- The default fields come first. -/
theorem defaultKeys_prefix (r : Reader) (fields : Assoc Field) :
    defaultKeys <+: r.keys fields := by
  have hgrows (known keys : List String) : known <+: addKeys known keys := by
    unfold addKeys
    refine List.foldlRecOn _ _ (List.prefix_refl known) fun known' h key _ => ?_
    split
    · exact h
    · exact h.trans (List.prefix_append known' [key])
  exact (hgrows _ _).trans (hgrows _ _)

theorem get?_addField_of_ne {k : String} (h : k ≠ key) :
    (r.addField fields source before k).get? key = before.get? key := by
  unfold addField
  split <;> simp [Assoc.get?_insert, h]

/-- Other fields are left as they are. -/
theorem get?_foldl_addField_of_not_mem (h : key ∉ keys) :
    (keys.foldl (r.addField fields source) before).get? key = before.get? key := by
  induction keys generalizing before with
  | nil => rfl
  | cons k rest ih =>
    have hk : k ≠ key := fun heq => h (heq ▸ List.mem_cons_self)
    rw [List.foldl_cons, ih fun hmem => h (List.mem_cons_of_mem _ hmem), get?_addField_of_ne hk]

/-- Where no key stands twice, what stands at a key in the end is what was read
there, given the fields before it. -/
theorem get?_foldl_addField {rest : List String} (h : (done ++ key :: rest).Nodup) :
    (r.after fields source (done ++ key :: rest)).get? key =
      r.value? fields source (r.after fields source done) key := by
  obtain ⟨-, hrest, hdone⟩ := List.nodup_append.mp h
  have hnew : (r.after fields source done).get? key = none :=
    get?_foldl_addField_of_not_mem fun hmem => hdone key hmem key List.mem_cons_self rfl
  have hafter : r.after fields source (done ++ key :: rest) =
      rest.foldl (r.addField fields source)
        (r.addField fields source (r.after fields source done) key) := by
    simp [after, List.foldl_append]
  rw [hafter, get?_foldl_addField_of_not_mem (List.nodup_cons.mp hrest).1, addField]
  cases hvalue : r.value? fields source (r.after fields source done) key with
  | none => exact hnew
  | some v => simp [Assoc.get?_insert]

/-- A field that was read is in the record exactly if something stands behind it. -/
theorem isSome_get?_after_iff (hkeys : keys.Nodup) (h : key ∈ keys) :
    ((r.after fields source keys).get? key).isSome = true ↔ r.Configured fields key := by
  obtain ⟨done, rest, rfl⟩ := List.append_of_mem h
  rw [get?_foldl_addField hkeys, isSome_value?_iff]

/-- What was read stays as it is. -/
theorem get?_after_append {more : List String} (hkeys : (keys ++ more).Nodup) (h : key ∈ keys) :
    (r.after fields source (keys ++ more)).get? key = (r.after fields source keys).get? key := by
  have hmore : key ∉ more := fun hmem => (List.nodup_append.mp hkeys).2.2 key h key hmem rfl
  unfold after
  rw [List.foldl_append, get?_foldl_addField_of_not_mem hmore]

/-! ### Hooks in another order -/

/-- The record without the fields that only hooks give, `key` apart. -/
def beside (fields : Assoc Field) (key : String) (record : Fields) : Fields :=
  record.filter fun p => p.1 == key || !hookOnly fields p.1

/-- A hook whose field nothing else gives does not look at other such fields. -/
def LooksPast (r : Reader) (fields : Assoc Field) (source : Source) : Prop :=
  ∀ key hook, r.hooks.torrentFields.get? key = some hook → hookOnly fields key = true →
    ∀ before before', beside fields key before = beside fields key before' →
      hook r.context before source = hook r.context before' source

/-- What the hook of a field makes of a row. -/
def hooked (r : Reader) (source : Source) (before : Fields) (key : String) : Json :=
  ((r.hooks.torrentFields.get? key).map fun hook => hook r.context before source).getD .null

/-- What other hooks have added is out of sight. -/
theorem beside_append_hooked (hdone : ∀ k ∈ done, hookOnly fields k = true) (hkey : key ∉ done)
    (before : Fields) (value : String → Json) :
    beside fields key (before ++ done.map fun k => (k, value k)) = beside fields key before := by
  unfold beside
  rw [List.filter_append]
  have hnone : (done.map fun k => (k, value k)).filter
      (fun p => p.1 == key || !hookOnly fields p.1) = [] := by
    refine List.filter_eq_nil_iff.mpr fun p hp => ?_
    obtain ⟨k, hk, rfl⟩ := List.mem_map.mp hp
    have hne : k ≠ key := fun heq => hkey (heq ▸ hk)
    simp [hne, hdone k hk]
  rw [hnone, List.append_nil]

/-- One more hook adds what it makes of the record before all of them. -/
theorem addField_hooked (hpast : r.LooksPast fields source)
    (hhook : (r.hooks.torrentFields.get? key).isSome) (hkey : hookOnly fields key = true)
    (hbefore : key ∉ Assoc.keys before) (hdone : ∀ k ∈ done, hookOnly fields k = true)
    (hnew : key ∉ done) :
    r.addField fields source (before ++ done.map fun k => (k, r.hooked source before k)) key =
      before ++ (done ++ [key]).map fun k => (k, r.hooked source before k) := by
  obtain ⟨hook, hget⟩ := Option.isSome_iff_exists.mp hhook
  have habsent :
      key ∉ Assoc.keys (before ++ done.map fun k => (k, r.hooked source before k)) := by
    rw [Assoc.keys_append, List.mem_append]
    rintro (hmem | hmem)
    · exact hbefore hmem
    · exact hnew (by simpa [Assoc.keys] using hmem)
  have hvalue : r.value? fields source
      (before ++ done.map fun k => (k, r.hooked source before k)) key =
      some (r.hooked source before key) := by
    simp only [value?, hooked, hget, Option.map_some, Option.getD_some]
    exact congrArg some
      (hpast key hook hget hkey _ _ (beside_append_hooked hdone hnew before _))
  unfold addField
  rw [hvalue]
  dsimp only
  rw [Assoc.insert_of_not_mem habsent]
  simp

/-- Hooks that do not look at each other's fields each add what they make of the
record before all of them. -/
theorem foldl_addField_hooked (hpast : r.LooksPast fields source)
    (hbefore : ∀ k ∈ Assoc.keys before, hookOnly fields k = false) (hkeys : keys.Nodup)
    (honly : ∀ k ∈ keys, hookOnly fields k = true)
    (hhook : ∀ k ∈ keys, (r.hooks.torrentFields.get? k).isSome) :
    keys.foldl (r.addField fields source) before =
      before ++ keys.map fun k => (k, r.hooked source before k) := by
  -- the hooks that are done stay in front, and all of them saw the same record
  induction keys using List.reverseRecOn with
  | nil => simp
  | append_singleton done key ih =>
    have hmem : key ∈ done ++ [key] := List.mem_append_right _ (List.mem_singleton_self key)
    have hkey := honly key hmem
    have hdone := fun k hk => honly k (List.mem_append_left [key] hk)
    obtain ⟨hnodup, -, hapart⟩ := List.nodup_append.mp hkeys
    have hnew : key ∉ done := fun hk => hapart key hk key (List.mem_singleton_self key) rfl
    have habsent : key ∉ Assoc.keys before := fun hk => by
      rw [hbefore key hk] at hkey
      cases hkey
    rw [List.foldl_append, ih hnodup hdone fun k hk => hhook k (List.mem_append_left _ hk),
      List.foldl_cons, List.foldl_nil,
      addField_hooked hpast (hhook key hmem) hkey habsent hdone hnew]

/-- The reader with its hooks in another order. -/
def listing (r : Reader) (order : Assoc TorrentFieldHook) : Reader :=
  { r with hooks := { r.hooks with torrentFields := order } }

theorem addField_listing (honce : r.hooks.torrentFields.KeysOnce)
    (hperm : r.hooks.torrentFields.Perm order) :
    (r.listing order).addField fields source = r.addField fields source := by
  funext before key
  unfold addField value?
  have hget : (r.listing order).hooks.torrentFields.get? key = r.hooks.torrentFields.get? key :=
    honce.get?_perm hperm key
  rw [hget]
  rfl

/-- The fields of a row: those that are default or declared, and what hooks add. -/
theorem record_eq_append (honce : r.hooks.torrentFields.KeysOnce)
    (hpast : r.LooksPast fields source) :
    r.record fields source =
      r.after fields source (addKeys defaultKeys fields.keys) ++
        (r.hooks.torrentFields.keys.filter (hookOnly fields)).map fun k =>
          (k, r.hooked source (r.after fields source (addKeys defaultKeys fields.keys)) k) := by
  have hkeys : r.keys fields = addKeys defaultKeys fields.keys ++
      r.hooks.torrentFields.keys.filter (hookOnly fields) := addKeys_eq_append honce
  unfold record
  rw [hkeys, List.foldl_append]
  refine foldl_addField_hooked hpast (fun k hk => ?_) (List.Nodup.filter _ honce) (by simp)
    fun k hk => ?_
  · by_contra hknown
    rw [Bool.not_eq_false, hookOnly_iff] at hknown
    have hother : k ∉ addKeys defaultKeys fields.keys := by simpa [mem_addKeys] using hknown
    have hnone : Assoc.get? ((addKeys defaultKeys fields.keys).foldl (r.addField fields source) [])
        k = none := get?_foldl_addField_of_not_mem hother
    exact Assoc.get?_eq_none_iff.mp hnone hk
  · by_contra hnone
    rw [Option.not_isSome_iff_eq_none, Assoc.get?_eq_none_iff] at hnone
    exact hnone (List.mem_filter.mp hk).1

theorem perm_record_listing (honce : r.hooks.torrentFields.KeysOnce)
    (hperm : r.hooks.torrentFields.Perm order) (hpast : r.LooksPast fields source) :
    (r.record fields source).Perm ((r.listing order).record fields source) := by
  have honce' : (r.listing order).hooks.torrentFields.KeysOnce := honce.of_perm hperm
  have hpast' : (r.listing order).LooksPast fields source := fun key hook hget =>
    hpast key hook ((honce.get?_perm hperm key).symm.trans hget)
  have hafter : (r.listing order).after fields source = r.after fields source := by
    funext done
    unfold after
    rw [addField_listing honce hperm]
  have hhooked : (r.listing order).hooked source = r.hooked source := by
    funext before key
    have hget : (r.listing order).hooks.torrentFields.get? key = r.hooks.torrentFields.get? key :=
      honce.get?_perm hperm key
    unfold hooked
    rw [hget]
    rfl
  rw [record_eq_append honce hpast, record_eq_append honce' hpast', hafter, hhooked]
  exact (((hperm.map _).filter _).map _).append_left _

end Reader

/-! ### Torrents -/

theorem get?_withAbsoluteUrls_congr (h : ∀ key, record.get? key = record'.get? key) (base : String)
    (key : String) : (Reader.withAbsoluteUrls base record).get? key =
      (Reader.withAbsoluteUrls base record').get? key := by
  unfold Reader.withAbsoluteUrls
  simp only [Assoc.get?_modify, h]

theorem keysOnce_withAbsoluteUrls (h : Assoc.KeysOnce record) (base : String) :
    Assoc.KeysOnce (Reader.withAbsoluteUrls base record) := by
  unfold Reader.withAbsoluteUrls
  exact Assoc.KeysOnce.modify (Assoc.KeysOnce.modify h _ _) _ _

/-- A torrent is made by what stands at the keys of a record, in whatever order. -/
theorem ofFields_congr (h : Assoc.KeysOnce record) (h' : Assoc.KeysOnce record')
    (hget : ∀ key, record.get? key = record'.get? key) (site : String) :
    Torrent.ofFields site record = Torrent.ofFields site record' := by
  have hext (p : String × Json → Bool) :
      Assoc.sorted (List.filter p record) = Assoc.sorted (List.filter p record') := by
    refine Assoc.Sorted.ext (Assoc.sorted_sorted _) (Assoc.sorted_sorted _) fun key => ?_
    rw [(h.filter p).get?_sorted, (h'.filter p).get?_sorted, h.get?_filter, h'.get?_filter, hget]
  unfold Torrent.ofFields
  simp only [hget, hext]

namespace Reader

/-- If no hook whose field nothing else gives looks at another such field, the
order in which the hooks are listed does not matter for the record of a row, nor
for its torrent. No field is read twice: what the record has of it is what was read
in its turn, and whatever is read behind the default fields is read with all of
these in the record that have a hook or selectors. -/
theorem record_of_reordered (honce : r.hooks.torrentFields.KeysOnce)
    (hperm : r.hooks.torrentFields.Perm order) :
    (r.LooksPast fields source →
      (∀ key, ((r.listing order).record fields source).get? key =
        (r.record fields source).get? key) ∧
      ∀ m, (r.listing order).torrent m ((r.listing order).record fields source) =
        r.torrent m (r.record fields source)) ∧
    (r.keys fields).Nodup ∧
    ∀ done key rest, r.keys fields = done ++ key :: rest →
      (r.record fields source).get? key =
        r.value? fields source (r.after fields source done) key ∧
      (key ∉ defaultKeys → ∀ d ∈ defaultKeys, r.Configured fields d →
        ((r.after fields source done).get? d).isSome = true ∧
        (r.after fields source done).get? d = (r.record fields source).get? d) := by
  refine ⟨fun hpast => ?_, nodup_keys r fields, fun done key rest hkeys => ?_⟩
  · have hget (key : String) : ((r.listing order).record fields source).get? key =
        (r.record fields source).get? key :=
      (keysOnce_record r fields source).get?_perm (perm_record_listing honce hperm hpast) key
    refine ⟨hget, fun m => ?_⟩
    exact ofFields_congr (keysOnce_withAbsoluteUrls (keysOnce_record ..) _)
      (keysOnce_withAbsoluteUrls (keysOnce_record ..) _)
      (get?_withAbsoluteUrls_congr hget _) m.id
  · have hnodup : (done ++ key :: rest).Nodup := hkeys ▸ nodup_keys r fields
    have hrecord : r.record fields source = r.after fields source (done ++ key :: rest) := by
      rw [← hkeys]; rfl
    rw [hrecord]
    refine ⟨get?_foldl_addField hnodup, fun hkey d hd hconfigured => ?_⟩
    have hdone : d ∈ done := by
      -- the default fields stand in front, and the key is none of them
      obtain ⟨more, hmore⟩ := defaultKeys_prefix r fields
      rw [hkeys] at hmore
      rcases List.append_eq_append_iff.mp hmore with ⟨front, hfront, -⟩ | ⟨back, hback, hrest⟩
      · exact hfront ▸ List.mem_append_left front hd
      · cases back with
        | nil => rwa [hback, List.append_nil] at hd
        | cons k back =>
          obtain ⟨rfl, -⟩ := List.cons.inj hrest
          exact absurd (hback ▸ List.mem_append_right done List.mem_cons_self) hkey
    exact ⟨(isSome_get?_after_iff (List.nodup_append.mp hnodup).1 hdone).mpr hconfigured,
      (get?_after_append hnodup hdone).symm⟩

/-- A hook that repeats what the record has at a key. -/
def echo (key : String) : TorrentFieldHook := fun _ before _ => (Assoc.get? before key).getD .null

/-- Fields that something other than a hook gives are seen past all others. -/
theorem get?_beside {k : String} (h : hookOnly fields k = false) :
    Assoc.get? (beside fields key before) k = Assoc.get? before k := by
  unfold beside
  induction before with
  | nil => rfl
  | cons p rest ih =>
    by_cases hk : p.1 = k
    · have hkeep : (p.1 == key || !hookOnly fields p.1) = true := by simp [hk, h]
      rw [List.filter_cons, if_pos hkeep]
      simp [Assoc.get?, hk]
    · rw [List.filter_cons]
      split <;> simp [Assoc.get?, hk, ih]

/-- Repeating default and declared fields is looking past those of other hooks. -/
theorem looksPast_of_echo (h : ∀ key hook, r.hooks.torrentFields.get? key = some hook →
    ∃ k, hook = echo k ∧ hookOnly fields k = false) : r.LooksPast fields source := by
  intro key hook hget _ before before' heq
  obtain ⟨k, rfl, hk⟩ := h key hook hget
  have hsame : Assoc.get? before k = Assoc.get? before' k := by
    rw [← get?_beside hk, heq, get?_beside hk]
  unfold echo
  rw [hsame]

/-- Two hooks that repeat what is read before them. -/
def echoes : Assoc TorrentFieldHook := [("ext_name", echo "title"), ("ext_number", echo "id")]

def echoReader : Reader := ⟨{ torrentFields := echoes }, { now := 0 }⟩

def echoFields : Assoc Field :=
  [("id", { selectors := ["no"] }), ("title", { selectors := ["name"] })]

def echoSource : Source := .json (.obj [("name", .str "Film"), ("no", .str "07")])

/-- The hooks may change places, and the first of them sees the title. -/
theorem record_of_reordered_echoes :
    echoes.KeysOnce ∧ echoes.Perm echoes.reverse ∧ echoReader.LooksPast echoFields echoSource ∧
      ((echoReader.listing echoes.reverse).record echoFields echoSource).get? "ext_name" =
        some (.str "Film") ∧
      ((echoReader.listing echoes.reverse).torrent { id := "demo" }
        ((echoReader.listing echoes.reverse).record echoFields echoSource)).title = "Film" ∧
      (echoReader.after echoFields echoSource defaultKeys).get? "title" = some (.str "Film") := by
  have honce : echoes.KeysOnce := by unfold Assoc.KeysOnce; decide
  have hperm : echoes.Perm echoes.reverse := (List.reverse_perm echoes).symm
  have hpast : echoReader.LooksPast echoFields echoSource := by
    refine looksPast_of_echo fun key hook hget => ?_
    rcases List.mem_cons.mp (Assoc.mem_of_get?_eq_some hget) with hfirst | hsecond
    · cases hfirst
      exact ⟨"title", rfl, by decide⟩
    · cases List.mem_singleton.mp hsecond
      exact ⟨"id", rfl, by decide⟩
  obtain ⟨hsame, -, hturn⟩ := record_of_reordered (r := echoReader) honce hperm
  obtain ⟨hrecord, htorrent⟩ := hsame hpast
  have hkeys : echoReader.keys echoFields = defaultKeys ++ "ext_name" :: ["ext_number"] := by decide
  obtain ⟨-, hseen⟩ := hturn defaultKeys "ext_name" ["ext_number"] hkeys
  obtain ⟨-, htitle⟩ := hseen (by decide) "title" (by decide) (.inr (by decide))
  exact ⟨honce, hperm, hpast, (hrecord "ext_name").trans rfl,
    (congrArg Torrent.title (htorrent { id := "demo" })).trans (by decide +kernel),
    htitle.trans rfl⟩

end Reader

end Rows

end SiteScrape
