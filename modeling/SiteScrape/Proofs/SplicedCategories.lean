import Mathlib.Data.List.Induction
import SiteScrape.Proofs.SearchBlocks

/-!
# The categories of a search

Categories may stand in every layer, shared ones beside the search block and
others inside it. Merging lists those of the more specific layers first
(`itemsIn_merge`, `itemsIn_field?_merge`); of the shared ones followed by the others
the first with each key stays (`keepsFirst_firstOfEachKey`). A category written as
a list of its fields shows no key and always stays, and a search block
written as such a list is left without the shared ones.
-/

namespace SiteScrape

open Decode Json Layers

/-! ### Lists in layers over each other -/

namespace Layers

variable {key : String} {lower upper : Option Json} {below : List (Option Json)}

/-- The items of an array; anything else has none. -/
def itemsIn (x : Option Json) : List Json := (x.bind Json.asArray?).getD []

/-- The items of the arrays that layers hold, those of the topmost first. Nothing
and null are passed over; any other value hides what is below it. -/
def itemsOf : List (Option Json) → List Json
  | none :: below | some .null :: below => itemsOf below
  | some (.arr items) :: below => items ++ itemsOf below
  | _ => []

/-- What the objects that layers hold have at a key, the topmost first. Nothing
and null are passed over; any other value hides what is below it. -/
def fieldsOf (key : String) : List (Option Json) → List (Option Json)
  | none :: below | some .null :: below => fieldsOf key below
  | some (.obj fields) :: below => Assoc.get? fields key :: fieldsOf key below
  | _ => []

theorem itemsIn_overlay_none (x : Option Json) : itemsIn (overlay .deep none x) = itemsIn x := by
  match x with
  | none | some .null | some (.bool _) | some (.num _) | some (.str _) | some (.arr _)
  | some (.obj _) => rfl

/-- One layer more puts its items before those below. -/
theorem itemsIn_overlay (h : itemsIn lower = itemsOf below) :
    itemsIn (overlay .deep lower upper) = itemsOf (upper :: below) := by
  match upper with
  | none => rwa [overlay_none]
  | some .null => rwa [overlay_null]
  | some (.arr items) =>
    rw [itemsOf, ← h]
    match lower with
    | none | some .null | some (.bool _) | some (.num _) | some (.str _) | some (.obj _) =>
      exact (List.append_nil items).symm
    | some (.arr _) => rfl
  | some (.bool _) | some (.num _) | some (.str _) | some (.obj _) =>
    match lower with
    | none | some .null | some (.bool _) | some (.num _) | some (.str _) | some (.arr _)
    | some (.obj _) => rfl

theorem itemsIn_eq_itemsOf (x : Option Json) : itemsIn x = itemsOf [x] := by
  have hnone : itemsIn none = itemsOf [] := rfl
  rw [← itemsIn_overlay hnone, itemsIn_overlay_none]

/-- And so it does inside the objects of the layers. -/
theorem itemsIn_field?_overlay (hkey : Rule.ofKey key = .deep) (hl : ∀ v ∈ lower, v.KeysOnce)
    (hu : ∀ v ∈ upper, v.KeysOnce)
    (h : itemsIn (lower.bind (·.field? key)) = itemsOf (fieldsOf key below)) :
    itemsIn ((overlay .deep lower upper).bind (·.field? key)) =
      itemsOf (fieldsOf key (upper :: below)) := by
  match upper with
  | none => rwa [overlay_none]
  | some .null => rwa [overlay_null]
  | some (.obj u) =>
    rw [fieldsOf, ← itemsIn_overlay h]
    match lower with
    | some (.obj l) =>
      have hview := (view_mergeFields (hl _ rfl).fields (hu _ rfl).fields).2 key
      rw [hkey] at hview
      rw [overlay_some, mergeValue_obj]
      exact congrArg itemsIn hview
    | none | some .null | some (.bool _) | some (.num _) | some (.str _) | some (.arr _) =>
      exact (itemsIn_overlay_none (Assoc.get? u key)).symm
  | some (.arr items) =>
    match lower with
    | none | some .null | some (.bool _) | some (.num _) | some (.str _) | some (.arr _)
    | some (.obj _) => rfl
  | some (.bool _) | some (.num _) | some (.str _) =>
    match lower with
    | none | some .null | some (.bool _) | some (.num _) | some (.str _) | some (.arr _)
    | some (.obj _) => rfl

/-- What all layers hold at a key, the topmost first. -/
def heldAt (key : String) (layers : List Json) : List (Option Json) :=
  layers.reverse.map (·.field? key)

/-- What holds of nothing below nothing, and stays with every layer more, holds of
what is merged at a key and of what the layers hold there. -/
theorem field?_merge_induction {P : Option Json → List (Option Json) → Prop}
    (base_case : ∀ x, P x [x])
    (step : ∀ {lower upper : Option Json} {below : List (Option Json)},
      (∀ v ∈ lower, v.KeysOnce) → (∀ v ∈ upper, v.KeysOnce) → P lower below →
        P (overlay (.ofKey key) lower upper) (upper :: below))
    {base : Json} {layers : List Json} (hobj : ∀ v ∈ base :: layers, v.isObject = true)
    (honce : ∀ v ∈ base :: layers, v.KeysOnce) :
    P ((merge base layers).field? key) (heldAt key (base :: layers)) := by
  -- the induction goes from the last layer, the topmost one
  suffices (merge base layers).isObject = true ∧ (merge base layers).KeysOnce ∧
      P ((merge base layers).field? key) (heldAt key (base :: layers)) from this.2.2
  induction layers using List.reverseRecOn with
  | nil =>
    exact ⟨hobj base List.mem_cons_self, honce base List.mem_cons_self, base_case _⟩
  | append_singleton layers layer ih =>
    have hsub : ∀ v ∈ base :: layers, v ∈ base :: (layers ++ [layer]) := by simp +contextual
    have hmem : layer ∈ base :: (layers ++ [layer]) := by simp
    obtain ⟨hobj', honce', hP⟩ :=
      ih (fun v hv => hobj v (hsub v hv)) fun v hv => honce v (hsub v hv)
    have hlower := isRecord_of_keysOnce hobj' honce'
    have hupper := isRecord_of_keysOnce (hobj layer hmem) (honce layer hmem)
    have hheld : heldAt key (base :: (layers ++ [layer])) =
        layer.field? key :: heldAt key (base :: layers) := by simp [heldAt]
    rw [merge_concat, hheld, field?_mergeValue hlower hupper]
    exact ⟨(hlower.mergeValue hupper).isObject,
      keysOnce_mergeValue .deep honce' (honce layer hmem),
      step (fun v hv => honce'.field? hv) (fun v hv => (honce layer hmem).field? hv) hP⟩

variable {base : Json} {layers : List Json} {inner : String}

theorem itemsIn_merge (hkey : Rule.ofKey key = .deep)
    (hobj : ∀ v ∈ base :: layers, v.isObject = true)
    (honce : ∀ v ∈ base :: layers, v.KeysOnce) :
    itemsIn ((merge base layers).field? key) = itemsOf (heldAt key (base :: layers)) := by
  refine field?_merge_induction (P := fun x held => itemsIn x = itemsOf held) itemsIn_eq_itemsOf
    (fun _ _ h => ?_) hobj honce
  rw [hkey]
  exact itemsIn_overlay h

theorem itemsIn_field?_merge (hkey : Rule.ofKey key = .deep) (hinner : Rule.ofKey inner = .deep)
    (hobj : ∀ v ∈ base :: layers, v.isObject = true)
    (honce : ∀ v ∈ base :: layers, v.KeysOnce) :
    itemsIn (((merge base layers).field? key).bind (·.field? inner)) =
      itemsOf (fieldsOf inner (heldAt key (base :: layers))) := by
  refine field?_merge_induction
    (P := fun x held => itemsIn (x.bind (·.field? inner)) = itemsOf (fieldsOf inner held))
    (fun x => ?_) (fun hl hu h => ?_) hobj honce
  · match x with
    | some (.obj fields) => exact itemsIn_eq_itemsOf (Assoc.get? fields inner)
    | none | some .null | some (.bool _) | some (.num _) | some (.str _) | some (.arr _) => rfl
  · rw [hkey]
    exact itemsIn_field?_overlay hinner hl hu h

end Layers

/-! ### The first definition of each key -/

namespace Definition

variable {definitions kept : List Json} {v : Json} {key : String}

/-- What stays of definitions when of those with one key only the first does. -/
structure KeepsFirst (definitions kept : List Json) : Prop where
  order : kept.Sublist definitions
  keys : kept.filterMap categoryKey? = (definitions.filterMap categoryKey?).eraseDups
  first : ∀ key, kept.find? (categoryKey? · == some key) =
    definitions.find? (categoryKey? · == some key)
  keyless : (kept.filter fun v => (categoryKey? v).isNone) =
    definitions.filter fun v => (categoryKey? v).isNone

theorem KeepsFirst.nil : KeepsFirst [] [] where
  order := .slnil
  keys := rfl
  first _ := rfl
  keyless := rfl

theorem eraseDups_concat (l : List String) (s : String) :
    (l ++ [s]).eraseDups = if s ∈ l then l.eraseDups else l.eraseDups ++ [s] := by
  rw [List.eraseDups_append]
  by_cases h : s ∈ l <;> simp [List.removeAll, h, List.eraseDups_cons]

theorem nodup_eraseDups (l : List String) : l.eraseDups.Nodup := by
  induction l using List.reverseRecOn with
  | nil => exact .nil
  | append_singleton l s ih =>
    rw [eraseDups_concat]
    split
    · exact ih
    · next h =>
      rw [← List.concat_eq_append]
      exact ih.concat fun hmem => h (List.mem_eraseDups.mp hmem)

/-- The key of a definition is among the keys. -/
theorem find?_categoryKey?_isSome :
    (definitions.find? (categoryKey? · == some key)).isSome ↔
      key ∈ definitions.filterMap categoryKey? := by
  simp [List.find?_isSome, List.mem_filterMap]

/-- A definition whose key stood before goes. -/
theorem KeepsFirst.skip (h : KeepsFirst definitions kept) (hv : categoryKey? v = some key)
    (hmem : key ∈ kept.filterMap categoryKey?) : KeepsFirst (definitions ++ [v]) kept := by
  have hbefore : key ∈ definitions.filterMap categoryKey? := by
    rwa [h.keys, List.mem_eraseDups] at hmem
  constructor
  case order => exact h.order.trans (List.sublist_append_left ..)
  case keys =>
    rw [List.filterMap_append, h.keys]
    simp [hv, eraseDups_concat, hbefore]
  case first =>
    intro other
    rw [List.find?_append, h.first]
    by_cases hkey : key = other
    · subst hkey
      obtain ⟨w, hw⟩ := Option.isSome_iff_exists.mp (find?_categoryKey?_isSome.mpr hbefore)
      rw [hw]
      rfl
    · simp [hv, hkey]
  case keyless => simp [h.keyless, hv]

/-- One with a new key, or with none, stays. -/
theorem KeepsFirst.keep (h : KeepsFirst definitions kept)
    (hnew : ∀ key, categoryKey? v = some key → key ∉ kept.filterMap categoryKey?) :
    KeepsFirst (definitions ++ [v]) (kept ++ [v]) where
  order := h.order.append (List.Sublist.refl [v])
  keys := by
    cases hv : categoryKey? v with
    | none => simp [hv, h.keys]
    | some key =>
      have hbefore : key ∉ definitions.filterMap categoryKey? := by
        have := hnew key hv
        rwa [h.keys, List.mem_eraseDups] at this
      rw [List.filterMap_append, List.filterMap_append, h.keys]
      simp only [List.filterMap_cons, hv, List.filterMap_nil]
      rw [eraseDups_concat, if_neg hbefore]
  first key := by rw [List.find?_append, List.find?_append, h.first]
  keyless := by rw [List.filter_append, List.filter_append, h.keyless]

theorem firstOfEachKey_concat (items : List Json) (v : Json) :
    firstOfEachKey (items ++ [v]) =
      match categoryKey? v with
      | some key =>
        if (firstOfEachKey items).any (categoryKey? · == some key) then firstOfEachKey items
        else firstOfEachKey items ++ [v]
      | none => firstOfEachKey items ++ [v] := by
  unfold firstOfEachKey
  rw [List.foldl_append]
  cases hv : categoryKey? v with
  | none => simp [hv]
  | some key =>
    simp only [List.foldl_cons, hv, List.foldl_nil, List.any_reverse]
    split <;> simp

theorem keepsFirst_firstOfEachKey (definitions : List Json) :
    KeepsFirst definitions (firstOfEachKey definitions) := by
  induction definitions using List.reverseRecOn with
  | nil => exact .nil
  | append_singleton definitions v ih =>
    rw [firstOfEachKey_concat]
    split
    · next key hv =>
      have hany : (firstOfEachKey definitions).any (categoryKey? · == some key) = true ↔
          key ∈ (firstOfEachKey definitions).filterMap categoryKey? := by
        simp [List.mem_filterMap]
      split
      · next hkept => exact ih.skip hv (hany.mp hkept)
      · next hkept =>
        refine ih.keep fun other hother hmem => hkept (hany.mpr ?_)
        rw [hv] at hother
        cases hother
        exact hmem
    · next hv =>
      refine ih.keep fun key hkey => ?_
      rw [hv] at hkey
      cases hkey

/-! ### The search block of a completed definition -/

variable {schema site : Json} {user : Option Json} {offset : Option String} {m : Metadata}
  {fields search : Fields} {items : List Json} {block : SearchEntry}

/-- What is done before categories are spliced leaves them alone. -/
theorem exists_complete_eq (offset : Option String) (fields : Fields) :
    ∃ before : Fields, complete offset fields = spliceCategories before ∧
      before.get? "category" = fields.get? "category" ∧
      before.get? "search" = fields.get? "search" := by
  refine ⟨_, rfl, ?_⟩
  cases offset <;> simp [get?_orElse, Assoc.get?_modify]

/-- In a search block that is an object the categories change, and nothing else does. -/
theorem exists_get?_spliceCategories (hshared : fields.get? "category" = some (.arr items))
    (hne : items ≠ []) (hsearch : fields.get? "search" = some (.obj search))
    (honce : search.KeysOnce) :
    ∃ spliced : Fields, Assoc.get? (spliceCategories fields) "search" = some (.obj spliced) ∧
      spliced.get? "categories" =
        some (.arr (firstOfEachKey (items ++ itemsIn (search.get? "categories")))) ∧
      ∀ key ≠ "categories", spliced.get? key = search.get? key := by
  obtain ⟨c, cs, rfl⟩ := List.exists_cons_of_ne_nil hne
  simp only [spliceCategories, hshared, hsearch, Assoc.get?_insert, if_true]
  refine ⟨_, rfl, ?_, fun key hkey => ?_⟩
  · rw [Assoc.get?_insert, if_pos rfl]
    cases htake : Assoc.take? search "categories" with
    | none => rw [Assoc.take?_eq_none_iff.mp htake]; rfl
    | some taken => rw [(honce.take? htake).2.1]; rfl
  · rw [Assoc.get?_insert, if_neg hkey.symm]
    cases htake : Assoc.take? search "categories" with
    | none => rfl
    | some taken => rw [Option.getD_some, (honce.take? htake).2.2, if_neg hkey.symm]

/-- One that is no object stays as it is. -/
theorem spliceCategories_of_not_object (h : ∀ search, fields.get? "search" ≠ some (.obj search)) :
    spliceCategories fields = fields := by
  unfold spliceCategories
  split
  · next search _ hsearch => exact absurd hsearch (h search)
  · rfl

/-- But for its categories a block is read off what stands at the other keys. -/
theorem decode_without_categories {spliced : Fields} (honce : search.KeysOnce)
    (hother : ∀ key ≠ "categories", spliced.get? key = search.get? key)
    (h : block.ReadOff spliced) :
    SearchEntry.decode (.obj (search.filter (·.1 != "categories"))) =
      some { block with categories := [] } := by
  have hget (key : String) (hkey : key ≠ "categories") :
      Assoc.get? (search.filter (·.1 != "categories")) key = spliced.get? key := by
    rw [honce.get?_filter, hother key hkey]
    cases Assoc.get? search key <;> simp [hkey]
  have hgone : Assoc.get? (search.filter (·.1 != "categories")) "categories" = none := by
    rw [honce.get?_filter]
    simp
  refine SearchEntry.decode_eq_some_iff.mpr
    ⟨_, record_of_isRecord ⟨_, rfl, honce.filter _⟩, ?_⟩
  constructor
  case categories => rw [withDefault, hgone]
  case keywordRules =>
    rw [withDefault, hget _ (by decide)]
    exact h.keywordRules
  all_goals rw [Decode.optional, withDefault, hget _ (by decide)]
  case id => exact h.id
  case name => exact h.name
  case enabled => exact h.enabled
  case requestConfig => exact h.requestConfig
  case transformer => exact h.transformer
  case keywordPath => exact h.keywordPath
  case selectors => exact h.selectors

/-! ### Keys -/

/-- A category that is not written as a list shows the key that is read. -/
theorem categoryKey?_of_decode {c : Category} (hv : v.asArray? = none)
    (h : Category.decode v = some c) : categoryKey? v = some c.key := by
  cases v with
  | null | bool | num | str => cases h
  | arr => cases hv
  | obj fields =>
    simp only [Category.decode, Option.bind_eq_bind, Option.bind_eq_some_iff,
      Option.some.injEq] at h
    obtain ⟨e, he, _, -, _, hkey, _, -, _, -, rfl⟩ := h
    rw [eq_of_record he] at hkey
    exact hkey

theorem map_key_of_mapM {categories : List Category}
    (h : kept.mapM Category.decode = some categories) (hkept : ∀ v ∈ kept, v.asArray? = none) :
    categories.map (·.key) = kept.filterMap categoryKey? := by
  induction kept generalizing categories with
  | nil => cases h; rfl
  | cons v rest ih =>
    obtain ⟨hv, hrest⟩ := List.forall_mem_cons.mp hkept
    rw [List.mapM_cons] at h
    obtain ⟨c, hc, h⟩ := Option.bind_eq_some_iff.mp h
    obtain ⟨more, hmore, h⟩ := Option.bind_eq_some_iff.mp h
    cases h
    rw [List.map_cons, List.filterMap_cons, categoryKey?_of_decode hv hc, ih hmore hrest]

/-- Where no key stands twice, what has it is found by it. -/
theorem find?_categoryKey? (h : (kept.filterMap categoryKey?).Nodup) (hv : v ∈ kept)
    (hkey : categoryKey? v = some key) : kept.find? (categoryKey? · == some key) = some v := by
  induction kept with
  | nil => cases hv
  | cons w rest ih =>
    rw [List.filterMap_cons] at h
    rcases List.mem_cons.mp hv with rfl | hv
    · simp [hkey]
    · cases hw : categoryKey? w with
      | none =>
        rw [hw] at h
        simp [hw, ih h hv]
      | some other =>
        rw [hw] at h
        obtain ⟨hnot, h⟩ := List.nodup_cons.mp h
        have hne : other ≠ key := by
          rintro rfl
          exact hnot (List.mem_filterMap.mpr ⟨v, hv, hkey⟩)
        simp [hw, hne, ih h hv]

/-! ### The categories of all layers -/

/-- The layers merged. -/
def merged (schema site : Json) (user : Option Json) : Json :=
  Layers.merge schema (site :: user.toList)

/-- The definitions in all layers: the shared ones, then those of the search, each
from the topmost layer on. -/
def definitionsOf (schema site : Json) (user : Option Json) : List Json :=
  let layers := schema :: site :: user.toList
  itemsOf (heldAt "category" layers) ++ itemsOf (fieldsOf "categories" (heldAt "search" layers))

theorem definitionsOf_eq (hobj : ∀ layer ∈ schema :: site :: user.toList, layer.isObject = true)
    (honce : ∀ layer ∈ schema :: site :: user.toList, layer.KeysOnce)
    (hshared : (merged schema site user).field? "category" = some (.arr items))
    (hsearch : (merged schema site user).field? "search" = some (.obj search)) :
    items ++ itemsIn (search.get? "categories") = definitionsOf schema site user := by
  have hdeep : ∀ key ∈ ["category", "search", "categories"], Rule.ofKey key = .deep := by decide
  have hitems := itemsIn_merge (hdeep "category" (by simp)) hobj honce
  have hown := itemsIn_field?_merge (hdeep "search" (by simp)) (hdeep "categories" (by simp)) hobj
    honce
  rw [merged] at hshared hsearch
  rw [hshared] at hitems
  rw [hsearch] at hown
  rw [definitionsOf, ← hitems, ← hown]
  rfl

/-- The categories are read off definitions of which the first with each key stays. -/
structure ReadsFirst (definitions : List Json) (categories : List Category) : Prop where
  read : ∃ kept, KeepsFirst definitions kept ∧ kept.mapM Category.decode = some categories
  /-- If every definition shows its key, so do the categories. -/
  distinct : (∀ v ∈ definitions, v.asArray? = none) →
    (categories.map (·.key)).Nodup ∧
    categories.map (·.key) = (definitions.filterMap categoryKey?).eraseDups ∧
    (∀ key, key ∈ categories.map (·.key) ↔ ∃ v ∈ definitions, categoryKey? v = some key) ∧
    ∀ c ∈ categories, ∃ v, definitions.find? (categoryKey? · == some c.key) = some v ∧
      Category.decode v = some c

theorem KeepsFirst.readsFirst {categories : List Category} (h : KeepsFirst definitions kept)
    (hread : kept.mapM Category.decode = some categories) : ReadsFirst definitions categories where
  read := ⟨kept, h, hread⟩
  distinct hlists := by
    have hkept : ∀ v ∈ kept, v.asArray? = none := fun v hv => hlists v (h.order.subset hv)
    have hkeys : categories.map (·.key) = (definitions.filterMap categoryKey?).eraseDups :=
      (map_key_of_mapM hread hkept).trans h.keys
    refine ⟨hkeys ▸ nodup_eraseDups _, hkeys, fun key => ?_, fun c hc => ?_⟩
    · rw [hkeys, List.mem_eraseDups, List.mem_filterMap]
    · obtain ⟨v, hv, hvc⟩ := Decode.exists_of_mapM hread hc
      have hnodup : (kept.filterMap categoryKey?).Nodup := h.keys ▸ nodup_eraseDups _
      rw [← h.first]
      exact ⟨v, find?_categoryKey? hnodup hv (categoryKey?_of_decode (hkept v hv) hvc), hvc⟩

/-- Where layers resolve to a definition with a search block and name shared
categories: if the search block of the layers is an object, its categories are
read off the first definition of each key, of the shared definitions and then those of
the search, each from the topmost layer on, and all else in it is as it was merged. If it is
no object, it is read as it was merged. -/
theorem resolve_categories (honce : ∀ layer ∈ schema :: site :: user.toList, layer.KeysOnce)
    (hm : resolve schema site user offset = .ok m) (hblock : m.search = some block)
    (hshared : (merged schema site user).field? "category" = some (.arr items))
    (hne : items ≠ []) :
    (∀ search, (merged schema site user).field? "search" = some (.obj search) →
      ReadsFirst (definitionsOf schema site user) block.categories ∧
      SearchEntry.decode (.obj (search.filter (·.1 != "categories"))) =
        some { block with categories := [] }) ∧
    ∀ v, (merged schema site user).field? "search" = some v → v.isObject = false →
      SearchEntry.decode v = some block := by
  obtain ⟨hschema, hsite, huser, -, hdecode⟩ := resolve_eq_ok_iff.mp hm
  have hobj : ∀ layer ∈ schema :: site :: user.toList, layer.isObject = true := by
    simpa [hschema, hsite] using huser
  have hread := Metadata.readOff_of_decode hdecode
  obtain ⟨w, hw, hwb⟩ := (reads_of_optional (hblock ▸ hread.search)).exists_of_some
  obtain ⟨before, hcomplete, hcategory, hsearch⟩ := exists_complete_eq offset
    ((merged schema site user).asObject?.getD [])
  rw [get?_getD_asObject?] at hcategory hsearch
  replace hw : Assoc.get? (spliceCategories before) "search" = some w := hcomplete ▸ hw
  refine ⟨fun search hs => ?_, fun v hv hv' => ?_⟩
  · have hkeys : Assoc.KeysOnce search := ((keysOnce_merge honce).field? hs).fields
    obtain ⟨spliced, hspliced, hcategories, hother⟩ :=
      exists_get?_spliceCategories (hcategory.trans hshared) hne (hsearch.trans hs) hkeys
    cases hspliced.symm.trans hw
    obtain ⟨e, he, hreadOff⟩ := SearchEntry.decode_eq_some_iff.mp hwb
    rw [eq_of_record he] at hreadOff
    refine ⟨?_, decode_without_categories hkeys hother hreadOff⟩
    have hlist := hreadOff.categories
    rw [withDefault, hcategories, definitionsOf_eq hobj honce hshared hs] at hlist
    exact (keepsFirst_firstOfEachKey _).readsFirst hlist
  · have hsame : spliceCategories before = before := by
      refine spliceCategories_of_not_object fun search hs => ?_
      rw [hsearch, hv] at hs
      cases hs
      cases hv'
    rw [hsame, hsearch, hv] at hw
    cases hw
    exact hwb

/-- A category with this name and this key. -/
def category (name key : String) : Json := .obj [("name", .str name), ("key", .str key)]

/-- The layers of a site of films; some keys stand in several of them. -/
def filmSchema : Json :=
  .obj [("category", .arr [category "Films" "cat"]),
    ("search", .obj [("categories", .arr [category "Shows" "type"])])]

def filmSite : Json :=
  .obj [("id", .str "demo"), ("category", .arr [category "Movies" "cat"]),
    ("search", .obj [("id", .str "browse"),
      ("categories", .arr [category "Others" "cat", category "Format" "form"])])]

def filmUser : Json := .obj [("search", .obj [("categories", .arr [category "Kinds" "type"])])]

/-- Shared categories come first, and those of the user before those of the schema. -/
theorem resolve_categories_of_films :
    (∀ layer ∈ [filmSchema, filmSite, filmUser], layer.KeysOnce) ∧
      ∃ m block items search, resolve filmSchema filmSite (some filmUser) none = .ok m ∧
        m.search = some block ∧
        (merged filmSchema filmSite (some filmUser)).field? "category" = some (.arr items) ∧
        items ≠ [] ∧
        (merged filmSchema filmSite (some filmUser)).field? "search" = some (.obj search) ∧
        ReadsFirst (definitionsOf filmSchema filmSite (some filmUser)) block.categories ∧
        block.categories.map (·.key) = ["cat", "type", "form"] ∧
        block.categories.map (·.name) = ["Movies", "Kinds", "Format"] ∧
        SearchEntry.decode (.obj (search.filter (·.1 != "categories"))) =
          some { block with categories := [] } := by
  have honce : ∀ layer ∈ [filmSchema, filmSite, filmUser], layer.KeysOnce :=
    keysOnce_of_map_distinct rfl
  obtain ⟨m, hm⟩ : ∃ m, resolve filmSchema filmSite (some filmUser) none = .ok m := ⟨_, rfl⟩
  obtain ⟨block, hblock⟩ : ∃ block, m.search = some block := by cases hm; exact ⟨_, rfl⟩
  have hshared : (merged filmSchema filmSite (some filmUser)).field? "category" =
      some (.arr [category "Movies" "cat", category "Films" "cat"]) := rfl
  obtain ⟨hobject, -⟩ := resolve_categories honce hm hblock hshared (by decide)
  obtain ⟨hfirst, hrest⟩ := hobject _ rfl
  refine ⟨honce, m, block, _, _, hm, hblock, hshared, by decide, rfl, hfirst, ?_, ?_, hrest⟩
  · rw [(hfirst.distinct (by decide)).2.1]
    decide
  · cases hm
    cases hblock
    rfl

/-- A site whose search block is written as a list of its fields. -/
def listedSearch : Json :=
  .obj [("id", .str "demo"), ("category", .arr [category "Movies" "cat"]),
    ("search", .arr [.str "browse"])]

/-- A site whose shared categories are written as lists of their fields. -/
def listedCategories : Json :=
  .obj [("id", .str "demo"),
    ("category", .arr [.ofStrings ["Movies", "cat"], .ofStrings ["Films", "cat"]]),
    ("search", .obj [])]

/-- Such a search block gets none of the shared categories, and of such categories
two with one key stay. -/
theorem categories_of_lists :
    (∃ m block, resolve (.obj []) listedSearch none none = .ok m ∧ m.search = some block ∧
      (merged (.obj []) listedSearch none).field? "category" =
        some (.arr [category "Movies" "cat"]) ∧
      categoryKey? (category "Movies" "cat") = some "cat" ∧ block.categories = []) ∧
    ∃ m block, resolve (.obj []) listedCategories none none = .ok m ∧ m.search = some block ∧
      block.categories.map (·.key) = ["cat", "cat"] :=
  ⟨⟨_, _, rfl, rfl, rfl, rfl, rfl⟩, _, _, rfl, rfl, rfl⟩

end Definition

end SiteScrape
