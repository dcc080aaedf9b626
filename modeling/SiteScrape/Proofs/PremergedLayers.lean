import SiteScrape.Proofs.KeyOrder
import SiteScrape.Proofs.LayeredLookup
import SiteScrape.Registry

/-!
# Layers merged among themselves

Whether two layers are laid over a third one after the other, or merged among
themselves first, comes to the same when the three agree in kind at every path
of keys; the same means up to the order of entries and to lone values at list
keys (`Equivalent`). The one exception is a null at a list key where the other
lower layer and the highest have objects (`NullMixed`).
-/

namespace SiteScrape

namespace Layers

open Json

variable {rule : Rule} {m m' : Fields} {v w : Json} {key k : String}

/-! ### Lone values written as lists -/

/-- A value at a list key as a list. -/
def spellOut : Rule → Json → Json
  | .listed, v => if v.isNull then .null else .arr (asList v)
  | _, v => v

mutual

/-- Every lone value at a list key written as a list of it. -/
def longhand : Json → Json
  | .arr items => .arr (longhandItems items)
  | .obj fields => .obj (longhandFields fields)
  | v => v

def longhandItems : List Json → List Json
  | [] => []
  | v :: rest => longhand v :: longhandItems rest

def longhandFields : List (String × Json) → List (String × Json)
  | [] => []
  | (key, v) :: rest => (key, spellOut (.ofKey key) (longhand v)) :: longhandFields rest

end

/-- The one form of all equivalent values: lists spelt out, and keys sorted. -/
def normal (v : Json) : Json := (longhand v).sortKeys

/-- The same up to the order of entries and to lone values at list keys. -/
def Equivalent (v w : Json) : Prop := (longhand v).Reordered (longhand w)

/-- The normal form of a value where a rule holds. -/
def normalAt (rule : Rule) (v : Json) : Json := (spellOut rule (longhand v)).sortKeys

theorem longhandItems_eq (items : List Json) : longhandItems items = items.map longhand := by
  induction items with
  | nil => rfl
  | cons v rest ih => simp [longhandItems, ih]

theorem longhandFields_eq (m : Fields) :
    longhandFields m = m.mapEntries fun key v => spellOut (.ofKey key) (longhand v) := by
  induction m with
  | nil => rfl
  | cons p rest ih => simp [longhandFields, ih]

theorem get?_longhandFields (m : Fields) (key : String) :
    Assoc.get? (longhandFields m) key =
      (m.get? key).map fun v => spellOut (.ofKey key) (longhand v) := by
  rw [longhandFields_eq, Assoc.get?_mapEntries]

theorem keysOnce_longhandFields (h : Assoc.KeysOnce m) : Assoc.KeysOnce (longhandFields m) := by
  rw [longhandFields_eq]
  exact h.mapEntries _

theorem equivalent_obj_iff (h : Assoc.KeysOnce m) (h' : Assoc.KeysOnce m') :
    Equivalent (.obj m) (.obj m') ↔
      ∀ key, (m.get? key).map (normalAt (.ofKey key)) =
        (m'.get? key).map (normalAt (.ofKey key)) := by
  unfold Equivalent
  rw [longhand, longhand,
    reordered_obj_iff (keysOnce_longhandFields h) (keysOnce_longhandFields h')]
  simp only [get?_longhandFields, Option.map_map]
  rfl

theorem isNull_longhand (v : Json) : (longhand v).isNull = v.isNull := by
  cases v with
  | null | bool | num | str => simp [longhand]
  | arr items => rw [longhand]; rfl
  | obj fields => rw [longhand]; rfl

theorem asList_longhand (v : Json) : asList (longhand v) = (asList v).map longhand := by
  cases v with
  | null | bool | num | str => simp [longhand, asList]
  | arr items => rw [longhand, longhandItems_eq]; rfl
  | obj fields => rw [longhand]; simp [asList, longhand]

theorem normalAt_listed (h : v.isNull = false) :
    normalAt .listed v = .arr ((asList v).map normal) := by
  rw [normalAt, spellOut, isNull_longhand, h, if_neg Bool.false_ne_true, asList_longhand,
    sortKeys_arr, List.map_map]
  rfl

theorem normalAt_of_ne_listed (h : rule ≠ .listed) (v : Json) : normalAt rule v = normal v := by
  cases rule with
  | listed => exact absurd rfl h
  | deep | replace => rfl

/-- Objects at a key are equivalent there when they are everywhere. -/
theorem normalAt_obj_iff (rule : Rule) :
    normalAt rule (.obj m) = normalAt rule (.obj m') ↔ Equivalent (.obj m) (.obj m') := by
  by_cases hrule : rule = .listed
  · subst hrule
    rw [normalAt_listed rfl, normalAt_listed rfl]
    simp [asList, normal, Equivalent, Reordered]
  · rw [normalAt_of_ne_listed hrule, normalAt_of_ne_listed hrule]
    rfl

/-! ### Three layers at one key -/

section Triple

variable {x y z : Option Json} {a b c : Json}

/-- At a list key, of the two lower layers one has null and the other an object,
and the highest has an object. -/
def Mixed (x y z : Option Json) : Prop :=
  (∃ m, z = some (.obj m)) ∧
    (x = some .null ∧ (∃ m, y = some (.obj m)) ∨ (∃ m, x = some (.obj m)) ∧ y = some .null)

/-- Values of one kind: all objects, all arrays or all scalars; at a list key
also arrays and scalars. -/
def OneKind (rule : Rule) (vs : List Json) : Prop :=
  (∀ v ∈ vs, v.isObject = true) ∨ (∀ v ∈ vs, v.isArray = true) ∨ (∀ v ∈ vs, v.isScalar = true) ∨
    rule = .listed ∧ ∀ v ∈ vs, v.isArray = true ∨ v.isScalar = true

/-- A null below shows at list keys only, where it makes a list. -/
theorem mergeValue_null_left_listed (h : b.isNull = false) :
    mergeValue .listed .null b = .arr (asList b) := by
  rw [mergeValue_listed h (.inl rfl)]
  simp [asList]

theorem isObject_eq_false (h : v.isArray = true ∨ v.isScalar = true) : v.isObject = false := by
  cases v <;> simp_all [isArray, isScalar, isObject]

theorem exists_items_of_isArray (h : v.isArray = true) : ∃ items, v = .arr items := by
  cases v with
  | arr items => exact ⟨items, rfl⟩
  | null | bool | num | str | obj => cases h

/-- Joining as lists is associative. -/
theorem mergeValue_listed_assoc (hb : b.isNull = false) (hc : c.isNull = false)
    (hbo : b.isObject = false) (hco : c.isObject = false) :
    mergeValue .listed (mergeValue .listed a b) c =
      mergeValue .listed a (mergeValue .listed b c) := by
  rw [mergeValue_listed hb (.inr hbo), mergeValue_listed hc (.inr hco),
    mergeValue_listed hc (.inr hco), mergeValue_listed rfl (.inr rfl)]
  simp [asList]

/-- Three values of one kind come to the same in either order, but for objects. -/
theorem mergeValue_assoc (hrule : rule ≠ .replace) (hb : b.isNull = false) (hc : c.isNull = false)
    (hkind : OneKind rule [a, b, c]) (hobj : ¬ ∀ v ∈ [a, b, c], v.isObject = true) :
    mergeValue rule (mergeValue rule a b) c = mergeValue rule a (mergeValue rule b c) := by
  obtain hkind | hkind | hkind | ⟨rfl, hkind⟩ := hkind
  · exact absurd hkind hobj
  · obtain ⟨x, rfl⟩ := exists_items_of_isArray (hkind a (by simp))
    obtain ⟨y, rfl⟩ := exists_items_of_isArray (hkind b (by simp))
    obtain ⟨z, rfl⟩ := exists_items_of_isArray (hkind c (by simp))
    simp only [mergeValue_arr_arr hrule, List.append_assoc]
  · by_cases hlisted : rule = .listed
    · subst hlisted
      exact mergeValue_listed_assoc hb hc (isObject_eq_false (.inr (hkind b (by simp))))
        (isObject_eq_false (.inr (hkind c (by simp))))
    · have hc := mergeValue_scalar hlisted (hkind c (by simp))
      rw [hc, hc, hc]
  · exact mergeValue_listed_assoc hb hc (isObject_eq_false (hkind b (by simp)))
      (isObject_eq_false (hkind c (by simp)))

/-- Null in the middle does not show, unless objects stand around it at a list key. -/
theorem overlay_over_null (hc : c.isNull = false)
    (hmixed : rule = .listed → ¬ Mixed x (some .null) (some c)) :
    (overlay rule x (some c)).map (normalAt rule) =
      (overlay rule x (some (mergeValue rule .null c))).map (normalAt rule) := by
  by_cases hrule : rule = .listed
  · subst hrule
    rw [mergeValue_null_left_listed hc]
    cases x with
    | none =>
      rw [overlay_none_left hc, overlay_none_left rfl, Option.map_some, Option.map_some,
        normalAt_listed hc, normalAt_listed rfl]
      rfl
    | some a =>
      by_cases hobj : a.isObject = false ∨ c.isObject = false
      · rw [overlay_some, overlay_some, mergeValue_listed hc hobj,
          mergeValue_listed rfl (.inr rfl)]
        rfl
      · simp only [not_or, Bool.not_eq_false, isObject_eq_true_iff] at hobj
        obtain ⟨⟨m, rfl⟩, ⟨u, rfl⟩⟩ := hobj
        exact absurd ⟨⟨u, rfl⟩, .inr ⟨⟨m, rfl⟩, rfl⟩⟩ (hmixed rfl)
  · rw [mergeValue_null_left hrule hc]

/-- Null at the bottom does not show, unless objects stand over it at a list key. -/
theorem mergeValue_over_null (hb : b.isNull = false) (hc : c.isNull = false)
    (hmixed : rule = .listed → ¬ Mixed (some .null) (some b) (some c)) :
    mergeValue rule (mergeValue rule .null b) c = mergeValue rule .null (mergeValue rule b c) := by
  by_cases hrule : rule = .listed
  · subst hrule
    by_cases hobj : b.isObject = false ∨ c.isObject = false
    · rw [mergeValue_null_left_listed hb, mergeValue_listed hc hobj,
        mergeValue_null_left_listed rfl, mergeValue_listed hc (.inl rfl)]
      rfl
    · simp only [not_or, Bool.not_eq_false, isObject_eq_true_iff] at hobj
      obtain ⟨⟨m, rfl⟩, ⟨u, rfl⟩⟩ := hobj
      exact absurd ⟨⟨u, rfl⟩, .inl ⟨rfl, m, rfl⟩⟩ (hmixed rfl)
  · rw [mergeValue_null_left hrule hb, mergeValue_null_left hrule (isNull_mergeValue rule b hc)]

/-- Three values that say something come to the same in either order, if objects do. -/
theorem normalAt_mergeValue_assoc (hb : b.isNull = false) (hc : c.isNull = false)
    (hkind : rule ≠ .replace → OneKind rule [a, b, c])
    (hobj : rule ≠ .replace → ∀ l m u, a = .obj l → b = .obj m → c = .obj u →
      Equivalent (.obj (mergeFields (mergeFields l m) u))
        (.obj (mergeFields l (mergeFields m u)))) :
    normalAt rule (mergeValue rule (mergeValue rule a b) c) =
      normalAt rule (mergeValue rule a (mergeValue rule b c)) := by
  by_cases hrule : rule = .replace
  · subst hrule
    simp only [mergeValue_replace _ hc]
  by_cases hall : ∀ v ∈ [a, b, c], v.isObject = true
  · obtain ⟨l, rfl⟩ := isObject_eq_true_iff.mp (hall a (by simp))
    obtain ⟨m, rfl⟩ := isObject_eq_true_iff.mp (hall b (by simp))
    obtain ⟨u, rfl⟩ := isObject_eq_true_iff.mp (hall c (by simp))
    simp only [mergeValue_obj_obj hrule, normalAt_obj_iff]
    exact hobj hrule l m u rfl rfl rfl
  · rw [mergeValue_assoc hrule hb hc (hkind hrule) hall]

/-- At one key it makes no difference which two of three layers are merged
first, if it makes none for three objects. -/
theorem overlay_assoc (hkind : rule ≠ .replace → OneKind rule (spoken [x, y, z]))
    (hmixed : rule = .listed → ¬ Mixed x y z)
    (hobj : rule ≠ .replace → ∀ l m u, x = some (.obj l) → y = some (.obj m) → z = some (.obj u) →
      Equivalent (.obj (mergeFields (mergeFields l m) u))
        (.obj (mergeFields l (mergeFields m u)))) :
    (overlay rule (overlay rule x y) z).map (normalAt rule) =
      (overlay rule x (overlay rule y z)).map (normalAt rule) := by
  -- a layer that is silent here leaves two, and null is silent but at list keys
  cases z with
  | none => simp
  | some c =>
  cases hc : c.isNull with
  | true =>
    obtain rfl := eq_null_of_isNull hc
    simp
  | false =>
  cases y with
  | none => rw [overlay_none, overlay_none_left hc]
  | some b =>
  cases hb : b.isNull with
  | true =>
    obtain rfl := eq_null_of_isNull hb
    rw [overlay_null, overlay_some]
    exact overlay_over_null hc hmixed
  | false =>
  cases x with
  | none =>
    rw [overlay_none_left hb, overlay_some, overlay_none_left (isNull_mergeValue rule b hc)]
  | some a =>
  cases ha : a.isNull with
  | true =>
    obtain rfl := eq_null_of_isNull ha
    simp only [overlay_some, mergeValue_over_null hb hc hmixed]
  | false =>
    simp only [overlay_some, Option.map_some, Option.some.injEq]
    refine normalAt_mergeValue_assoc hb hc (fun hrule => ?_) fun hrule l m u ha hb hc => ?_
    · simpa [ha, hb, hc] using hkind hrule
    · exact hobj hrule l m u (congrArg some ha) (congrArg some hb) (congrArg some hc)

/-- A null among objects at a list key leaves two items in one order and one
item in the other. -/
theorem overlay_ne_of_mixed (h : Mixed x y z) :
    (overlay .listed (overlay .listed x y) z).map (normalAt .listed) ≠
      (overlay .listed x (overlay .listed y z)).map (normalAt .listed) := by
  have hone (l u : Fields) : normalAt .listed (mergeValue .listed (.obj l) (.obj u)) =
      .arr [normal (.obj (mergeFields l u))] := by
    rw [mergeValue_obj_obj (by decide), normalAt_listed rfl]
    rfl
  have hlist (items : List Json) : normalAt .listed (.arr items) = .arr (items.map normal) :=
    normalAt_listed rfl
  obtain ⟨⟨u, rfl⟩, ⟨rfl, m, rfl⟩ | ⟨⟨l, rfl⟩, rfl⟩⟩ := h
  · rw [overlay_some, overlay_some, overlay_some, overlay_some, mergeValue_null_left_listed rfl,
      mergeValue_listed rfl (.inl rfl), mergeValue_obj_obj (by decide),
      mergeValue_null_left_listed rfl, Option.map_some, Option.map_some, hlist, hlist]
    simp [asList]
  · have hitems : mergeValue .listed (.obj l) (.arr [.obj u]) = .arr [.obj u, .obj l] :=
      mergeValue_listed rfl (.inr rfl)
    rw [overlay_null, overlay_some, overlay_some, mergeValue_null_left_listed rfl, overlay_some,
      asList, hitems, Option.map_some, Option.map_some, hone, hlist]
    · simp
    · rintro items ⟨⟩
    · rintro ⟨⟩

end Triple

/-! ### Three layers -/

/-- At every path of keys, but for those below a key whose most specific value
stands alone, the layers that say something say something of one kind. -/
def KindConsistent (layers : List Json) : Prop :=
  ∀ path key, Merging (path ++ [key]) →
    OneKind (.ofKey key) (spoken (layers.map fun v => v.below? (path ++ [key])))

/-- At some list key one of the two lower layers has null, the other an object,
and the highest has an object. -/
def NullMixed (a b c : Json) : Prop :=
  ∃ path key, Merging path ∧ Rule.ofKey key = .listed ∧
    Mixed (a.below? (path ++ [key])) (b.below? (path ++ [key])) (c.below? (path ++ [key]))

/-- Three objects that agree in kind everywhere. -/
structure Premergeable (a b c : Json) : Prop where
  objects : ∀ v ∈ [a, b, c], v.isObject = true
  keysOnce : ∀ v ∈ [a, b, c], v.KeysOnce
  kinds : KindConsistent [a, b, c]

theorem kindConsistent_of_not_object {layers : List Json}
    (h : ∀ v ∈ layers, v.isObject = false) : KindConsistent layers := by
  intro path key _
  have hnone : spoken (layers.map fun v => v.below? (path ++ [key])) = [] := by
    refine List.filterMap_eq_nil_iff.mpr fun o ho => ?_
    obtain ⟨v, hv, rfl⟩ := List.mem_map.mp ho
    cases path <;> simp [below?_cons_of_not_object (h v hv)]
  exact .inl (by simp [hnone])

theorem kindConsistent_nil : KindConsistent [] := kindConsistent_of_not_object (by simp)

/-- To agree in kind is to agree at every key and below it. -/
theorem kindConsistent_iff (layers : List Json) :
    KindConsistent layers ↔ ∀ key, Rule.ofKey key ≠ .replace →
      OneKind (.ofKey key) (spoken (layers.map fun v => v.field? key)) ∧
        KindConsistent (layers.filterMap fun v => v.field? key) := by
  have hbelow (key : String) (path : List String) :
      spoken (layers.map fun v => v.below? (key :: path)) =
        spoken ((layers.filterMap fun v => v.field? key).map fun v => v.below? path) := by
    induction layers with
    | nil => rfl
    | cons v layers ih =>
      rw [List.map_cons, below?_cons]
      cases hv : v.field? key with
      | none => rwa [List.filterMap_cons_none (f := fun v : Json => v.field? key) hv]
      | some w =>
        rw [List.filterMap_cons_some (f := fun v : Json => v.field? key) hv, List.map_cons,
          ← List.singleton_append, spoken_append, ih, ← spoken_append]
        rfl
  constructor
  · intro h key hrule
    refine ⟨by simpa using h [] key (by simpa [Merging] using hrule), fun path k hpath => ?_⟩
    rw [← hbelow]
    exact h (key :: path) k (List.forall_mem_cons.mpr ⟨hrule, hpath⟩)
  · intro h path key hpath
    cases path with
    | nil => simpa using (h key (hpath key (by simp))).1
    | cons k path =>
      obtain ⟨hk, hpath⟩ := List.forall_mem_cons.mp hpath
      rw [List.cons_append, hbelow]
      exact (h k hk).2 path key hpath

theorem KindConsistent.at_key {a b c : Fields} (h : KindConsistent [.obj a, .obj b, .obj c])
    (hrule : Rule.ofKey key ≠ .replace) :
    OneKind (.ofKey key) (spoken [a.get? key, b.get? key, c.get? key]) := by
  simpa using ((kindConsistent_iff _).mp h key hrule).1

theorem KindConsistent.below {a b c : Fields} {a' b' c' : Json}
    (h : KindConsistent [.obj a, .obj b, .obj c]) (hrule : Rule.ofKey key ≠ .replace)
    (ha : a.get? key = some a') (hb : b.get? key = some b') (hc : c.get? key = some c') :
    KindConsistent [a', b', c'] := by
  simpa [ha, hb, hc] using ((kindConsistent_iff _).mp h key hrule).2

/-- What two objects, laid over a third one, have at a key. -/
theorem get?_mergeFields₂ {a b c : Fields} (ha : a.KeysOnce) (hb : b.KeysOnce) (hc : c.KeysOnce) :
    Assoc.KeysOnce (mergeFields (mergeFields a b) c) ∧
      Assoc.KeysOnce (mergeFields a (mergeFields b c)) ∧ ∀ key,
      Assoc.get? (mergeFields (mergeFields a b) c) key =
        overlay (.ofKey key) (overlay (.ofKey key) (a.get? key) (b.get? key)) (c.get? key) ∧
      Assoc.get? (mergeFields a (mergeFields b c)) key =
        overlay (.ofKey key) (a.get? key) (overlay (.ofKey key) (b.get? key) (c.get? key)) := by
  obtain ⟨hab, hgetab⟩ := view_mergeFields ha hb
  obtain ⟨hbc, hgetbc⟩ := view_mergeFields hb hc
  obtain ⟨habc, hget⟩ := view_mergeFields hab hc
  obtain ⟨habc', hget'⟩ := view_mergeFields ha hbc
  exact ⟨habc, habc', fun key => ⟨by rw [hget, hgetab], by rw [hget', hgetbc]⟩⟩

theorem equivalent_of_not_mixed {a b c : Fields} (ha : (Json.obj a).KeysOnce)
    (hb : (Json.obj b).KeysOnce) (hc : (Json.obj c).KeysOnce)
    (hkind : KindConsistent [.obj a, .obj b, .obj c])
    (hmixed : ¬ NullMixed (.obj a) (.obj b) (.obj c)) :
    Equivalent (.obj (mergeFields (mergeFields a b) c))
      (.obj (mergeFields a (mergeFields b c))) := by
  obtain ⟨honce, honce', hget⟩ := get?_mergeFields₂ ha.fields hb.fields hc.fields
  rw [equivalent_obj_iff honce honce']
  intro key
  rw [(hget key).1, (hget key).2]
  refine overlay_assoc hkind.at_key (fun hrule hmix => ?_) fun hrule l m u hl hm hu => ?_
  · exact hmixed ⟨[], key, by simp [Merging], hrule, by simpa using hmix⟩
  · -- only where all three have objects does it matter how they are merged
    have hlt : sizeOf (Json.obj l) < sizeOf (Json.obj a) := sizeOf_get?_lt hl
    refine equivalent_of_not_mixed (ha.get? hl) (hb.get? hm) (hc.get? hu)
      (hkind.below hrule hl hm hu) ?_
    rintro ⟨path, k, hpath, hk, hmix⟩
    exact hmixed ⟨key :: path, k, List.forall_mem_cons.mpr ⟨hrule, hpath⟩, hk,
      by simpa [hl, hm, hu] using hmix⟩
termination_by sizeOf a
decreasing_by simpa using hlt

/-- A way down from an object leads through an object at its first key. -/
theorem exists_field_of_below? {path : List String}
    (h : (Json.obj m).below? (key :: path ++ [k]) = some v) :
    ∃ m', m.get? key = some (.obj m') ∧
      (Json.obj m).below? (key :: path ++ [k]) = (Json.obj m').below? (path ++ [k]) := by
  obtain ⟨w, hw, hbelow⟩ := Option.bind_eq_some_iff.mp h
  obtain ⟨m', rfl⟩ := exists_obj_of_below? hbelow
  exact ⟨m', hw, h.trans hbelow.symm⟩

theorem not_equivalent_of_mixed {a b c : Fields} (ha : (Json.obj a).KeysOnce)
    (hb : (Json.obj b).KeysOnce) (hc : (Json.obj c).KeysOnce)
    (hmixed : NullMixed (.obj a) (.obj b) (.obj c)) :
    ¬ Equivalent (.obj (mergeFields (mergeFields a b) c))
      (.obj (mergeFields a (mergeFields b c))) := by
  obtain ⟨path, key, hpath, hkey, hmix⟩ := hmixed
  induction path generalizing a b c with
  | nil =>
    obtain ⟨honce, honce', hget⟩ := get?_mergeFields₂ ha.fields hb.fields hc.fields
    rw [equivalent_obj_iff honce honce']
    intro heq
    replace heq := heq key
    rw [(hget key).1, (hget key).2, hkey] at heq
    exact overlay_ne_of_mixed (by simpa using hmix) heq
  | cons k path ih =>
    obtain ⟨hk, hpath⟩ := List.forall_mem_cons.mp hpath
    have ⟨⟨u, hu⟩, hlower⟩ := hmix
    obtain ⟨x, y, hx, hy⟩ : ∃ x y, (Json.obj a).below? (k :: path ++ [key]) = some x ∧
        (Json.obj b).below? (k :: path ++ [key]) = some y := by
      obtain ⟨hx, m, hy⟩ | ⟨⟨l, hx⟩, hy⟩ := hlower
      · exact ⟨_, _, hx, hy⟩
      · exact ⟨_, _, hx, hy⟩
    -- all three have an object at `k`, and there the null is nearer
    obtain ⟨a', ha', hpa⟩ := exists_field_of_below? hx
    obtain ⟨b', hb', hpb⟩ := exists_field_of_below? hy
    obtain ⟨c', hc', hpc⟩ := exists_field_of_below? hu
    obtain ⟨honce, honce', hget⟩ := get?_mergeFields₂ ha.fields hb.fields hc.fields
    rw [equivalent_obj_iff honce honce']
    intro heq
    replace heq := heq k
    rw [(hget k).1, (hget k).2, ha', hb', hc'] at heq
    simp only [overlay_some, mergeValue_obj_obj hk, Option.map_some, Option.some.injEq,
      normalAt_obj_iff] at heq
    refine ih (ha.get? ha') (hb.get? hb') (hc.get? hc') hpath ?_ heq
    rwa [hpa, hpb, hpc] at hmix

theorem Premergeable.equivalent_iff {a b c : Json} (h : Premergeable a b c) :
    Equivalent (merge a [b, c]) (merge a [merge b [c]]) ↔ ¬ NullMixed a b c := by
  obtain ⟨l, rfl⟩ := isObject_eq_true_iff.mp (h.objects a (by simp))
  obtain ⟨m, rfl⟩ := isObject_eq_true_iff.mp (h.objects b (by simp))
  obtain ⟨u, rfl⟩ := isObject_eq_true_iff.mp (h.objects c (by simp))
  have ha := h.keysOnce (.obj l) (by simp)
  have hb := h.keysOnce (.obj m) (by simp)
  have hc := h.keysOnce (.obj u) (by simp)
  simp only [merge_cons, merge_nil, mergeValue_obj]
  exact ⟨fun heq hmixed => not_equivalent_of_mixed ha hb hc hmixed heq,
    equivalent_of_not_mixed ha hb hc h.kinds⟩

end Layers

/-! ### The layer of a configured site -/

namespace SiteConfig

open Layers Json

variable {c : SiteConfig} {key : String} {v : Json}

/-- The free layer of a configured site: its overrides, if they are an object. -/
def freeLayer (c : SiteConfig) : Json := if c.overrides.isObject then c.overrides else .obj []

/-- What was configured stands at two keys. -/
theorem field?_explicitLayer (h : c.explicitLayer.field? key = some v) :
    (key = "urls" ∧ ∃ items, v = .arr items) ∨
      (key = "userInput" ∧ v = .obj (c.userInput.mapValues .str)) := by
  rcases List.mem_append.mp (Assoc.mem_of_get?_eq_some h) with hmem | hmem
  · split at hmem
    · obtain ⟨rfl, rfl⟩ := Prod.mk.inj (List.mem_singleton.mp hmem)
      exact .inl ⟨rfl, _, rfl⟩
    · cases hmem
  · split at hmem
    · cases hmem
    · obtain ⟨rfl, rfl⟩ := Prod.mk.inj (List.mem_singleton.mp hmem)
      exact .inr ⟨rfl, rfl⟩

/-- No object was configured at a list key. -/
theorem not_mixed_explicitLayer (a b : Json) : ¬ NullMixed a b c.explicitLayer := by
  rintro ⟨path, key, -, hkey, ⟨u, hu⟩, -⟩
  cases path with
  | nil =>
    rw [List.nil_append, below?_cons, Option.bind_eq_some_iff] at hu
    obtain ⟨v, hv, -⟩ := hu
    obtain ⟨rfl, -⟩ | ⟨rfl, -⟩ := field?_explicitLayer hv
    · exact absurd hkey (by decide)
    · exact absurd hkey (by decide)
  | cons k path =>
    obtain ⟨v, hv, hbelow⟩ := Option.bind_eq_some_iff.mp hu
    obtain ⟨-, items, rfl⟩ | ⟨-, rfl⟩ := field?_explicitLayer hv
    · obtain ⟨m, hm⟩ := exists_obj_of_below? hbelow
      cases hm
    · have htext (k : String) (w : Json)
          (hw : (Json.obj (c.userInput.mapValues .str)).field? k = some w) : ∃ s, w = .str s := by
        rw [field?_obj, Assoc.get?_mapValues, Option.map_eq_some_iff] at hw
        obtain ⟨s, -, rfl⟩ := hw
        exact ⟨s, rfl⟩
      cases path with
      | nil =>
        obtain ⟨s, hs⟩ := htext key (.obj u) (by simpa using hbelow)
        cases hs
      | cons k' path =>
        obtain ⟨w, hw, hbelow⟩ := Option.bind_eq_some_iff.mp hbelow
        obtain ⟨s, rfl⟩ := htext k' w hw
        obtain ⟨m, hm⟩ := exists_obj_of_below? hbelow
        cases hm

end SiteConfig

namespace Layers

open Json

/-- Two of three layers that agree in kind may be merged first, unless there is a
null among objects at a list key. So the defaults of a schema made from others
are layers below all that follow, and so is what a configured site puts together. -/
theorem merge_premerged :
    (∀ a b c : Json, Premergeable a b c →
      (Equivalent (merge a [b, c]) (merge a [merge b [c]]) ↔ ¬ NullMixed a b c)) ∧
    (∀ layers : List Json, merge Schema.nexusPhp.defaults layers =
      merge Schema.commonLayer (Schema.privateLayer :: Schema.NexusPhp.layer :: layers)) ∧
    ∀ (schema site : Json) (c : SiteConfig),
      Premergeable (merge schema [site]) c.freeLayer c.explicitLayer →
      Equivalent (merge schema [site, c.freeLayer, c.explicitLayer])
        (merge schema [site, c.userLayer]) := by
  refine ⟨fun a b c h => h.equivalent_iff, fun layers => rfl, fun schema site c h => ?_⟩
  exact h.equivalent_iff.mpr (SiteConfig.not_mixed_explicitLayer _ _)

/-- Three layers that speak about selectors, filters and tags. -/
def tagLayers : Json × Json × Json :=
  (.obj [("selector", .str "h1"), ("filters", .ofStrings ["f"]), ("tags", .ofStrings ["a"])],
    .obj [("selector", .null), ("filters", .obj [("f", .str "g")])],
    .obj [("selector", .ofStrings ["a", "b"]), ("tags", .ofStrings ["b"])])

theorem tagLayers_premergeable : Premergeable tagLayers.1 tagLayers.2.1 tagLayers.2.2 where
  objects := by simp [tagLayers, isObject]
  keysOnce := keysOnce_of_map_distinct rfl
  kinds := by
    rw [kindConsistent_iff]
    intro key hrule
    by_cases hfilters : "filters" = key
    · exact absurd (hfilters ▸ rfl) hrule
    by_cases hselector : "selector" = key
    · subst hselector
      refine ⟨.inr (.inr (.inr ⟨rfl, ?_⟩)), kindConsistent_of_not_object ?_⟩ <;> decide
    by_cases htags : "tags" = key
    · subst htags
      refine ⟨.inr (.inl ?_), kindConsistent_of_not_object ?_⟩ <;> decide
    simpa [tagLayers, Assoc.get?, hfilters, hselector, htags, OneKind] using
      kindConsistent_nil

theorem merge_premerged_of_tags :
    Premergeable tagLayers.1 tagLayers.2.1 tagLayers.2.2 ∧
      ¬ NullMixed tagLayers.1 tagLayers.2.1 tagLayers.2.2 ∧
      Equivalent (merge tagLayers.1 [tagLayers.2.1, tagLayers.2.2])
        (merge tagLayers.1 [merge tagLayers.2.1 [tagLayers.2.2]]) := by
  have hequiv : Equivalent (merge tagLayers.1 [tagLayers.2.1, tagLayers.2.2])
      (merge tagLayers.1 [merge tagLayers.2.1 [tagLayers.2.2]]) := rfl
  exact ⟨tagLayers_premergeable,
    (merge_premerged.1 _ _ _ tagLayers_premergeable).mp hequiv, hequiv⟩

/-- A null between two objects at a list key makes a list of the upper one when
it comes first. -/
theorem premerged_null_between_objects :
    let a : Json := .obj [("selector", .obj [("a", .str "1")])]
    let b : Json := .obj [("selector", .null)]
    let c : Json := .obj [("selector", .obj [("b", .str "2")])]
    Premergeable a b c ∧ ¬ Equivalent (merge a [b, c]) (merge a [merge b [c]]) := by
  intro a b c
  have honce : ∀ v ∈ [a, b, c], v.KeysOnce := keysOnce_of_map_distinct rfl
  have hkinds : KindConsistent [a, b, c] := by
    rw [kindConsistent_iff]
    intro key _
    by_cases hselector : "selector" = key
    · subst hselector
      refine ⟨.inl (by decide), ?_⟩
      show KindConsistent [.obj [("a", .str "1")], .null, .obj [("b", .str "2")]]
      rw [kindConsistent_iff]
      intro key _
      by_cases ha : "a" = key
      · subst ha
        exact ⟨.inr (.inr (.inl (by decide))), kindConsistent_of_not_object (by decide)⟩
      by_cases hb : "b" = key
      · subst hb
        exact ⟨.inr (.inr (.inl (by decide))), kindConsistent_of_not_object (by decide)⟩
      have hnull : Json.null.field? key = none := rfl
      simpa [Assoc.get?, ha, hb, hnull, OneKind] using
        kindConsistent_nil
    · simpa [a, b, c, Assoc.get?, hselector, OneKind] using
        kindConsistent_nil
  have hmergeable : Premergeable a b c := ⟨by simp [a, b, c, isObject], honce, hkinds⟩
  refine ⟨hmergeable, fun hequiv => hmergeable.equivalent_iff.mp hequiv ?_⟩
  exact ⟨[], "selector", by simp [Merging], rfl, ⟨_, rfl⟩, .inr ⟨⟨_, rfl⟩, rfl⟩⟩

end Layers

end SiteScrape
