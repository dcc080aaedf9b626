import SiteScrape.Proofs.KeyOrder
import SiteScrape.Definition.Resolve

/-!
# Nulls in upper layers

A null entry of a layer makes no difference where it falls into an object that
the layers below have, too (`Grounded`). An object that is new to them is taken
as it stands, with its nulls. `merge_withoutNulls_iff` says that there is no
third case: after every layer nulls made no difference so far if and only if
each of them was grounded.
-/

namespace SiteScrape

namespace Layers

open Json

mutual

/-- Every object without its null entries, but for objects in arrays and in
values that stand alone. -/
def withoutNulls : Json → Json
  | .obj fields => .obj (withoutNullFields fields)
  | v => v

def withoutNullFields : List (String × Json) → List (String × Json)
  | [] => []
  | (key, v) :: rest =>
    if v.isNull then withoutNullFields rest
    else (key, if Rule.ofKey key = .replace then v else withoutNulls v) :: withoutNullFields rest

end

/-- What is left of an entry. -/
def kept (rule : Rule) (v : Json) : Option Json :=
  if v.isNull then none else some (if rule = .replace then v else withoutNulls v)

/-- Each null of the upper layer is an entry of an object that the lower layer
has at the same place. -/
def Grounded (lower : Option Json) (upper : Json) : Prop :=
  ∀ path key, Merging path → upper.below? (path ++ [key]) = some .null →
    ∃ m, (lower.bind fun v => v.below? path) = some (.obj m)

variable {rule : Rule} {m : Fields} {v w : Json} {x : Option Json} {key : String}

/-! ### What is left without nulls -/

theorem withoutNulls_of_not_object (h : v.isObject = false) : withoutNulls v = v := by
  cases v with
  | obj => cases h
  | null | bool | num | str | arr => rw [withoutNulls]; rintro _ ⟨⟩

theorem isNull_withoutNulls (v : Json) : (withoutNulls v).isNull = v.isNull := by
  cases v with
  | obj fields => rw [withoutNulls]; rfl
  | null | bool | num | str | arr => rw [withoutNulls_of_not_object rfl]

theorem isObject_withoutNulls (v : Json) : (withoutNulls v).isObject = v.isObject := by
  cases v with
  | obj fields => rw [withoutNulls]; rfl
  | null | bool | num | str | arr => rw [withoutNulls_of_not_object rfl]

theorem keys_withoutNullFields (m : Fields) :
    (Assoc.keys (withoutNullFields m)).Sublist m.keys := by
  induction m with
  | nil => exact .slnil
  | cons p rest ih =>
    obtain ⟨k, v⟩ := p
    rw [withoutNullFields]
    split
    · exact ih.cons k
    · exact ih.cons_cons k

theorem keysOnce_withoutNullFields (h : m.KeysOnce) : Assoc.KeysOnce (withoutNullFields m) :=
  (keys_withoutNullFields m).nodup h

theorem get?_withoutNullFields (h : m.KeysOnce) (key : String) :
    Assoc.get? (withoutNullFields m) key = (m.get? key).bind (kept (.ofKey key)) := by
  induction m with
  | nil => rfl
  | cons p rest ih =>
    obtain ⟨k, v⟩ := p
    obtain ⟨hk, hrest⟩ := List.nodup_cons.mp h
    have hgone : Assoc.get? rest k = none := Assoc.get?_eq_none_iff.mpr hk
    rw [withoutNullFields]
    by_cases hkey : k = key
    · subst hkey
      split
      · next hnull => simp [ih hrest, hgone, Assoc.get?, kept, hnull]
      · next hnull => simp [Assoc.get?, kept, hnull]
    · split
      · simp [ih hrest, Assoc.get?, hkey]
      · simp [ih hrest, Assoc.get?, hkey]

@[simp] theorem kept_null (rule : Rule) : kept rule .null = none := rfl

theorem kept_replace (h : v.isNull = false) : kept .replace v = some v := by simp [kept, h]

theorem kept_of_ne_replace (hrule : rule ≠ .replace) (h : v.isNull = false) :
    kept rule v = some (withoutNulls v) := by
  simp [kept, h, hrule]

theorem kept_eq_some (h : kept rule v = some w) :
    v.isNull = false ∧ (w = v ∨ rule ≠ .replace ∧ w = withoutNulls v) := by
  unfold kept at h
  split at h
  · cases h
  · next hnull =>
    refine ⟨by simpa using hnull, ?_⟩
    split at h <;> cases h
    · exact .inl rfl
    · next hrule => exact .inr ⟨hrule, rfl⟩

theorem keysOnce_withoutNulls {v : Json} (h : v.KeysOnce) : (withoutNulls v).KeysOnce := by
  cases hv : v with
  | null | bool | num | str | arr => exact keysOnce_of_not_object (isObject_withoutNulls _)
  | obj m =>
    rw [hv] at h
    rw [withoutNulls]
    refine keysOnce_obj (keysOnce_withoutNullFields h.fields) fun key w hw => ?_
    rw [get?_withoutNullFields h.fields, Option.bind_eq_some_iff] at hw
    obtain ⟨u, hu, hw⟩ := hw
    have hlt : sizeOf u < sizeOf v := hv ▸ sizeOf_get?_lt hu
    obtain ⟨-, rfl | ⟨-, rfl⟩⟩ := kept_eq_some hw
    · exact h.get? hu
    · exact keysOnce_withoutNulls (h.get? hu)
termination_by sizeOf v

/-! ### Nulls on the way down -/

theorem grounded_of_not_object (h : v.isObject = false) (x : Option Json) : Grounded x v := by
  intro path key _ hnull
  cases path <;> simp [below?_cons_of_not_object h] at hnull

theorem grounded_obj_iff (x : Option Json) (m : Fields) :
    Grounded x (.obj m) ↔
      (∀ key, m.get? key = some .null → ∃ l, x = some (.obj l)) ∧
        ∀ key w, Rule.ofKey key ≠ .replace → m.get? key = some w →
          Grounded (x.bind fun v => v.field? key) w := by
  constructor
  · intro h
    refine ⟨fun key hnull => ?_, fun key w hrule hw path k hpath hnull => ?_⟩
    · simpa using h [] key (by simp [Merging]) (by simpa using hnull)
    · have hx := h (key :: path) k (List.forall_mem_cons.mpr ⟨hrule, hpath⟩)
        (by simpa [hw] using hnull)
      simpa [Option.bind_assoc] using hx
  · intro ⟨hhere, hbelow⟩ path key hpath hnull
    cases path with
    | nil => simpa using hhere key (by simpa using hnull)
    | cons k path =>
      obtain ⟨hk, hpath⟩ := List.forall_mem_cons.mp hpath
      obtain ⟨w, hw, hnull⟩ := Option.bind_eq_some_iff.mp hnull
      simpa [Option.bind_assoc] using hbelow k w hk hw path key hpath hnull

/-- Nothing is below a value that is no object. -/
theorem grounded_iff_of_not_object (h : v.isObject = false) (w : Json) :
    Grounded (some v) w ↔ Grounded none w := by
  have hbelow (path : List String) (m : Fields) : v.below? path ≠ some (.obj m) := by
    rintro hm
    cases path with
    | nil => cases hm; cases h
    | cons k path => rw [below?_cons_of_not_object h] at hm; cases hm
  constructor
  · intro hgrounded path key hpath hnull
    obtain ⟨m, hm⟩ := hgrounded path key hpath hnull
    exact absurd hm (hbelow path m)
  · intro hgrounded path key hpath hnull
    obtain ⟨m, hm⟩ := hgrounded path key hpath hnull
    cases hm

/-! ### One layer -/

/-- Nulls make no difference in a value that has none of them. -/
theorem reordered_withoutNulls_iff {v : Json} (h : v.KeysOnce) :
    Reordered v (withoutNulls v) ↔ Grounded none v := by
  cases hv : v with
  | null | bool | num | str | arr =>
    rw [withoutNulls_of_not_object rfl]
    exact iff_of_true rfl (grounded_of_not_object rfl none)
  | obj m =>
    rw [hv] at h
    rw [withoutNulls, reordered_obj_iff h.fields (keysOnce_withoutNullFields h.fields),
      grounded_obj_iff, ← forall_and]
    refine forall_congr' fun key => ?_
    rw [get?_withoutNullFields h.fields]
    cases hu : Assoc.get? m key with
    | none => simp
    | some u =>
      have hlt : sizeOf u < sizeOf v := hv ▸ sizeOf_get?_lt hu
      have ih := reordered_withoutNulls_iff (h.get? hu)
      cases hnull : u.isNull with
      | true =>
        obtain rfl := eq_null_of_isNull hnull
        simp
      | false =>
        have hne : u ≠ .null := by rintro rfl; cases hnull
        by_cases hrule : Rule.ofKey key = .replace
        · simp [hrule, kept_replace hnull, hne]
        · rw [Option.bind_some, kept_of_ne_replace hrule hnull]
          simpa [hrule, hne, Reordered] using ih
termination_by sizeOf v

/-- An object over a value that is none goes in as it stands, into a list or alone. -/
theorem reordered_mergeValue_iff_of_not_object {rule : Rule} {lower : Json} (hrule : rule ≠ .replace)
    (hl : lower.isObject = false) (hm : (Json.obj m).KeysOnce) :
    Reordered (mergeValue rule lower (.obj m)) (mergeValue rule lower (withoutNulls (.obj m))) ↔
      Grounded (some lower) (.obj m) := by
  rw [grounded_iff_of_not_object hl, ← reordered_withoutNulls_iff hm,
    mergeValue_eq_join hrule rfl (.inl hl),
    mergeValue_eq_join hrule (isNull_withoutNulls _) (.inl hl)]
  unfold Reordered
  rw [sortKeys_join, sortKeys_join, withoutNulls, sortKeys_obj, sortKeys_obj]
  by_cases hlisted : rule = .listed
  · simp [hlisted, join_listed, asList]
  · simp [join_of_ne_listed hlisted]

/-- An entry without its nulls over what may be below it, when this is known over a
value that is there. -/
theorem map_sortKeys_overlay_kept_iff (hw : w.KeysOnce) (ih : ∀ l, x = some l →
      rule ≠ .replace → (Reordered (mergeValue rule l w) (mergeValue rule l (withoutNulls w)) ↔
        Grounded (some l) w)) :
    (overlay rule x (some w)).map sortKeys = (overlay rule x (kept rule w)).map sortKeys ↔
      (rule ≠ .replace → Grounded x w) := by
  cases hnull : w.isNull with
  | true =>
    obtain rfl := eq_null_of_isNull hnull
    simpa using fun _ => grounded_of_not_object rfl _
  | false =>
    by_cases hrule : rule = .replace
    · simp [hrule, kept_replace hnull]
    rw [kept_of_ne_replace hrule hnull]
    cases x with
    | none =>
      rw [overlay_none_left hnull, overlay_none_left ((isNull_withoutNulls w).trans hnull)]
      simpa [hrule, Reordered] using reordered_withoutNulls_iff hw
    | some l => simpa [hrule, Reordered] using ih l rfl hrule

/-- Laid over one value, nulls make no difference if they are grounded in it,
and only then. -/
theorem reordered_mergeValue_iff {rule : Rule} {lower upper : Json} (hrule : rule ≠ .replace)
    (hl : lower.KeysOnce) (hu : upper.KeysOnce) :
    Reordered (mergeValue rule lower upper) (mergeValue rule lower (withoutNulls upper)) ↔
      Grounded (some lower) upper := by
  cases hupper : upper with
  | null | bool | num | str | arr =>
    rw [withoutNulls_of_not_object rfl]
    exact iff_of_true rfl (grounded_of_not_object rfl _)
  | obj m =>
    rw [hupper] at hu
    cases hobj : lower.isObject with
    | false => exact reordered_mergeValue_iff_of_not_object hrule hobj hu
    | true =>
      obtain ⟨l, rfl⟩ := isObject_eq_true_iff.mp hobj
      have hm := keysOnce_withoutNullFields hu.fields
      obtain ⟨honce, hget⟩ := view_mergeFields hl.fields hu.fields
      obtain ⟨honce', hget'⟩ := view_mergeFields hl.fields hm
      rw [withoutNulls, mergeValue_obj_obj hrule, mergeValue_obj_obj hrule,
        reordered_obj_iff honce honce', grounded_obj_iff]
      simp only [Option.some.injEq, Json.obj.injEq, exists_eq', implies_true, true_and,
        Option.bind_some]
      refine forall_congr' fun key => ?_
      rw [hget, hget', get?_withoutNullFields hu.fields]
      cases hw : Assoc.get? m key with
      | none => simp
      | some w =>
        have hlt : sizeOf w < sizeOf upper := hupper ▸ sizeOf_get?_lt hw
        rw [Option.bind_some, map_sortKeys_overlay_kept_iff (hu.get? hw) fun x hx hkey =>
          reordered_mergeValue_iff hkey (hl.get? hx) (hu.get? hw)]
        simp
termination_by sizeOf upper

/-! ### Layer after layer -/

/-- Laid over what is the same but for the order of entries, too. -/
theorem reordered_mergeValue_withoutNulls_iff {lower lower' upper : Json}
    (h : Reordered lower lower') (hl : lower.KeysOnce) (hl' : lower'.KeysOnce)
    (hu : upper.KeysOnce) :
    Reordered (mergeValue .deep lower upper) (mergeValue .deep lower' (withoutNulls upper)) ↔
      Grounded (some lower) upper := by
  rw [← reordered_mergeValue_iff (by decide : Rule.deep ≠ .replace) hl hu]
  have hlower := reordered_mergeValue .deep h hl hl' (keysOnce_withoutNulls hu)
  unfold Reordered at hlower ⊢
  rw [hlower]

/-- After every layer nulls have made no difference, but for the order of entries,
if and only if each was grounded in the layers below its own. -/
theorem merge_withoutNulls_iff {base : Json} {layers : List Json}
    (honce : ∀ v ∈ base :: layers, v.KeysOnce) :
    (∀ n, Reordered (merge base (layers.take n)) (merge base ((layers.take n).map withoutNulls))) ↔
      ∀ n layer, layers[n]? = some layer → Grounded (some (merge base (layers.take n))) layer := by
  obtain ⟨hbase, hlayers⟩ := List.forall_mem_cons.mp honce
  have hlower (n : Nat) : (merge base (layers.take n)).KeysOnce := by
    refine keysOnce_merge (List.forall_mem_cons.mpr ⟨hbase, fun v hv => ?_⟩)
    exact hlayers v (List.mem_of_mem_take hv)
  have hlower' (n : Nat) : (merge base ((layers.take n).map withoutNulls)).KeysOnce := by
    refine keysOnce_merge (List.forall_mem_cons.mpr ⟨hbase, fun v hv => ?_⟩)
    obtain ⟨w, hw, rfl⟩ := List.mem_map.mp hv
    exact keysOnce_withoutNulls (hlayers w (List.mem_of_mem_take hw))
  -- what is below the layer is the same so far, so only its own nulls count
  have hstep (n : Nat) (layer : Json) (hn : layers[n]? = some layer)
      (h : Reordered (merge base (layers.take n)) (merge base ((layers.take n).map withoutNulls))) :
      Reordered (merge base (layers.take (n + 1)))
        (merge base ((layers.take (n + 1)).map withoutNulls)) ↔
        Grounded (some (merge base (layers.take n))) layer := by
    have htake : layers.take (n + 1) = layers.take n ++ [layer] := by
      rw [List.take_add_one, hn, Option.toList_some]
    rw [htake, List.map_append, List.map_singleton, merge_concat, merge_concat]
    exact reordered_mergeValue_withoutNulls_iff h (hlower n) (hlower' n)
      (hlayers layer (List.mem_of_getElem? hn))
  constructor
  · exact fun h n layer hn => (hstep n layer hn (h n)).mp (h (n + 1))
  · intro h n
    induction n with
    | zero => rfl
    | succ n ih =>
      cases hn : layers[n]? with
      | none =>
        have hlen : layers.length ≤ n := List.getElem?_eq_none_iff.mp hn
        rwa [List.take_of_length_le (by omega), ← List.take_of_length_le hlen]
      | some layer => exact (hstep n layer hn ih).mpr (h n layer hn)

/-- A layer with null for the categories of a search that the layer below has. -/
def silentLayers : Json × Json :=
  (.obj [("search", .obj [("categories", .ofStrings ["a"])])],
    .obj [("name", .null), ("search", .obj [("id", .str "s"), ("categories", .null)])])

theorem merge_withoutNulls_of_known_search :
    (∀ v ∈ [silentLayers.1, silentLayers.2], v.KeysOnce) ∧
      (∀ n layer, [silentLayers.2][n]? = some layer →
        Grounded (some (merge silentLayers.1 ([silentLayers.2].take n))) layer) ∧
      Reordered (merge silentLayers.1 [silentLayers.2])
        (merge silentLayers.1 [withoutNulls silentLayers.2]) := by
  have honce : ∀ v ∈ [silentLayers.1, silentLayers.2], v.KeysOnce := keysOnce_of_map_distinct rfl
  have hgrounded : Grounded (some silentLayers.1) silentLayers.2 := by
    refine (grounded_obj_iff _ _).mpr ⟨fun _ _ => ⟨_, rfl⟩, fun key w _ hw => ?_⟩
    by_cases hname : "name" = key
    · subst hname
      cases hw
      exact grounded_of_not_object rfl _
    by_cases hsearch : "search" = key
    · subst hsearch
      cases hw
      refine (grounded_obj_iff _ _).mpr ⟨fun _ _ => ⟨_, rfl⟩, fun key w _ hw => ?_⟩
      simp only [Assoc.get?] at hw
      split at hw
      · cases hw; exact grounded_of_not_object rfl _
      split at hw <;> cases hw
      exact grounded_of_not_object rfl _
    · simp [Assoc.get?, hname, hsearch] at hw
  have hall : ∀ n layer, [silentLayers.2][n]? = some layer →
      Grounded (some (merge silentLayers.1 ([silentLayers.2].take n))) layer := by
    intro n layer hn
    cases n with
    | zero => cases hn; exact hgrounded
    | succ n => cases hn
  exact ⟨honce, hall, (merge_withoutNulls_iff honce).mpr hall 1⟩

/-- A null in an object that is new to the lower layer stays, and a definition
with it is refused. -/
theorem merge_null_in_new_object :
    let layer : Json := .obj [("id", .str "demo"), ("search", .obj [("categories", .null)])]
    layer.KeysOnce ∧ withoutNulls layer = .obj [("id", .str "demo"), ("search", .obj [])] ∧
      ¬ Reordered (merge (.obj []) [layer]) (merge (.obj []) [withoutNulls layer]) ∧
      (Definition.resolve (.obj []) layer none none).isOk = false ∧
      (Definition.resolve (.obj []) (withoutNulls layer) none none).isOk = true := by
  intro layer
  have honce : layer.KeysOnce := keysOnce_of_distinct_eq rfl
  refine ⟨honce, rfl, ?_, ?_, ?_⟩
  · have hdeep : Rule.deep ≠ .replace := by decide
    have hempty : (Json.obj []).KeysOnce := keysOnce_of_distinct_eq rfl
    simp only [merge_cons, merge_nil, reordered_mergeValue_iff hdeep hempty honce]
    intro h
    obtain ⟨m, hm⟩ := h ["search"] "categories" (List.forall_mem_singleton.mpr (by decide)) rfl
    cases hm
  · decide +kernel
  · decide +kernel

end Layers

end SiteScrape
