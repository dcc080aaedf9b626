import SiteScrape.Proofs.LayerView

/-!
# Values below paths of keys

A path of keys leads down through objects (`Json.below?`). A value in which no
object on such a path has a key twice (`Json.KeysOnce`) is what reading a text
gives, and merging keeps it so.
-/

namespace SiteScrape

namespace Json

variable {v w : Json} {m : Fields} {key : String}

/-- The value that a path of keys leads to. -/
def below? : Json → List String → Option Json
  | v, [] => some v
  | v, key :: path => (v.field? key).bind fun w => below? w path

@[simp] theorem below?_nil (v : Json) : v.below? [] = some v := rfl

@[simp] theorem below?_cons (v : Json) (key : String) (path : List String) :
    v.below? (key :: path) = (v.field? key).bind fun w => w.below? path := rfl

/-- Only objects have fields. -/
theorem exists_obj_of_field? (h : v.field? key = some w) :
    ∃ m : Fields, v = .obj m ∧ m.get? key = some w := by
  cases v with
  | obj m => exact ⟨m, rfl, h⟩
  | null | bool | num | str | arr => cases h

theorem below?_cons_of_not_object (h : v.isObject = false) (key : String) (path : List String) :
    v.below? (key :: path) = none := by
  cases v with
  | obj => cases h
  | null | bool | num | str | arr => rfl

/-- Only objects have something below them. -/
theorem exists_obj_of_below? {path : List String} (h : v.below? (path ++ [key]) = some w) :
    ∃ m : Fields, v = .obj m := by
  cases path with
  | nil | cons =>
    obtain ⟨u, hu, -⟩ := Option.bind_eq_some_iff.mp h
    obtain ⟨m, hm, -⟩ := exists_obj_of_field? hu
    exact ⟨m, hm⟩

theorem sizeOf_lt_of_mem {p : String × Json} (h : p ∈ m) : sizeOf p.2 < sizeOf (Json.obj m) := by
  obtain ⟨key, v⟩ := p
  have hlt := List.sizeOf_lt_of_mem h
  simp only [Prod.mk.sizeOf_spec, Json.obj.sizeOf_spec] at *
  omega

theorem sizeOf_get?_lt (h : m.get? key = some v) : sizeOf v < sizeOf (Json.obj m) :=
  sizeOf_lt_of_mem (Assoc.mem_of_get?_eq_some h)

/-! ### Objects without repeated keys -/

/-- No object that a path of keys leads to has a key twice. -/
def KeysOnce (v : Json) : Prop :=
  ∀ path fields, v.below? path = some (.obj fields) → Assoc.KeysOnce fields

theorem KeysOnce.fields (h : (Json.obj m).KeysOnce) : Assoc.KeysOnce m := h [] m rfl

theorem KeysOnce.get? (h : (Json.obj m).KeysOnce) (hv : m.get? key = some v) : v.KeysOnce :=
  fun path fields hpath => h (key :: path) fields (by simp [field?_obj, hv, hpath])

theorem KeysOnce.field? (h : v.KeysOnce) (hw : v.field? key = some w) : w.KeysOnce := by
  obtain ⟨m, rfl, hget⟩ := exists_obj_of_field? hw
  exact h.get? hget

theorem keysOnce_of_not_object (h : v.isObject = false) : v.KeysOnce := by
  intro path fields hpath
  cases path with
  | nil => cases hpath; cases h
  | cons key path => rw [below?_cons_of_not_object h] at hpath; cases hpath

theorem keysOnce_obj (h : Assoc.KeysOnce m) (hv : ∀ key v, m.get? key = some v → v.KeysOnce) :
    (Json.obj m).KeysOnce := by
  intro path fields hpath
  cases path with
  | nil => cases hpath; exact h
  | cons key path =>
    obtain ⟨w, hw, hpath⟩ := Option.bind_eq_some_iff.mp hpath
    exact hv key w hw path fields hpath

/-- What is read off a text has no key twice. -/
theorem keysOnce_distinct (v : Json) : v.distinct.KeysOnce := by
  intro path
  induction path generalizing v with
  | nil =>
    intro fields hpath
    have honce := keysOnce_entries_distinct v
    rwa [Option.some.inj hpath] at honce
  | cons key path ih =>
    intro fields hpath
    obtain ⟨w, hw, hpath⟩ := Option.bind_eq_some_iff.mp hpath
    obtain ⟨m, hm, hget⟩ := exists_obj_of_field? hw
    obtain ⟨u, rfl⟩ := mem_entries_distinct (v := v) (p := (key, w))
      (by rw [hm]; exact Assoc.mem_of_get?_eq_some hget)
    exact ih u fields hpath

theorem keysOnce_of_distinct_eq (h : v.distinct = v) : v.KeysOnce := h ▸ keysOnce_distinct v

theorem keysOnce_of_map_distinct {vs : List Json} (h : vs.map distinct = vs) :
    ∀ v ∈ vs, v.KeysOnce := by
  intro v hv
  rw [← h] at hv
  obtain ⟨w, -, rfl⟩ := List.mem_map.mp hv
  exact keysOnce_distinct w

end Json

namespace Layers

open Json

variable {rule : Rule} {lower upper : Json}

/-- No key on the way is one whose most specific value stands alone. -/
def Merging (path : List String) : Prop := ∀ k ∈ path, Rule.ofKey k ≠ .replace

@[simp] theorem mergeValue_null (rule : Rule) (lower : Json) :
    mergeValue rule lower .null = lower := rfl

@[simp] theorem mergeValue_replace (lower : Json) (h : upper.isNull = false) :
    mergeValue .replace lower upper = upper := by
  cases upper with
  | null => cases h
  | bool | num | str | arr | obj => rfl

theorem mergeValue_obj_obj (h : rule ≠ .replace) (l u : Fields) :
    mergeValue rule (.obj l) (.obj u) = .obj (mergeFields l u) := by
  cases rule with
  | replace => exact absurd rfl h
  | deep | listed => rfl

/-- Values of which not both are objects are joined. -/
theorem mergeValue_eq_join (h : rule ≠ .replace) (hnull : upper.isNull = false)
    (hobj : lower.isObject = false ∨ upper.isObject = false) :
    mergeValue rule lower upper = join rule lower upper := by
  cases rule with
  | replace => exact absurd rfl h
  | deep | listed =>
    cases upper with
    | null => cases hnull
    | bool | num | str | arr => rfl
    | obj u =>
      cases lower with
      | obj l => rcases hobj with h | h <;> cases h
      | null | bool | num | str | arr => rfl

theorem eq_null_of_isNull {v : Json} (h : v.isNull = true) : v = .null := by
  cases v with
  | null => rfl
  | bool | num | str | arr | obj => cases h

theorem isObject_eq_true_iff {v : Json} : v.isObject = true ↔ ∃ m, v = .obj m := by
  cases v with
  | obj m => exact ⟨fun _ => ⟨m, rfl⟩, fun _ => rfl⟩
  | null | bool | num | str | arr =>
    constructor
    · intro h; cases h
    · rintro ⟨m, h⟩; cases h

/-- The ways in which a value is laid over another. -/
theorem mergeValue_cases (rule : Rule) (lower upper : Json) :
    (upper = .null ∧ mergeValue rule lower upper = lower) ∨
    (upper.isNull = false ∧ rule = .replace ∧ mergeValue rule lower upper = upper) ∨
    (rule ≠ .replace ∧ ∃ l u, lower = .obj l ∧ upper = .obj u ∧
      mergeValue rule lower upper = .obj (mergeFields l u)) ∨
    (upper.isNull = false ∧ rule ≠ .replace ∧
      (lower.isObject = false ∨ upper.isObject = false) ∧
      mergeValue rule lower upper = join rule lower upper) := by
  cases hnull : upper.isNull with
  | true =>
    obtain rfl := eq_null_of_isNull hnull
    exact .inl ⟨rfl, mergeValue_null rule lower⟩
  | false =>
    by_cases hrule : rule = .replace
    · subst hrule
      exact .inr (.inl ⟨rfl, rfl, mergeValue_replace lower hnull⟩)
    by_cases hobj : lower.isObject = false ∨ upper.isObject = false
    · exact .inr (.inr (.inr ⟨rfl, hrule, hobj, mergeValue_eq_join hrule hnull hobj⟩))
    · simp only [not_or, Bool.not_eq_false, isObject_eq_true_iff] at hobj
      obtain ⟨⟨l, rfl⟩, ⟨u, rfl⟩⟩ := hobj
      exact .inr (.inr (.inl ⟨hrule, l, u, rfl, rfl, mergeValue_obj_obj hrule l u⟩))

/-- Where a lone value counts as a list of one, joining appends lists. -/
theorem join_listed (lower upper : Json) :
    join .listed lower upper = .arr (asList upper ++ asList lower) := by
  unfold join
  split <;> simp_all [asList]

/-- Elsewhere the upper value counts, unless there are two arrays. -/
theorem join_of_ne_listed (h : rule ≠ .listed) (lower upper : Json) :
    join rule lower upper = match lower, upper with
      | .arr l, .arr u => .arr (u ++ l)
      | _, u => u := by
  cases rule with
  | listed => exact absurd rfl h
  | deep | replace => cases lower <;> cases upper <;> rfl

/-- Joining gives an array, or the upper value. -/
theorem join_cases (rule : Rule) (lower upper : Json) :
    join rule lower upper = upper ∨ ∃ items, join rule lower upper = .arr items := by
  unfold join
  split
  · exact .inr ⟨_, rfl⟩
  · exact .inr ⟨_, rfl⟩
  · exact .inl rfl

/-- At a list key all but two objects are joined as lists. -/
theorem mergeValue_listed (hnull : upper.isNull = false)
    (hobj : lower.isObject = false ∨ upper.isObject = false) :
    mergeValue .listed lower upper = .arr (asList upper ++ asList lower) := by
  rw [mergeValue_eq_join (by decide) hnull hobj, join_listed]

theorem mergeValue_arr_arr (h : rule ≠ .replace) (l u : List Json) :
    mergeValue rule (.arr l) (.arr u) = .arr (u ++ l) := by
  rw [mergeValue_eq_join h rfl (.inl rfl)]
  cases rule <;> rfl

/-- But for list keys, null below does not show. -/
theorem mergeValue_null_left (h : rule ≠ .listed) (hnull : upper.isNull = false) :
    mergeValue rule .null upper = upper := by
  by_cases hrule : rule = .replace
  · rw [hrule, mergeValue_replace _ hnull]
  · rw [mergeValue_eq_join hrule hnull (.inl rfl), join_of_ne_listed h]

/-- Something laid over anything is something. -/
theorem isNull_mergeValue (rule : Rule) (lower : Json) (h : upper.isNull = false) :
    (mergeValue rule lower upper).isNull = false := by
  obtain ⟨rfl, -⟩ | ⟨-, -, heq⟩ | ⟨-, l, u, rfl, rfl, heq⟩ | ⟨-, -, -, heq⟩ :=
    mergeValue_cases rule lower upper
  · cases h
  · rw [heq, h]
  · rw [heq]; rfl
  · rcases join_cases rule lower upper with hjoin | ⟨items, hjoin⟩
    · rw [heq, hjoin, h]
    · rw [heq, hjoin]; rfl

/-- What comes out as an object is an object over a value that is none, or it is
two objects merged. -/
theorem mergeValue_eq_obj {m : Fields} (hrule : rule ≠ .replace) (hnull : upper.isNull = false)
    (h : mergeValue rule lower upper = .obj m) :
    (lower.isObject = false ∧ upper = .obj m) ∨
      ∃ l u, lower = .obj l ∧ upper = .obj u ∧ m = mergeFields l u := by
  obtain ⟨rfl, -⟩ | ⟨-, hreplace, -⟩ | ⟨-, l, u, rfl, rfl, heq⟩ | ⟨-, -, hkinds, heq⟩ :=
    mergeValue_cases rule lower upper
  · cases hnull
  · exact absurd hreplace hrule
  · exact .inr ⟨l, u, rfl, rfl, (Json.obj.inj (heq.symm.trans h)).symm⟩
  · rcases join_cases rule lower upper with hjoin | ⟨items, hjoin⟩
    · have hupper : upper = .obj m := (heq.trans hjoin).symm.trans h
      refine .inl ⟨hkinds.resolve_right fun hkind => ?_, hupper⟩
      rw [hupper] at hkind
      cases hkind
    · rw [heq, hjoin] at h
      cases h

@[simp] theorem overlay_null (rule : Rule) (x : Option Json) : overlay rule x (some .null) = x := by
  cases x with
  | none => rfl
  | some a => exact congrArg some (mergeValue_null rule a)

theorem overlay_none_left (h : upper.isNull = false) :
    overlay rule none (some upper) = some upper := by
  simp [overlay, h]

@[simp] theorem overlay_some (rule : Rule) (lower upper : Json) :
    overlay rule (some lower) (some upper) = some (mergeValue rule lower upper) := rfl

/-- What stands in two layers together comes from one or from both. -/
theorem overlay_eq_some {a b : Option Json} {w : Json} (h : overlay rule a b = some w) :
    (a = some w ∧ b = none) ∨ (a = none ∧ b = some w ∧ w.isNull = false) ∨
      ∃ x y, a = some x ∧ b = some y ∧ w = mergeValue rule x y := by
  cases b with
  | none => exact .inl ⟨by simpa using h, rfl⟩
  | some y =>
    cases a with
    | none =>
      replace h : (if y.isNull then none else some y) = some w := h
      split at h
      · cases h
      · next hnull => cases h; exact .inr (.inl ⟨rfl, rfl, by simpa using hnull⟩)
    | some x => exact .inr (.inr ⟨x, y, rfl, rfl, (Option.some.inj h).symm⟩)

/-- Merging keeps each key once, at every depth. -/
theorem keysOnce_mergeValue (rule : Rule) {lower upper : Json} (hl : lower.KeysOnce)
    (hu : upper.KeysOnce) : (mergeValue rule lower upper).KeysOnce := by
  obtain ⟨-, heq⟩ | ⟨-, -, heq⟩ | ⟨-, l, u, hl', hu', heq⟩ | ⟨-, -, -, heq⟩ :=
    mergeValue_cases rule lower upper
  · rwa [heq]
  · rwa [heq]
  · rw [hl'] at hl
    rw [hu'] at hu
    obtain ⟨honce, hget⟩ := view_mergeFields hl.fields hu.fields
    rw [heq]
    -- below two objects the upper value gets smaller with every key
    refine keysOnce_obj honce fun key w hw => ?_
    rw [hget] at hw
    obtain ⟨hw, -⟩ | ⟨-, hw, -⟩ | ⟨x, y, hx, hy, hw⟩ := overlay_eq_some hw
    · exact hl.get? hw
    · exact hu.get? hw
    · have hlt : sizeOf y < sizeOf upper := hu' ▸ sizeOf_get?_lt hy
      rw [hw]
      exact keysOnce_mergeValue _ (hl.get? hx) (hu.get? hy)
  · rcases join_cases rule lower upper with hjoin | ⟨items, hjoin⟩
    · rwa [heq, hjoin]
    · rw [heq, hjoin]
      exact keysOnce_of_not_object rfl
termination_by sizeOf upper

@[simp] theorem merge_nil (base : Json) : merge base [] = base := rfl

theorem merge_concat (base layer : Json) (layers : List Json) :
    merge base (layers ++ [layer]) = mergeValue .deep (merge base layers) layer := by
  simp [merge]

@[simp] theorem merge_cons (base layer : Json) (layers : List Json) :
    merge base (layer :: layers) = merge (mergeValue .deep base layer) layers := rfl

/-- So do all layers together. -/
theorem keysOnce_merge {base : Json} {layers : List Json} (h : ∀ v ∈ base :: layers, v.KeysOnce) :
    (merge base layers).KeysOnce := by
  induction layers generalizing base with
  | nil => exact h base List.mem_cons_self
  | cons layer layers ih =>
    obtain ⟨hbase, hlayers⟩ := List.forall_mem_cons.mp h
    obtain ⟨hlayer, hlayers⟩ := List.forall_mem_cons.mp hlayers
    exact ih (List.forall_mem_cons.mpr ⟨keysOnce_mergeValue .deep hbase hlayer, hlayers⟩)

end Layers

end SiteScrape
