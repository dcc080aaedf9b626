import SiteScrape.Definition.Layers
import SiteScrape.Proofs.KeysOnce

/-!
# What merged layers hold at a key

The entries of a merged object move about, but what stands at a key depends
only on what the two layers have there (`get?_mergeFields`). `overlay` says how:
either side may be absent, and null says nothing.
-/

namespace SiteScrape

namespace Assoc

variable {α : Type} {m m' others : Assoc α} {key : String} {v : α}

theorem eq_of_split? {before behind : Assoc α} (h : m.split? key = some (before, v, behind)) :
    m = before ++ (key, v) :: behind := by
  induction m generalizing before with
  | nil => cases h
  | cons p rest ih =>
    obtain ⟨k, w⟩ := p
    unfold split? at h
    split at h
    · next hk => subst hk; cases h; rfl
    · obtain ⟨⟨before', v', behind'⟩, hrest, heq⟩ := Option.map_eq_some_iff.mp h
      cases heq
      rw [ih hrest]
      rfl

theorem split?_eq_none_iff : m.split? key = none ↔ m.get? key = none := by
  induction m with
  | nil => simp [split?]
  | cons p rest ih =>
    obtain ⟨k, w⟩ := p
    by_cases hk : k = key
    · simp [split?, get?, hk]
    · simp [split?, get?, hk, ih]

theorem take?_eq_none_iff : m.take? key = none ↔ m.get? key = none := by
  rw [take?, Option.map_eq_none_iff, split?_eq_none_iff]

/-- Taking a pair out leaves the others, in some order. -/
theorem perm_of_take? (h : m.take? key = some (v, others)) : m.Perm ((key, v) :: others) := by
  obtain ⟨⟨before, w, behind⟩, hsplit, heq⟩ := Option.map_eq_some_iff.mp h
  rw [eq_of_split? hsplit]
  refine List.perm_middle.trans ?_
  cases hlast : behind.getLast? with
  | none =>
    simp only [hlast, Prod.mk.injEq] at heq
    obtain ⟨rfl, rfl⟩ := heq
    rw [List.getLast?_eq_none_iff.mp hlast, List.append_nil]
  | some last =>
    simp only [hlast, Prod.mk.injEq] at heq
    obtain ⟨rfl, rfl⟩ := heq
    obtain ⟨rest, rfl⟩ := List.getLast?_eq_some_iff.mp hlast
    rw [List.dropLast_concat]
    exact (List.Perm.append_left before (List.perm_append_singleton last rest)).cons _

theorem KeysOnce.of_perm (h : m.KeysOnce) (hp : m.Perm m') : m'.KeysOnce :=
  (hp.map Prod.fst).nodup_iff.mp h

theorem KeysOnce.get?_eq_some_iff (h : m.KeysOnce) : m.get? key = some v ↔ (key, v) ∈ m := by
  refine ⟨mem_of_get?_eq_some, fun hmem => ?_⟩
  induction m with
  | nil => cases hmem
  | cons p rest ih =>
    obtain ⟨k, w⟩ := p
    obtain ⟨hk, hrest⟩ := List.nodup_cons.mp h
    rcases List.mem_cons.mp hmem with heq | hmem
    · cases heq; simp [get?]
    · have hne : k ≠ key := by
        rintro rfl
        exact hk (List.mem_map.mpr ⟨_, hmem, rfl⟩)
      simp [get?, hne, ih hrest hmem]

/-- The order of the pairs does not matter for the view. -/
theorem KeysOnce.get?_perm (h : m.KeysOnce) (hp : m.Perm m') (key : String) :
    m'.get? key = m.get? key := by
  refine Option.ext fun v => ?_
  rw [(h.of_perm hp).get?_eq_some_iff, h.get?_eq_some_iff, hp.mem_iff]

/-- What is left when a pair is taken out, by the view. -/
theorem KeysOnce.take? (h : m.KeysOnce) (ht : m.take? key = some (v, others)) :
    others.KeysOnce ∧ m.get? key = some v ∧
      ∀ k, others.get? k = if key = k then none else m.get? k := by
  have hp := perm_of_take? ht
  have honce := h.of_perm hp
  obtain ⟨hkey, hothers⟩ := List.nodup_cons.mp honce
  refine ⟨hothers, ?_, fun k => ?_⟩
  · rw [← h.get?_perm hp]
    simp [get?]
  · rw [← h.get?_perm hp]
    by_cases hk : key = k
    · subst hk
      simpa using get?_eq_none_iff.mpr hkey
    · simp [get?, hk]

end Assoc

namespace Layers

variable {lower upper : Fields}

/-- What stands at a key in two layers together. -/
def overlay (rule : Rule) : Option Json → Option Json → Option Json
  | some lower, some upper => some (mergeValue rule lower upper)
  | lower, none => lower
  | none, some upper => if upper.isNull then none else some upper

@[simp] theorem overlay_none (rule : Rule) (lower : Option Json) :
    overlay rule lower none = lower := by
  cases lower <;> rfl

theorem mergeFields_cons (lower : Fields) (k : String) (v : Json) (rest : Fields) :
    mergeFields lower ((k, v) :: rest) =
      match Assoc.take? lower k with
      | some (below, others) =>
        mergeFields (Assoc.insert others k (mergeValue (.ofKey k) below v)) rest
      | none => mergeFields (if v.isNull then lower else Assoc.insert lower k v) rest := by
  rw [mergeFields.eq_def]
  cases h : Assoc.take? lower k with
  | some taken => simp only [h]
  | none => cases v <;> simp only [h] <;> rfl

/-- The entries of a layer are laid over those below one after the other. -/
theorem mergeFields_cons_eq (lower : Fields) (k : String) (v : Json) (rest : Fields) :
    mergeFields lower ((k, v) :: rest) = mergeFields (mergeFields lower [(k, v)]) rest := by
  rw [mergeFields_cons, mergeFields_cons]
  cases Assoc.take? lower k <;> rfl

/-- One entry is laid over the entries below. -/
theorem view_mergeFields_singleton (h : lower.KeysOnce) (k : String) (v : Json) :
    Assoc.KeysOnce (mergeFields lower [(k, v)]) ∧ ∀ key,
      Assoc.get? (mergeFields lower [(k, v)]) key =
        if k = key then overlay (.ofKey k) (lower.get? k) (some v) else lower.get? key := by
  rw [mergeFields_cons]
  cases htake : Assoc.take? lower k with
  | some taken =>
    obtain ⟨below, others⟩ := taken
    obtain ⟨hothers, hbelow, hget⟩ := h.take? htake
    refine ⟨hothers.insert k (mergeValue (.ofKey k) below v), fun key => ?_⟩
    dsimp only
    rw [mergeFields, Assoc.get?_insert, hget, hbelow]
    by_cases hkey : k = key <;> simp [hkey, overlay]
  | none =>
    have habsent : Assoc.get? lower k = none := Assoc.take?_eq_none_iff.mp htake
    rw [habsent]
    cases hnull : v.isNull with
    | true =>
      refine ⟨h, fun key => ?_⟩
      by_cases hkey : k = key
      · subst hkey
        simp [mergeFields, habsent, overlay, hnull]
      · simp [mergeFields, hkey]
    | false =>
      refine ⟨h.insert k v, fun key => ?_⟩
      simp [mergeFields, Assoc.get?_insert, overlay, hnull]

/-- Merging layers goes by the view, and leaves each key once. -/
theorem view_mergeFields (hlower : lower.KeysOnce) (hupper : upper.KeysOnce) :
    Assoc.KeysOnce (mergeFields lower upper) ∧ ∀ key, Assoc.get? (mergeFields lower upper) key =
      overlay (.ofKey key) (lower.get? key) (upper.get? key) := by
  -- the layer below changes with every entry, but what it has at the keys of the
  -- entries to come stays, for no key stands twice above
  induction upper generalizing lower with
  | nil => exact ⟨hlower, fun key => (overlay_none _ _).symm⟩
  | cons p rest ih =>
    obtain ⟨k, v⟩ := p
    obtain ⟨hk, hrest⟩ := List.nodup_cons.mp hupper
    have hgone : Assoc.get? rest k = none := Assoc.get?_eq_none_iff.mpr hk
    obtain ⟨hfirst, hget⟩ := view_mergeFields_singleton hlower k v
    obtain ⟨honce, hview⟩ := ih hfirst hrest
    rw [mergeFields_cons_eq]
    refine ⟨honce, fun key => ?_⟩
    rw [hview, hget]
    by_cases hkey : k = key
    · subst hkey
      simp [Assoc.get?, hgone]
    · simp [Assoc.get?, hkey]

/-! ### Records -/

/-- An object with each key once. -/
def IsRecord (v : Json) : Prop := ∃ fields : Fields, v = .obj fields ∧ fields.KeysOnce

theorem mergeValue_obj (lower upper : Fields) :
    mergeValue .deep (.obj lower) (.obj upper) = .obj (mergeFields lower upper) :=
  rfl

variable {a b : Option Json}

/-- Two records together are a record. -/
theorem isRecord_overlay (ha : ∀ v, a = some v → IsRecord v) (hb : ∀ v, b = some v → IsRecord v)
    {v : Json} (h : overlay .deep a b = some v) : IsRecord v := by
  cases b with
  | none => exact ha v (by simpa using h)
  | some upper =>
    obtain ⟨fields, rfl, honce⟩ := hb upper rfl
    cases a with
    | none =>
      cases h
      exact ⟨fields, rfl, honce⟩
    | some lower =>
      obtain ⟨fields', rfl, honce'⟩ := ha lower rfl
      cases h
      exact ⟨_, mergeValue_obj fields' fields, (view_mergeFields honce' honce).1⟩

/-- A field of two records together is what their fields are together. -/
theorem overlay_field? (ha : ∀ v, a = some v → IsRecord v) (hb : ∀ v, b = some v → IsRecord v)
    {key : String} (hnull : b.bind (·.field? key) ≠ some .null) :
    (overlay .deep a b).bind (·.field? key) =
      overlay (.ofKey key) (a.bind (·.field? key)) (b.bind (·.field? key)) := by
  cases b with
  | none => simp
  | some upper =>
    obtain ⟨fields, rfl, honce⟩ := hb upper rfl
    cases a with
    | none =>
      show Json.field? (.obj fields) key = overlay _ none (Json.field? (.obj fields) key)
      cases hv : Json.field? (.obj fields) key with
      | none => rfl
      | some v =>
        cases v with
        | null => exact absurd hv hnull
        | _ => rfl
    | some lower =>
      obtain ⟨fields', rfl, honce'⟩ := ha lower rfl
      show Json.field? (mergeValue .deep (.obj fields') (.obj fields)) key = _
      rw [mergeValue_obj]
      exact (view_mergeFields honce' honce).2 key

end Layers

end SiteScrape
