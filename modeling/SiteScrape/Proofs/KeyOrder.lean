import SiteScrape.Proofs.KeyPaths

/-!
# Objects whose entries stand in another order

`Json.Reordered v w` says that `v` and `w` are the same but for the order in
which their objects have their entries. Between objects with each key once it
goes by the view (`reordered_obj_iff`), paths of keys lead to the same values
in both (`below?_sortKeys`), and laying the same layer over both keeps it.
-/

namespace SiteScrape

namespace Assoc

variable {α : Type} {m m' : Assoc α}

theorem KeysOnce.nodup (h : m.KeysOnce) : m.Nodup :=
  List.Pairwise.of_map Prod.fst (fun _ _ hne heq => hne (heq ▸ rfl)) h

/-- Two sorted maps with one view are one map. -/
theorem Sorted.ext (h : m.Sorted) (h' : m'.Sorted) (hget : ∀ key, m.get? key = m'.get? key) :
    m = m' := by
  have hperm : m.Perm m' := by
    refine (List.perm_ext_iff_of_nodup h.keysOnce.nodup h'.keysOnce.nodup).mpr fun p => ?_
    obtain ⟨key, v⟩ := p
    rw [← h.keysOnce.get?_eq_some_iff, ← h'.keysOnce.get?_eq_some_iff, hget]
  refine hperm.eq_of_pairwise (fun p q _ _ hpq hqp => ?_) (List.pairwise_map.mp h)
    (List.pairwise_map.mp h')
  exact absurd (String.lt_trans hpq hqp) (String.lt_irrefl _)

end Assoc

namespace Json

variable {v w : Json} {m m' : Fields} {key : String}

/-- The same but for the order of the entries of objects. -/
def Reordered (v w : Json) : Prop := v.sortKeys = w.sortKeys

theorem sortItems_eq (items : List Json) : sortItems items = items.map sortKeys := by
  induction items with
  | nil => rfl
  | cons v rest ih => rw [List.map_cons, ← ih]; rfl

theorem sortFields_eq (m : Fields) : sortFields m = Assoc.mapValues sortKeys m := by
  induction m with
  | nil => rfl
  | cons p rest ih =>
    show (p.1, p.2.sortKeys) :: sortFields rest = _
    rw [ih]
    rfl

@[simp] theorem sortKeys_arr (items : List Json) :
    (Json.arr items).sortKeys = .arr (items.map sortKeys) :=
  congrArg Json.arr (sortItems_eq items)

theorem sortKeys_obj (m : Fields) :
    (Json.obj m).sortKeys = .obj (Assoc.sorted (Assoc.mapValues sortKeys m)) :=
  congrArg (fun m : Fields => Json.obj (Assoc.sorted m)) (sortFields_eq m)

/-- What a sorted object has at a key. -/
theorem get?_sorted_mapValues (h : Assoc.KeysOnce m) (key : String) :
    (Assoc.sorted (Assoc.mapValues sortKeys m)).get? key = (m.get? key).map sortKeys := by
  rw [(h.mapValues sortKeys).get?_sorted, Assoc.get?_mapValues]

theorem reordered_obj_iff (h : Assoc.KeysOnce m) (h' : Assoc.KeysOnce m') :
    Reordered (.obj m) (.obj m') ↔
      ∀ key, (m.get? key).map sortKeys = (m'.get? key).map sortKeys := by
  unfold Reordered
  rw [sortKeys_obj, sortKeys_obj, Json.obj.injEq]
  constructor
  · intro heq key
    rw [← get?_sorted_mapValues h, ← get?_sorted_mapValues h', heq]
  · intro hget
    refine Assoc.Sorted.ext (Assoc.sorted_sorted _) (Assoc.sorted_sorted _) fun key => ?_
    rw [get?_sorted_mapValues h, get?_sorted_mapValues h', hget]

theorem isObject_sortKeys (v : Json) : v.sortKeys.isObject = v.isObject := by
  cases v <;> rfl

theorem below?_sortKeys (h : v.KeysOnce) (path : List String) :
    v.sortKeys.below? path = (v.below? path).map sortKeys := by
  induction path generalizing v with
  | nil => rfl
  | cons key path ih =>
    cases v with
    | null | bool | num | str | arr => rfl
    | obj m =>
      rw [sortKeys_obj, below?_cons, below?_cons, field?_obj, field?_obj,
        get?_sorted_mapValues h.fields]
      cases hv : Assoc.get? m key with
      | none => rfl
      | some w => simpa using ih (h.get? hv)

theorem Reordered.isObject (h : Reordered v w) : v.isObject = w.isObject := by
  rw [← isObject_sortKeys v, h, isObject_sortKeys]

end Json

namespace Layers

open Json

theorem asList_sortKeys (v : Json) : asList v.sortKeys = (asList v).map sortKeys := by
  cases v with
  | null | bool | num | str => rfl
  | obj m => rw [sortKeys_obj]; simp [asList, sortKeys_obj]
  | arr items => simp [asList]

/-- Joining does not look at the order of entries. -/
theorem sortKeys_join (rule : Rule) (lower upper : Json) :
    (join rule lower upper).sortKeys = join rule lower.sortKeys upper.sortKeys := by
  by_cases hrule : rule = .listed
  · subst hrule
    simp [join_listed, asList_sortKeys]
  · rw [join_of_ne_listed hrule, join_of_ne_listed hrule]
    cases lower with
    | null | bool | num | str | obj => rfl
    | arr l =>
      cases upper with
      | null | bool | num | str | obj => rfl
      | arr u => simp

/-- Something over two values in another order, of which the same comes out. -/
theorem map_sortKeys_overlay {rule : Rule} {a b : Option Json} {upper : Json}
    (h : a.map sortKeys = b.map sortKeys)
    (hmerge : ∀ x y, a = some x → b = some y → Reordered x y →
      Reordered (mergeValue rule x upper) (mergeValue rule y upper)) :
    (overlay rule a (some upper)).map sortKeys = (overlay rule b (some upper)).map sortKeys := by
  cases a with
  | none =>
    rw [Option.map_none, eq_comm, Option.map_eq_none_iff] at h
    rw [h]
  | some x =>
    rw [Option.map_some, eq_comm, Option.map_eq_some_iff] at h
    obtain ⟨y, rfl, hxy⟩ := h
    exact congrArg some (hmerge x y rfl rfl hxy.symm)

/-- The order of the lower layer shows in the order of the merged one only. -/
theorem reordered_mergeValue (rule : Rule) {lower lower' upper : Json} (h : Reordered lower lower')
    (hl : lower.KeysOnce) (hl' : lower'.KeysOnce) (hu : upper.KeysOnce) :
    Reordered (mergeValue rule lower upper) (mergeValue rule lower' upper) := by
  obtain ⟨huo, heq⟩ | ⟨hnull, hrule, heq⟩ | ⟨hrule, l, u, hlo, huo, heq⟩ |
      ⟨hnull, hrule, hobj, heq⟩ := mergeValue_cases rule lower upper
  · rwa [heq, huo, mergeValue_null]
  · rw [heq, hrule, mergeValue_replace lower' hnull]
    rfl
  · obtain ⟨l', hlo'⟩ := isObject_eq_true_iff.mp (h.isObject ▸ hlo ▸ rfl : lower'.isObject = true)
    rw [hlo] at h hl
    rw [hlo'] at h hl'
    rw [huo] at hu
    obtain ⟨honce, hget⟩ := view_mergeFields hl.fields hu.fields
    obtain ⟨honce', hget'⟩ := view_mergeFields hl'.fields hu.fields
    rw [heq, hlo', huo, mergeValue_obj_obj hrule, reordered_obj_iff honce honce']
    intro key
    have hkey := (reordered_obj_iff hl.fields hl'.fields).mp h key
    rw [hget, hget']
    cases hv : Assoc.get? u key with
    | none => simpa using hkey
    | some v =>
      have hlt : sizeOf v < sizeOf upper := huo ▸ sizeOf_get?_lt hv
      exact map_sortKeys_overlay hkey fun x y hx hy hxy =>
        reordered_mergeValue _ hxy (hl.get? hx) (hl'.get? hy) (hu.get? hv)
  · rw [heq, mergeValue_eq_join hrule hnull (h.isObject ▸ hobj)]
    unfold Reordered
    rw [sortKeys_join, sortKeys_join, h]
termination_by sizeOf upper

end Layers

end SiteScrape
