import SiteScrape.Json.Decode

/-!
# Maps with each key once

A list of pairs in which a key stands twice is read one way by `get?` and
another by `sorted`; where each key stands once, every reading and writing goes
by the view `get?`.
-/

namespace SiteScrape

namespace Assoc

variable {α β : Type} {m : Assoc α} {key : String}

/-- No key stands twice. -/
def KeysOnce (m : Assoc α) : Prop := m.keys.Nodup

theorem keysOnce_nil : KeysOnce ([] : Assoc α) := .nil

theorem get?_eq_none_iff : m.get? key = none ↔ key ∉ m.keys := by
  induction m with
  | nil => simp [keys]
  | cons p rest ih =>
    obtain ⟨k, v⟩ := p
    by_cases hk : k = key
    · subst hk; simp [get?, keys]
    · simp [get?, hk, ih, keys, Ne.symm hk]

theorem mem_of_get?_eq_some {v : α} (h : m.get? key = some v) : (key, v) ∈ m := by
  induction m with
  | nil => cases h
  | cons p rest ih =>
    obtain ⟨k, w⟩ := p
    by_cases hk : k = key
    · subst hk
      simp only [get?, ↓reduceIte, Option.some.injEq] at h
      subst h; exact List.mem_cons_self
    · simp only [get?, hk, ↓reduceIte] at h
      exact List.mem_cons_of_mem _ (ih h)

/-- Every value under what `f` does at its key. -/
def mapEntries (f : String → α → β) (m : Assoc α) : Assoc β := m.map fun p => (p.1, f p.1 p.2)

@[simp] theorem mapEntries_nil (f : String → α → β) : mapEntries f [] = [] := rfl

@[simp] theorem mapEntries_cons (f : String → α → β) (p : String × α) (m : Assoc α) :
    mapEntries f (p :: m) = (p.1, f p.1 p.2) :: mapEntries f m := rfl

theorem get?_mapEntries (f : String → α → β) (m : Assoc α) (key : String) :
    (m.mapEntries f).get? key = (m.get? key).map (f key) := by
  induction m with
  | nil => rfl
  | cons p rest ih =>
    by_cases hk : p.1 = key
    · simp [get?, hk]
    · simpa [get?, hk] using ih

theorem keys_mapEntries (f : String → α → β) (m : Assoc α) : (m.mapEntries f).keys = m.keys := by
  simp [keys, mapEntries, Function.comp_def]

theorem mapValues_eq (f : α → β) (m : Assoc α) : m.mapValues f = m.mapEntries fun _ => f := rfl

theorem modify_eq (m : Assoc α) (key : String) (f : α → α) :
    m.modify key f = m.mapEntries fun k v => if k = key then f v else v := by
  refine List.map_congr_left fun p _ => ?_
  by_cases hk : p.1 = key <;> simp [hk]

theorem get?_mapValues (f : α → β) (m : Assoc α) (key : String) :
    (m.mapValues f).get? key = (m.get? key).map f := get?_mapEntries (fun _ => f) m key

theorem keys_mapValues (f : α → β) (m : Assoc α) : (m.mapValues f).keys = m.keys :=
  keys_mapEntries (fun _ => f) m

theorem mem_keys_insert {k : String} {value : α} (h : k ∈ (m.insert key value).keys) :
    k = key ∨ k ∈ m.keys := by
  obtain ⟨p, hp, rfl⟩ := List.mem_map.mp h
  rcases mem_insert hp with rfl | hp
  · exact .inl rfl
  · exact .inr (List.mem_map_of_mem hp)

theorem KeysOnce.insert (h : m.KeysOnce) (key : String) (value : α) :
    (m.insert key value).KeysOnce := by
  induction m with
  | nil => exact List.pairwise_singleton ..
  | cons p rest ih =>
    obtain ⟨k, v⟩ := p
    obtain ⟨hk, hrest⟩ := List.nodup_cons.mp h
    unfold Assoc.insert
    split
    · exact List.nodup_cons.mpr ⟨hk, hrest⟩
    · next hne =>
      refine List.nodup_cons.mpr ⟨fun hmem => ?_, ih hrest⟩
      rcases mem_keys_insert hmem with rfl | hmem
      · exact hne rfl
      · exact hk hmem

theorem KeysOnce.insertAll (h : m.KeysOnce) (more : Assoc α) : (m.insertAll more).KeysOnce := by
  induction more generalizing m with
  | nil => exact h
  | cons p rest ih => exact ih (h.insert p.1 p.2)

theorem keysOnce_ofPairs (pairs : List (String × α)) : (ofPairs pairs).KeysOnce :=
  keysOnce_nil.insertAll pairs

theorem mem_insertAll {more : Assoc α} {p : String × α} (h : p ∈ m.insertAll more) :
    p ∈ m ∨ p ∈ more := by
  induction more generalizing m with
  | nil => exact .inl h
  | cons q rest ih =>
    rcases ih h with h | h
    · rcases mem_insert h with rfl | h
      · exact .inr List.mem_cons_self
      · exact .inl h
    · exact .inr (List.mem_cons_of_mem _ h)

theorem mem_ofPairs {pairs : List (String × α)} {p : String × α} (h : p ∈ ofPairs pairs) :
    p ∈ pairs :=
  (mem_insertAll h).resolve_left List.not_mem_nil

theorem Sorted.keysOnce (h : m.Sorted) : m.KeysOnce := by
  refine List.nodup_iff_pairwise_ne.mpr (List.Pairwise.imp ?_ h)
  rintro k _ hlt rfl
  exact String.lt_irrefl k hlt

/-- Sorting brings in no key. -/
theorem mem_keys_sorted {k : String} (h : k ∈ (sorted m).keys) : k ∈ m.keys := by
  suffices ∀ acc : Assoc α, k ∈ (m.foldl (fun acc p => acc.place p.1 p.2) acc).keys →
      k ∈ m.keys ∨ k ∈ acc.keys from
    (this [] h).resolve_right List.not_mem_nil
  clear h
  induction m with
  | nil => exact fun _ h => .inr h
  | cons p rest ih =>
    intro acc h
    rcases ih _ h with h | h
    · exact .inl (List.mem_cons_of_mem _ h)
    · rcases mem_keys_place h with rfl | h
      · exact .inl List.mem_cons_self
      · exact .inr h

/-- Sorting a map whose keys stand once keeps the view. -/
theorem KeysOnce.get?_sorted (h : m.KeysOnce) : (sorted m).get? key = m.get? key := by
  suffices ∀ acc : Assoc α, (m.foldl (fun acc p => acc.place p.1 p.2) acc).get? key =
      (m.get? key).or (acc.get? key) by
    simpa [sorted] using this []
  induction m with
  | nil => simp
  | cons p rest ih =>
    obtain ⟨k, v⟩ := p
    obtain ⟨hk, hrest⟩ := List.nodup_cons.mp h
    intro acc
    rw [List.foldl_cons, ih hrest, get?_place]
    by_cases hkey : k = key
    · subst hkey
      simp [get?, get?_eq_none_iff.mpr hk]
    · simp [get?, hkey]

theorem get?_modify (m : Assoc α) (key other : String) (f : α → α) :
    (m.modify key f).get? other = if key = other then (m.get? other).map f else m.get? other := by
  rw [modify_eq, get?_mapEntries]
  by_cases hk : other = key
  · simp [hk]
  · simp [hk, Ne.symm hk]

theorem KeysOnce.mapEntries (h : m.KeysOnce) (f : String → α → β) : (m.mapEntries f).KeysOnce := by
  unfold KeysOnce
  rwa [keys_mapEntries]

theorem KeysOnce.mapValues (h : m.KeysOnce) (f : α → β) : (m.mapValues f).KeysOnce :=
  h.mapEntries fun _ => f

theorem KeysOnce.modify (h : m.KeysOnce) (key : String) (f : α → α) :
    (m.modify key f).KeysOnce := by
  rw [modify_eq]
  exact h.mapEntries _

theorem KeysOnce.filter (h : m.KeysOnce) (p : String × α → Bool) :
    KeysOnce (List.filter p m) :=
  List.Nodup.sublist (List.filter_sublist.map _) h

theorem KeysOnce.get?_filter (h : m.KeysOnce) (p : String × α → Bool) (key : String) :
    get? (m.filter p) key = (m.get? key).filter fun v => p (key, v) := by
  induction m with
  | nil => rfl
  | cons q rest ih =>
    obtain ⟨k, v⟩ := q
    obtain ⟨hk, hrest⟩ := List.nodup_cons.mp h
    by_cases hkey : k = key
    · subst hkey
      have hnone : get? rest k = none := get?_eq_none_iff.mpr hk
      have ih := ih hrest
      rw [hnone] at ih
      by_cases hp : p (k, v) <;> simp [get?, hp, ih, Option.filter_some]
    · by_cases hp : p (k, v) <;> simp [get?, hp, hkey, ih hrest]

end Assoc

namespace Decode

open Assoc

variable {α : Type} {d : Decoder α} {pairs : List (String × Json)} {m : Assoc α}

/-- The entries of a record that is an object are those of the object. -/
theorem eq_of_record {names : List String} {fields e : Fields}
    (h : record names (.obj fields) = some e) : e = fields := by
  simp only [record] at h
  split at h <;> cases h
  rfl

/-- Reading all values of a list of pairs keeps the keys. -/
theorem view_of_mapM {read : List (String × α)}
    (h : (pairs.mapM fun p => (d p.2).map fun w => (p.1, w)) = some read) :
    keys read = keys pairs ∧ ∀ key, Assoc.get? read key = (Assoc.get? pairs key).bind d := by
  induction pairs generalizing read with
  | nil => cases h; exact ⟨rfl, fun _ => rfl⟩
  | cons p rest ih =>
    obtain ⟨k, v⟩ := p
    simp only [List.mapM_cons, Option.bind_eq_bind, Option.bind_eq_some_iff,
      Option.map_eq_some_iff] at h
    obtain ⟨_, ⟨w, hw, rfl⟩, read', hread, h⟩ := h
    cases h
    obtain ⟨hkeys, hget⟩ := ih hread
    refine ⟨by simpa [keys] using hkeys, fun key => ?_⟩
    by_cases hk : k = key
    · simp [Assoc.get?, hk, hw]
    · simp [Assoc.get?, hk, hget]

/-- A sorted reading of pairs whose keys stand once has their values. -/
theorem get?_sortedPairs (h : KeysOnce pairs) (hm : sortedPairs d pairs = some m) (key : String) :
    m.get? key = (Assoc.get? pairs key).bind d := by
  obtain ⟨read, hread, rfl⟩ := Option.map_eq_some_iff.mp hm
  obtain ⟨hkeys, hget⟩ := view_of_mapM hread
  have honce : KeysOnce read := by unfold KeysOnce; rw [hkeys]; exact h
  rw [honce.get?_sorted, hget]

end Decode

namespace Json

@[simp] theorem field?_obj (fields : Fields) (key : String) :
    (Json.obj fields).field? key = Assoc.get? fields key := rfl

/-- The entries of an object; other values have none. -/
def entries (v : Json) : Fields := v.asObject?.getD []

/-- Below `distinct` all values are `distinct` of another. -/
theorem mem_entries_distinct {v : Json} {p : String × Json} (h : p ∈ v.distinct.entries) :
    ∃ w : Json, p.2 = w.distinct := by
  cases v with
  | obj fields =>
    replace h : p ∈ distinctFields fields := Assoc.mem_ofPairs h
    induction fields with
    | nil => cases h
    | cons q rest ih =>
      rcases List.mem_cons.mp h with rfl | h
      · exact ⟨q.2, rfl⟩
      · exact ih h
  | null | bool | num | str | arr => cases h

theorem keysOnce_entries_distinct (v : Json) : v.distinct.entries.KeysOnce := by
  cases v with
  | obj fields => exact Assoc.keysOnce_ofPairs _
  | null | bool | num | str | arr => exact Assoc.keysOnce_nil

/-- The same of the value at a key. -/
theorem keysOnce_entries_below (v : Json) (key : String) :
    ((v.distinct.entries.get? key).getD .null).entries.KeysOnce := by
  cases h : v.distinct.entries.get? key with
  | none => exact Assoc.keysOnce_nil
  | some below =>
    obtain ⟨w, rfl⟩ := mem_entries_distinct (Assoc.mem_of_get?_eq_some h)
    exact keysOnce_entries_distinct w

end Json

end SiteScrape
