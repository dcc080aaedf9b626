/-!
# Ordered finite maps

A map from texts is a list of pairs; the order of the pairs is part of the
value. `insert` keeps the place of a known key and puts a new one at the end,
`take?` fills the gap it leaves with the last pair, and `place` keeps the
keys sorted. `get?` is the view: two maps agree when it does.
-/

namespace SiteScrape

/-- A list of pairs read as a finite map; the first pair of a key counts. -/
abbrev Assoc (α : Type) := List (String × α)

namespace Assoc

variable {α β : Type}

/-- The value at `key`. -/
def get? (m : Assoc α) (key : String) : Option α :=
  match m with
  | [] => none
  | (k, v) :: rest => if k = key then some v else get? rest key

/-- Whether `key` has a value. -/
def has (m : Assoc α) (key : String) : Bool := (m.get? key).isSome

/-- The keys in order. -/
def keys (m : Assoc α) : List String := m.map (·.1)

/-- The values in order. -/
def values (m : Assoc α) : List α := m.map (·.2)

/-- Writes `value` at `key`: in place when the key is known, at the end otherwise. -/
def insert (m : Assoc α) (key : String) (value : α) : Assoc α :=
  match m with
  | [] => [(key, value)]
  | (k, v) :: rest => if k = key then (k, value) :: rest else (k, v) :: insert rest key value

/-- Writes the pairs of `more` one after the other. -/
def insertAll (m more : Assoc α) : Assoc α :=
  more.foldl (fun acc (k, v) => acc.insert k v) m

/-- The pairs of `pairs`, each key at its first place with its last value. -/
def ofPairs (pairs : List (String × α)) : Assoc α :=
  insertAll [] pairs

/-- The pairs before `key`, its value, and the pairs behind it. -/
def split? (m : Assoc α) (key : String) : Option (Assoc α × α × Assoc α) :=
  match m with
  | [] => none
  | (k, v) :: rest =>
    if k = key then some ([], v, rest)
    else (split? rest key).map fun (before, w, behind) => ((k, v) :: before, w, behind)

/-- Takes the pair of `key` out; the last pair moves into its place. -/
def take? (m : Assoc α) (key : String) : Option (α × Assoc α) :=
  (m.split? key).map fun (before, v, behind) =>
    match behind.getLast? with
    | some last => (v, before ++ last :: behind.dropLast)
    | none => (v, before)

/-- Writes `value` at `key` in a map whose keys are sorted by code point. -/
def place (m : Assoc α) (key : String) (value : α) : Assoc α :=
  match m with
  | [] => [(key, value)]
  | (k, v) :: rest =>
    if k = key then (k, value) :: rest
    else if key < k then (key, value) :: (k, v) :: rest
    else (k, v) :: place rest key value

/-- The pairs of `pairs` sorted by key, each key with its last value. -/
def sorted (pairs : List (String × α)) : Assoc α :=
  pairs.foldl (fun acc (k, v) => acc.place k v) []

/-- The keys go up by code point, so none stands twice. -/
def Sorted (m : Assoc α) : Prop := m.keys.Pairwise (· < ·)

/-- Every value under `f`. -/
def mapValues (f : α → β) (m : Assoc α) : Assoc β :=
  m.map fun (k, v) => (k, f v)

/-- The value at `key` under `f`, all else unchanged. -/
def modify (m : Assoc α) (key : String) (f : α → α) : Assoc α :=
  m.map fun (k, v) => if k = key then (k, f v) else (k, v)

@[simp] theorem get?_nil (key : String) : get? ([] : Assoc α) key = none := rfl

theorem get?_insert (m : Assoc α) (key other : String) (value : α) :
    (m.insert key value).get? other = if key = other then some value else m.get? other := by
  induction m with
  | nil => simp [insert, get?]
  | cons p rest ih =>
    obtain ⟨k, v⟩ := p
    by_cases hk : k = key
    · subst hk; by_cases ho : k = other <;> simp [insert, get?, ho]
    · by_cases ho : k = other
      · subst ho; simp [insert, get?, hk, Ne.symm hk]
      · simp [insert, get?, hk, ho, ih]

theorem mem_insert {m : Assoc α} {key : String} {value : α} {p : String × α}
    (h : p ∈ m.insert key value) : p = (key, value) ∨ p ∈ m := by
  induction m with
  | nil => exact .inl (List.mem_singleton.mp h)
  | cons q rest ih =>
    unfold insert at h
    split at h
    · rcases List.mem_cons.mp h with rfl | h
      · next he => subst he; exact .inl rfl
      · exact .inr (List.mem_cons_of_mem _ h)
    · rcases List.mem_cons.mp h with rfl | h
      · exact .inr List.mem_cons_self
      · exact (ih h).imp_right (List.mem_cons_of_mem _)

theorem get?_place (m : Assoc α) (key other : String) (value : α) :
    (m.place key value).get? other = if key = other then some value else m.get? other := by
  induction m with
  | nil => simp [place, get?]
  | cons p rest ih =>
    obtain ⟨k, v⟩ := p
    by_cases hk : k = key
    · subst hk; by_cases ho : k = other <;> simp [place, get?, ho]
    · by_cases hl : key < k
      · simp [place, hk, hl, get?]
      · by_cases ho : k = other
        · subst ho; simp [place, get?, hk, hl, Ne.symm hk]
        · simp [place, get?, hk, hl, ho, ih]

theorem sorted_nil : Sorted ([] : Assoc α) := .nil

theorem mem_keys_place {m : Assoc α} {key k : String} {value : α}
    (h : k ∈ (m.place key value).keys) : k = key ∨ k ∈ m.keys := by
  induction m with
  | nil => simp_all [place, keys]
  | cons p rest ih =>
    obtain ⟨k', v⟩ := p
    unfold place at h
    split at h
    · next he => subst he; exact .inr h
    · split at h
      · simpa [keys] using h
      · rcases List.mem_cons.mp h with rfl | h
        · exact .inr List.mem_cons_self
        · exact (ih h).imp_right (List.mem_cons_of_mem _)

theorem Sorted.place {m : Assoc α} (h : m.Sorted) (key : String) (value : α) :
    (m.place key value).Sorted := by
  induction m with
  | nil => exact List.pairwise_singleton ..
  | cons p rest ih =>
    obtain ⟨k, v⟩ := p
    obtain ⟨hk, hrest⟩ := List.pairwise_cons.mp h
    unfold Assoc.place
    split
    · next he => subst he; exact h
    · next hne =>
      split
      · next hlt =>
        refine List.pairwise_cons.mpr ⟨fun k' hk' => ?_, h⟩
        rcases List.mem_cons.mp hk' with rfl | hk'
        · exact hlt
        · exact String.lt_trans hlt (hk k' hk')
      · next hle =>
        refine List.pairwise_cons.mpr ⟨fun k' hk' => ?_, ih hrest⟩
        rcases mem_keys_place hk' with rfl | hk'
        · exact Std.lt_of_le_of_ne (String.not_lt.mp hle) hne
        · exact hk k' hk'

theorem sorted_sorted (pairs : List (String × α)) : (sorted pairs).Sorted := by
  suffices ∀ m : Assoc α, m.Sorted → (pairs.foldl (fun acc (k, v) => acc.place k v) m).Sorted from
    this [] sorted_nil
  induction pairs with
  | nil => exact fun _ h => h
  | cons p rest ih => exact fun m h => ih _ (h.place p.1 p.2)

end Assoc

end SiteScrape
