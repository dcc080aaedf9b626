import Mathlib.Data.List.Nodup
import SiteScrape.Proofs.ConfiguredSites
import SiteScrape.Proofs.WrittenRecords

/-!
# Reading back what was written

What a decoder has read is written again, and read off that, it is the same
(`ReadsBack`). Lists, maps and the entries of records are read back where what
is in them is; a value of any kind is read back since reading has left no key
twice in it (`distinct_distinct`).
-/

namespace SiteScrape

namespace Assoc

variable {α : Type} {m : Assoc α} {key : String}

/-- A new key goes to the end. -/
theorem insert_of_not_mem (h : key ∉ m.keys) (value : α) :
    m.insert key value = m ++ [(key, value)] := by
  induction m with
  | nil => rfl
  | cons p rest ih =>
    obtain ⟨k, v⟩ := p
    have hne : k ≠ key := by rintro rfl; exact h List.mem_cons_self
    rw [insert, if_neg hne, ih fun hmem => h (List.mem_cons_of_mem _ hmem)]
    rfl

/-- Pairs whose keys stand once are a map already. -/
theorem KeysOnce.ofPairs_eq (h : m.KeysOnce) : ofPairs m = m := by
  suffices ∀ acc : Assoc α, (acc ++ m).KeysOnce → Assoc.insertAll acc m = acc ++ m from this [] h
  clear h
  induction m with
  | nil => simp [Assoc.insertAll]
  | cons p rest ih =>
    obtain ⟨k, v⟩ := p
    intro acc honce
    have happend : acc ++ (k, v) :: rest = (acc ++ [(k, v)]) ++ rest := by simp
    have hnew : k ∉ acc.keys := by
      have hkeys : (acc.keys ++ keys ((k, v) :: rest)).Nodup := by rw [← keys_append]; exact honce
      exact fun hmem => (List.nodup_append.mp hkeys).2.2 k hmem k List.mem_cons_self rfl
    show Assoc.insertAll (acc.insert k v) rest = _
    rw [insert_of_not_mem hnew, happend]
    exact ih _ (happend ▸ honce)

theorem mem_place {p : String × α} {value : α} (h : p ∈ m.place key value) :
    p = (key, value) ∨ p ∈ m := by
  induction m with
  | nil => exact .inl (List.mem_singleton.mp h)
  | cons q rest ih =>
    unfold place at h
    split at h
    · exact (List.mem_cons.mp h).imp (fun hp => by next he => rw [hp, he]) (List.mem_cons_of_mem _)
    · split at h
      · exact List.mem_cons.mp h
      · rcases List.mem_cons.mp h with rfl | h
        · exact .inr List.mem_cons_self
        · exact (ih h).imp_right (List.mem_cons_of_mem _)

/-- Sorting brings in no pair. -/
theorem mem_of_mem_sorted {p : String × α} (h : p ∈ sorted m) : p ∈ m := by
  suffices ∀ acc : Assoc α, p ∈ m.foldl (fun acc q => acc.place q.1 q.2) acc → p ∈ m ∨ p ∈ acc from
    (this [] h).resolve_right List.not_mem_nil
  clear h
  induction m with
  | nil => exact fun _ h => .inr h
  | cons q rest ih =>
    intro acc h
    rcases ih _ h with h | h
    · exact .inl (List.mem_cons_of_mem _ h)
    · rcases mem_place h with rfl | h
      · exact .inl List.mem_cons_self
      · exact .inr h

end Assoc

namespace Json

theorem distinctItems_eq (items : List Json) : distinctItems items = items.map distinct := by
  induction items with
  | nil => rfl
  | cons v rest ih => simp [distinctItems, ih]

theorem distinctFields_eq (m : Fields) : distinctFields m = m.mapEntries fun _ => distinct := by
  induction m with
  | nil => rfl
  | cons p rest ih => simp [distinctFields, ih]

theorem distinct_ne_null {v : Json} (h : v ≠ .null) : v.distinct ≠ .null := by
  cases v with
  | null => exact absurd rfl h
  | bool | num | str | arr | obj => exact Json.noConfusion

/-- A value in which no key stands twice is left as it is. -/
theorem distinct_distinct (v : Json) : v.distinct.distinct = v.distinct := by
  cases v with
  | null | bool | num | str => rfl
  | arr items =>
    simp only [distinct, distinctItems_eq, List.map_map, arr.injEq]
    refine List.map_congr_left fun w hw => ?_
    have := List.sizeOf_lt_of_mem hw
    exact distinct_distinct w
  | obj m =>
    have honce : (Assoc.ofPairs (distinctFields m)).KeysOnce := Assoc.keysOnce_ofPairs _
    have hsame : distinctFields (Assoc.ofPairs (distinctFields m)) =
        Assoc.ofPairs (distinctFields m) := by
      rw [distinctFields_eq]
      refine (List.map_congr_left fun p hp => ?_).trans (List.map_id _)
      have hp := Assoc.mem_ofPairs hp
      rw [distinctFields_eq] at hp
      obtain ⟨q, hq, rfl⟩ := List.mem_map.mp hp
      have : sizeOf q.2 < 1 + sizeOf m := by simpa using sizeOf_lt_of_mem hq
      exact Prod.ext rfl (distinct_distinct q.2)
    simp only [distinct, hsame, honce.ofPairs_eq]
termination_by sizeOf v

end Json

namespace Decode

variable {α : Type} {d : Decoder α} {write : α → Json} {e written : Fields} {key : String}

/-- What `d` has read is written so that `d` reads it again. -/
def ReadsBack (d : Decoder α) (write : α → Json) : Prop :=
  ∀ v a, d v = some a → d (write a) = some a

/-- Nothing but null is written as null. -/
def KeepsNonNull (d : Decoder α) (write : α → Json) : Prop :=
  ∀ v a, v ≠ .null → d v = some a → write a ≠ .null

/-! ### Values -/

theorem readsBack_string : ReadsBack string .str := fun _ _ _ => rfl

theorem readsBack_bool : ReadsBack bool .bool := fun _ _ _ => rfl

theorem readsBack_any : ReadsBack any id := by
  rintro v _ ⟨⟩
  exact congrArg some v.distinct_distinct

theorem keepsNonNull_any : KeepsNonNull any id := by
  rintro v _ hv ⟨⟩
  exact Json.distinct_ne_null hv

theorem readsBack_fields : ReadsBack fields .obj := by
  intro v m h
  have hm : v.distinct = .obj m := by
    cases hv : v.distinct with
    | obj m' => rw [fields, hv] at h; cases h; rfl
    | null | bool | num | str | arr => rw [fields, hv] at h; cases h
  rw [fields, ← hm, v.distinct_distinct, hm]
  rfl

theorem lt_of_natBelow {bound n : Nat} {v : Json} (h : natBelow bound v = some n) : n < bound := by
  unfold natBelow at h
  split at h
  · split at h
    · next hbounds =>
      cases h
      simp only [Bool.and_eq_true, decide_eq_true_eq] at hbounds
      omega
    · cases h
  · cases h

theorem natBelow_int {bound n : Nat} (h : n < bound) (lo hi) :
    natBelow bound (.num (.int n lo hi)) = some n := by
  simp only [natBelow, Int.toNat_natCast]
  rw [if_pos (by simpa using h)]

theorem readsBack_natBelow {bound : Nat} (h : bound ≤ 0x10000000000000000) :
    ReadsBack (natBelow bound) fun n => .ofInt n := by
  intro v n hn
  have hlt := lt_of_natBelow hn
  have hfits : -0x8000000000000000 ≤ (n : Int) ∧ (n : Int) < 0x10000000000000000 := by omega
  have hwritten : Json.ofInt n = .num (.int n hfits.1 hfits.2) := by
    rw [Json.ofInt, Number.ofInt, dif_pos hfits]
  exact (congrArg (natBelow bound) hwritten).trans (natBelow_int hlt ..)

theorem readsBack_oneOrMany : ReadsBack oneOrMany .ofStrings := fun _ texts _ =>
  oneOrMany_ofStrings texts

theorem readsBack_texts : ReadsBack (list string) .ofStrings := fun _ texts _ =>
  list_ofStrings texts

/-! ### Lists and maps -/

theorem mapM_map_write {β γ : Type} {f : β → Option γ} {back : γ → β} {items : List γ}
    (h : ∀ a ∈ items, f (back a) = some a) : (items.map back).mapM f = some items := by
  induction items with
  | nil => rfl
  | cons a rest ih =>
    rw [List.map_cons, List.mapM_cons, h a List.mem_cons_self,
      ih fun b hb => h b (List.mem_cons_of_mem _ hb)]
    rfl

theorem ReadsBack.list (h : ReadsBack d write) :
    ReadsBack (list d) fun items => .arr (items.map write) := by
  intro v items hv
  cases v with
  | arr vs =>
    refine mapM_map_write fun a ha => ?_
    obtain ⟨w, -, hw⟩ := exists_of_mapM hv ha
    exact h w a hw
  | null | bool | num | str | obj => cases hv

theorem sortedPairs_mapValues {m : Assoc α} (hsorted : m.Sorted)
    (h : ∀ p ∈ m, d (write p.2) = some p.2) : sortedPairs d (m.mapValues write) = some m := by
  have hread : (m.mapValues write).mapM (fun p => (d p.2).map fun w => (p.1, w)) = some m :=
    mapM_map_write fun p hp => by rw [h p hp, Option.map_some]
  rw [sortedPairs, hread, Option.map_some, hsorted.sorted_eq]

theorem sorted_of_sortedPairs {pairs : List (String × Json)} {m : Assoc α}
    (h : sortedPairs d pairs = some m) : m.Sorted := by
  obtain ⟨read, -, rfl⟩ := Option.map_eq_some_iff.mp h
  exact Assoc.sorted_sorted read

/-- Every value of a sorted reading was read. -/
theorem exists_of_mem_sortedPairs {pairs : List (String × Json)} {m : Assoc α} {p : String × α}
    (h : sortedPairs d pairs = some m) (hp : p ∈ m) : ∃ v, d v = some p.2 := by
  obtain ⟨read, hread, rfl⟩ := Option.map_eq_some_iff.mp h
  obtain ⟨q, -, hq⟩ := exists_of_mapM hread (Assoc.mem_of_mem_sorted hp)
  obtain ⟨w, hw, rfl⟩ := Option.map_eq_some_iff.mp hq
  exact ⟨q.2, hw⟩

theorem ReadsBack.sortedMap (h : ReadsBack d write) :
    ReadsBack (sortedMap d) fun m => .obj (m.mapValues write) := by
  intro v m hv
  refine sortedPairs_mapValues (sorted_of_sortedMap hv) fun p hp => ?_
  obtain ⟨pairs, -, hpairs⟩ := Option.bind_eq_some_iff.mp hv
  obtain ⟨w, hw⟩ := exists_of_mem_sortedPairs hpairs hp
  exact h w p.2 hw

/-! ### Entries of records -/

/-- The entries of a record are there to be read, for no key stands twice. -/
theorem record_of_isRecord {names : List String} (h : Layers.IsRecord (.obj e)) :
    record names (.obj e) = some e := by
  obtain ⟨_, heq, honce⟩ := h
  cases heq
  have hfilter (name : String) : (e.filter (·.1 == name)).length ≤ 1 := by
    have hkeys := List.nodup_iff_count_le_one.mp honce name
    rwa [Assoc.keys, List.count, List.countP_map, List.countP_eq_length_filter] at hkeys
  exact if_pos (List.all_eq_true.mpr fun name _ => decide_eq_true (hfilter name))

theorem ReadsBack.required {a : α} (h : ReadsBack d write) (hread : required e key d = some a)
    (hwritten : written.get? key = some (write a)) : required written key d = some a := by
  obtain ⟨v, -, hv⟩ := Option.bind_eq_some_iff.mp hread
  rw [Decode.required, hwritten]
  exact h v a hv

theorem ReadsBack.withDefault {a value : α} (h : ReadsBack d write)
    (hread : withDefault e key d value = some a) (hvalue : d (write value) = some value)
    (hwritten : written.get? key = some (write a)) : withDefault written key d value = some a := by
  rw [Decode.withDefault, hwritten]
  cases hv : Assoc.get? e key with
  | none =>
    rw [Decode.withDefault, hv] at hread
    cases hread
    exact hvalue
  | some v =>
    rw [Decode.withDefault, hv] at hread
    exact h v a hread

theorem ReadsBack.unlessEmpty {β : Type} {d : Decoder (List β)} {write : List β → Json}
    {items : List β} (h : ReadsBack d write) (hread : Decode.withDefault e key d [] = some items)
    (hwritten : written.get? key = if items.isEmpty = false then some (write items) else none) :
    Decode.withDefault written key d [] = some items := by
  cases items with
  | nil => rw [Decode.withDefault, hwritten]; rfl
  | cons b rest =>
    cases hv : Assoc.get? e key with
    | none =>
      rw [Decode.withDefault, hv] at hread
      cases hread
    | some v =>
      rw [Decode.withDefault, hv] at hread
      rw [Decode.withDefault, hwritten]
      exact h v _ hread

/-- What is read off a field that may be null or absent was neither. -/
theorem exists_of_optional {a : α} (h : Decode.optional e key d = some (some a)) :
    ∃ v, v ≠ .null ∧ d v = some a := by
  obtain ⟨v, hv, hread⟩ := (reads_of_optional h).exists_of_some
  refine ⟨v, ?_, hread⟩
  rintro rfl
  unfold Decode.optional Decode.withDefault at h
  rw [hv] at h
  cases h

theorem ReadsBack.optional {x : Option α} (h : ReadsBack d write) (hnull : KeepsNonNull d write)
    (hread : Decode.optional e key d = some x) (hwritten : written.get? key = x.map write) :
    Decode.optional written key d = some x := by
  cases x with
  | none => rw [Decode.optional, Decode.withDefault, hwritten]; rfl
  | some a =>
    obtain ⟨v, hne, hv⟩ := exists_of_optional hread
    rw [Decode.optional, Decode.withDefault, hwritten]
    exact reads_some (h v a hv) (hnull v a hne hv)

theorem ReadsBack.optional_of_ne_null {x : Option α} (h : ReadsBack d write)
    (hnull : ∀ a, write a ≠ .null) (hread : Decode.optional e key d = some x)
    (hwritten : written.get? key = x.map write) : Decode.optional written key d = some x :=
  h.optional (fun _ a _ _ => hnull a) hread hwritten

end Decode

end SiteScrape
