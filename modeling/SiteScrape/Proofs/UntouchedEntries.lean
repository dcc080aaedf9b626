import Mathlib.Data.List.Find
import Mathlib.Data.List.Perm.Subperm
import SiteScrape.Field.Resolve
import SiteScrape.Proofs.KeyPaths
import SiteScrape.Proofs.ReadBack
import SiteScrape.Transport.Request

/-!
# The order of entries that a layer does not mention

Laying an entry over one that is there moves it to the end, and the last entry
closes the gap. From the second time on the last entry is itself one that was
written, so only the first gap can bring others out of order
(`filter_mergeFields`): the last entry below then stands where the first one
written stood, before all that stood between them (`Overtakes`). Of two rules of
a field that fit the first one counts, and a query has its parameters in order
(`InTurn`), so both tell.
-/

namespace SiteScrape

/-! ### Two keys in a list -/

section

variable {key a b c : String} {r s keys : List String}

theorem pair_sublist_append (ha : a ∈ r) (hb : b ∈ s) : List.Sublist [a, b] (r ++ s) :=
  (List.singleton_sublist.mpr ha).append (List.singleton_sublist.mpr hb)

theorem exists_append_of_pair_sublist (h : List.Sublist [a, b] keys) :
    ∃ r s, keys = r ++ s ∧ a ∈ r ∧ b ∈ s := by
  obtain ⟨r, s, hkeys, ha, hb⟩ := List.cons_sublist_iff.mp h
  exact ⟨r, s, hkeys, ha, List.singleton_sublist.mp hb⟩

theorem not_pair_sublist_swap (hkeys : keys.Nodup) (h : List.Sublist [a, b] keys) :
    ¬ List.Sublist [b, a] keys := by
  intro h'
  obtain ⟨r, s, heq, ha, hb⟩ := exists_append_of_pair_sublist h
  obtain ⟨r', s', heq', hb', ha'⟩ := exists_append_of_pair_sublist h'
  have hr : r <+: keys := ⟨s, heq.symm⟩
  have hr' : r' <+: keys := ⟨s', heq'.symm⟩
  rcases List.prefix_or_prefix_of_prefix hr hr' with hle | hle
  · exact (List.nodup_append.mp (heq' ▸ hkeys)).2.2 a (hle.subset ha) a ha' rfl
  · exact (List.nodup_append.mp (heq ▸ hkeys)).2.2 b (hle.subset hb') b hb rfl

theorem pair_sublist_of_ne (h : List.Sublist [a, b] (r ++ key :: s)) (ha : a ≠ key)
    (hb : b ≠ key) : List.Sublist [a, b] (r ++ s) := by
  have hkept := h.filter (· != key)
  have hpair : [a, b].filter (· != key) = [a, b] := by simp [ha, hb]
  rw [hpair, List.filter_append, List.filter_cons_of_neg (by simp)] at hkept
  exact hkept.trans (List.filter_sublist.append List.filter_sublist)

theorem pair_sublist_head_iff (hkeys : (r ++ key :: s).Nodup) :
    List.Sublist [key, a] (r ++ key :: s) ↔ a ∈ s := by
  constructor
  · intro h
    have hne : key ≠ a := by simpa using hkeys.sublist h
    have har : a ∉ r := fun har =>
      not_pair_sublist_swap hkeys h (pair_sublist_append har List.mem_cons_self)
    have hmem : a ∈ r ++ key :: s := h.subset (by simp)
    simpa [har, hne.symm] using hmem
  · intro h
    rw [List.append_cons]
    exact pair_sublist_append (by simp) h

/-- When the last of some keys closes the gap that another leaves, it comes to
stand before those behind the gap; all others stay in order. -/
theorem pair_sublist_closed (hkeys : (r ++ key :: (s ++ [c])).Nodup)
    (h : List.Sublist [a, b] (r ++ key :: (s ++ [c]))) (ha : a ≠ key) (hb : b ≠ key) :
    (a ∈ s ∧ b = c ∧ List.Sublist [b, a] (r ++ c :: s)) ∨
      (¬ (a ∈ s ∧ b = c) ∧ List.Sublist [a, b] (r ++ c :: s)) := by
  have hrest : List.Sublist [a, b] ((r ++ s) ++ [c]) := by
    simpa using pair_sublist_of_ne h ha hb
  have hnodup : ((r ++ s) ++ [c]).Nodup := hkeys.sublist (by simp)
  have hab : a ≠ b := by simpa using hnodup.sublist hrest
  have hmem {k : String} (hk : k ∈ [a, b]) (hne : k ≠ c) : k ∈ r ++ s := by
    simpa [hne] using hrest.subset hk
  -- nothing stands behind the last key
  have hac : a ≠ c := by
    rintro rfl
    refine not_pair_sublist_swap hnodup hrest (pair_sublist_append ?_ List.mem_cons_self)
    exact hmem (by simp) hab.symm
  by_cases hbc : b = c
  · subst hbc
    by_cases has : a ∈ s
    · refine .inl ⟨has, rfl, ?_⟩
      rw [List.append_cons]
      exact pair_sublist_append (by simp) has
    · refine .inr ⟨fun hgap => has hgap.1, pair_sublist_append ?_ List.mem_cons_self⟩
      exact (List.mem_append.mp (hmem List.mem_cons_self hac)).resolve_right has
  · refine .inr ⟨fun hgap => hbc hgap.2, ?_⟩
    have hkept : List.Sublist [a, b] (r ++ s) := by
      simpa using pair_sublist_of_ne hrest hac hbc
    exact hkept.trans ((List.sublist_cons_self c s).append_left r)

end

namespace Assoc

variable {α : Type} {m others : Assoc α} {key a b : String} {v w : α} {p : String × α → Bool}

/-- Both keys are there, the one before the other. -/
def Precedes (m : Assoc α) (a b : String) : Prop := List.Sublist [a, b] m.keys

instance (m : Assoc α) (a b : String) : Decidable (m.Precedes a b) :=
  inferInstanceAs (Decidable (List.Sublist [a, b] m.keys))

/-- Keys that are kept stay in order. -/
theorem precedes_filter_iff {keep : String → Bool} (ha : keep a = true) (hb : keep b = true) :
    Precedes (m.filter fun q => keep q.1) a b ↔ m.Precedes a b := by
  have hkeys : keys (m.filter fun q => keep q.1) = m.keys.filter keep := by
    rw [keys, keys, List.filter_map]
    rfl
  rw [Precedes, Precedes, hkeys]
  refine ⟨fun h => h.trans List.filter_sublist, fun h => ?_⟩
  simpa [ha, hb] using h.filter keep

/-- The pair that is taken out was the last one, or the last one closes the gap. -/
theorem cases_of_take? (h : m.take? key = some (v, others)) :
    m = others ++ [(key, v)] ∨ ∃ (before behind : Assoc α) (last : String × α),
      m = before ++ (key, v) :: (behind ++ [last]) ∧ others = before ++ last :: behind := by
  obtain ⟨⟨before, w, behind⟩, hsplit, heq⟩ := Option.map_eq_some_iff.mp h
  rw [eq_of_split? hsplit]
  cases hlast : behind.getLast? with
  | none =>
    simp only [hlast, Prod.mk.injEq] at heq
    obtain ⟨rfl, rfl⟩ := heq
    exact .inl (by rw [List.getLast?_eq_none_iff.mp hlast])
  | some last =>
    simp only [hlast, Prod.mk.injEq] at heq
    obtain ⟨rfl, rfl⟩ := heq
    obtain ⟨rest, rfl⟩ := List.getLast?_eq_some_iff.mp hlast
    exact .inr ⟨before, rest, last, rfl, by rw [List.dropLast_concat]⟩

/-- Where the last pair does not count, and neither does the one that is taken
out, those that count stay as they are. -/
theorem filter_take? (h : m.take? key = some (v, others)) (hkey : p (key, v) = false)
    (hlast : ∀ q, m.getLast? = some q → p q = false) : others.filter p = m.filter p := by
  obtain rfl | ⟨before, behind, last, rfl, rfl⟩ := cases_of_take? h
  · simp [hkey]
  · have hgone : p last = false := hlast last (by simp [List.getLast?_append, List.getLast?_cons])
    simp [hkey, hgone]

/-- The last key, which closes the gap that `key` leaves, comes to stand before
the other. -/
def Jumps (m : Assoc α) (key b a : String) : Prop := m.Precedes key a ∧ m.keys.getLast? = some b

instance (m : Assoc α) (key b a : String) : Decidable (m.Jumps key b a) :=
  inferInstanceAs (Decidable (m.Precedes key a ∧ m.keys.getLast? = some b))

/-- Of two keys that stay when a pair is taken out, the second may jump. -/
theorem KeysOnce.precedes_take? (h : m.KeysOnce) (ht : m.take? key = some (v, others))
    (hab : m.Precedes a b) (ha : a ≠ key) (hb : b ≠ key) :
    (m.Jumps key b a ∧ others.Precedes b a) ∨ (¬ m.Jumps key b a ∧ others.Precedes a b) := by
  obtain rfl | ⟨before, behind, ⟨c, u⟩, rfl, rfl⟩ := cases_of_take? ht
  · have hkeys : keys (others ++ [(key, v)]) = others.keys ++ [key] := keys_append _ _
    refine .inr ⟨fun hjumps => hb ?_, ?_⟩
    · simpa [hkeys] using hjumps.2.symm
    · have hsub : List.Sublist [a, b] (others.keys ++ key :: []) := hkeys ▸ hab
      rw [Precedes]
      simpa using pair_sublist_of_ne hsub ha hb
  · have hkeys : keys (before ++ (key, v) :: (behind ++ [(c, u)])) =
        before.keys ++ key :: (keys behind ++ [c]) := by simp [keys]
    have hothers : keys (before ++ (c, u) :: behind) = before.keys ++ c :: keys behind := by
      simp [keys]
    have honce : (before.keys ++ key :: (keys behind ++ [c])).Nodup := hkeys ▸ h
    have hne : a ≠ b := by simpa using List.Nodup.sublist hab h
    have hjumps : Jumps (before ++ (key, v) :: (behind ++ [(c, u)])) key b a ↔
        a ∈ keys behind ∧ b = c := by
      have hlast : (before.keys ++ key :: (keys behind ++ [c])).getLast? = some c := by
        simp [List.getLast?_append, List.getLast?_cons]
      rw [Jumps, Precedes, hkeys, pair_sublist_head_iff honce, hlast, List.mem_append,
        List.mem_singleton, Option.some.injEq]
      constructor
      · rintro ⟨hmem | rfl, rfl⟩
        · exact ⟨hmem, rfl⟩
        · exact absurd rfl hne
      · rintro ⟨hmem, rfl⟩
        exact ⟨.inl hmem, rfl⟩
    rw [hjumps, Precedes, Precedes, hothers]
    simpa [and_assoc] using pair_sublist_closed honce (hkeys ▸ hab) ha hb

/-- Two keys out of a map with each key once. -/
theorem KeysOnce.filter_pair (h : m.KeysOnce) (hab : m.Precedes a b) (ha : m.get? a = some v)
    (hb : m.get? b = some w) : m.filter (fun q => q.1 = a ∨ q.1 = b) = [(a, v), (b, w)] := by
  obtain ⟨pairs, hpairs, heq⟩ := List.sublist_map_iff.mp hab
  obtain ⟨⟨a', v'⟩, rest, rfl, hhead, htail⟩ := List.map_eq_cons_iff.mp heq.symm
  obtain ⟨⟨b', w'⟩, rest, rfl, hhead', htail'⟩ := List.map_eq_cons_iff.mp htail
  obtain rfl := List.map_eq_nil_iff.mp htail'
  obtain rfl : a' = a := hhead
  obtain rfl : b' = b := hhead'
  have hv : m.get? a' = some v' := h.get?_eq_some_iff.mpr (hpairs.subset (by simp))
  have hw : m.get? b' = some w' := h.get?_eq_some_iff.mpr (hpairs.subset (by simp))
  obtain rfl : v' = v := Option.some.inj (hv.symm.trans ha)
  obtain rfl : w' = w := Option.some.inj (hw.symm.trans hb)
  have hsub : List.Sublist [(a', v'), (b', w')] (m.filter fun q => q.1 = a' ∨ q.1 = b') := by
    simpa using hpairs.filter fun q => q.1 = a' ∨ q.1 = b'
  refine (hsub.eq_of_length_le ?_).symm
  have hkeys : (keys (m.filter fun q => q.1 = a' ∨ q.1 = b')).Nodup := h.filter _
  have hmem : keys (m.filter fun q => q.1 = a' ∨ q.1 = b') ⊆ [a', b'] := by
    intro k hk
    obtain ⟨q, hq, rfl⟩ := List.mem_map.mp hk
    simpa using (List.mem_filter.mp hq).2
  simpa [keys] using (List.Nodup.subperm hkeys hmem).length_le

end Assoc

namespace Layers

open Assoc

variable {l u : Fields} {a b : String}

/-- The key of the first entry that is laid over the entries below: a null is laid
over known keys only. -/
def firstWritten? (l u : Fields) : Option String :=
  (u.find? fun q => l.has q.1 || !q.2.isNull).map (·.1)

/-- The entries below when the first gap is closed. -/
def closed (l u : Fields) : Fields :=
  (((firstWritten? l u).bind l.take?).map (·.2)).getD l

theorem firstWritten?_cons (l : Fields) (k : String) (v : Json) (rest : Fields) :
    firstWritten? l ((k, v) :: rest) =
      if l.has k || !v.isNull then some k else firstWritten? l rest := by
  unfold firstWritten?
  rw [List.find?_cons]
  cases l.has k || !v.isNull <;> simp

theorem mem_of_firstWritten? {k : String} (h : firstWritten? l u = some k) : k ∈ u.keys := by
  obtain ⟨q, hq, rfl⟩ := Option.map_eq_some_iff.mp h
  exact List.mem_map_of_mem (List.mem_of_find?_eq_some hq)

/-- What laying one entry over those below comes to: a null says nothing of a new
key; else the entry stands at the end, and what was at its key is taken out. -/
theorem mergeFields_cons_cases (hl : l.KeysOnce) (k : String) (v : Json) (rest : Fields) :
    (l.take? k = none ∧ v.isNull = true ∧ mergeFields l ((k, v) :: rest) = mergeFields l rest) ∨
    ∃ kept w, mergeFields l ((k, v) :: rest) = mergeFields (kept ++ [(k, w)]) rest ∧
      KeysOnce (kept ++ [(k, w)]) ∧
      ((l.take? k = none ∧ v.isNull = false ∧ kept = l) ∨
        ∃ below, l.take? k = some (below, kept)) := by
  rw [mergeFields_cons]
  cases htake : l.take? k with
  | some taken =>
    obtain ⟨below, others⟩ := taken
    obtain ⟨hothers, -, hget⟩ := hl.take? htake
    have hnew : k ∉ others.keys := get?_eq_none_iff.mp (by simp [hget])
    have honce := hothers.insert k (mergeValue (.ofKey k) below v)
    dsimp only
    rw [insert_of_not_mem hnew] at honce ⊢
    exact .inr ⟨others, _, rfl, honce, .inr ⟨below, rfl⟩⟩
  | none =>
    have hnew : k ∉ l.keys := get?_eq_none_iff.mp (take?_eq_none_iff.mp htake)
    cases hnull : v.isNull with
    | true => exact .inl ⟨rfl, rfl, rfl⟩
    | false =>
      have honce := hl.insert k v
      rw [insert_of_not_mem hnew] at honce
      refine .inr ⟨l, v, ?_, honce, .inl ⟨rfl, rfl, rfl⟩⟩
      simp [insert_of_not_mem hnew]

/-- Once the last entry is one that the upper layer mentions, the others stay as
they are. -/
theorem filter_mergeFields_of_last {p : String × Json → Bool} (hl : l.KeysOnce) (hu : u.KeysOnce)
    (hp : ∀ q, q.1 ∈ u.keys → p q = false) (hlast : ∀ q, l.getLast? = some q → p q = false) :
    (mergeFields l u).filter p = l.filter p := by
  induction u generalizing l with
  | nil => simp [mergeFields]
  | cons q rest ih =>
    obtain ⟨k, v⟩ := q
    obtain ⟨-, hrest⟩ := List.nodup_cons.mp hu
    have hk (v : Json) : p (k, v) = false := hp _ List.mem_cons_self
    have hp : ∀ q, q.1 ∈ keys rest → p q = false := fun q hq => hp q (List.mem_cons_of_mem _ hq)
    obtain ⟨-, -, heq⟩ | ⟨kept, w, heq, honce, hkept⟩ := mergeFields_cons_cases hl k v rest
    · rw [heq, ih hl hrest hp hlast]
    · have hsame : kept.filter p = l.filter p := by
        obtain ⟨-, -, rfl⟩ | ⟨below, htake⟩ := hkept
        · rfl
        · exact filter_take? htake (hk _) hlast
      rw [heq, ih honce hrest hp (by simp [hk]), List.filter_append, hsame]
      simp [hk]

/-- Entries that the upper layer does not mention stand as they do when the first
gap is closed. -/
theorem filter_mergeFields {p : String × Json → Bool} (hl : l.KeysOnce) (hu : u.KeysOnce)
    (hp : ∀ q, q.1 ∈ u.keys → p q = false) :
    (mergeFields l u).filter p = (closed l u).filter p := by
  induction u with
  | nil => simp [mergeFields, closed, firstWritten?]
  | cons q rest ih =>
    obtain ⟨k, v⟩ := q
    obtain ⟨-, hrest⟩ := List.nodup_cons.mp hu
    have hk (v : Json) : p (k, v) = false := hp _ List.mem_cons_self
    have hp : ∀ q, q.1 ∈ keys rest → p q = false := fun q hq => hp q (List.mem_cons_of_mem _ hq)
    have hhas : l.has k = (l.take? k).isSome := by
      rw [Assoc.has, Bool.eq_iff_iff, Option.isSome_iff_ne_none, Option.isSome_iff_ne_none, ne_eq,
        ne_eq, take?_eq_none_iff]
    rw [closed, firstWritten?_cons, hhas]
    obtain ⟨htake, hnull, heq⟩ | ⟨kept, w, heq, honce, hkept⟩ := mergeFields_cons_cases hl k v rest
    · rw [heq, ih hrest hp, closed]
      simp [htake, hnull]
    · rw [heq, filter_mergeFields_of_last honce hrest hp (by simp [hk])]
      obtain ⟨htake, hnull, rfl⟩ | ⟨below, htake⟩ := hkept
      · simp [htake, hnull, hk]
      · simp [htake, hk]

/-- The last entry below goes where the first one written stood, before the other. -/
def Overtakes (l u : Fields) (b a : String) : Prop :=
  ∃ k ∈ firstWritten? l u, l.Jumps k b a

instance (l u : Fields) (b a : String) : Decidable (Overtakes l u b a) :=
  inferInstanceAs (Decidable (∃ k ∈ firstWritten? l u, l.Jumps k b a))

/-- Two keys that the upper layer does not mention stand in order, unless the
second overtakes the first. -/
theorem precedes_mergeFields (hl : l.KeysOnce) (hu : u.KeysOnce) (hab : l.Precedes a b)
    (ha : u.get? a = none) (hb : u.get? b = none) :
    (¬ Overtakes l u b a → Precedes (mergeFields l u) a b) ∧
      (Overtakes l u b a → Precedes (mergeFields l u) b a) := by
  let keep (k : String) : Bool := (u.get? k).isNone
  have hkeep : keep a = true ∧ keep b = true := by simp [keep, ha, hb]
  have hfilter : (mergeFields l u).filter (fun q => keep q.1) =
      (closed l u).filter fun q => keep q.1 := by
    refine filter_mergeFields hl hu fun q hq => Option.isNone_eq_false_iff.mpr ?_
    exact Option.isSome_iff_ne_none.mpr fun hnone => get?_eq_none_iff.mp hnone hq
  have hmerged (c d : String) (hc : keep c = true) (hd : keep d = true) :
      Precedes (mergeFields l u) c d ↔ (closed l u).Precedes c d := by
    rw [← precedes_filter_iff hc hd, hfilter, precedes_filter_iff hc hd]
  rw [hmerged a b hkeep.1 hkeep.2, hmerged b a hkeep.2 hkeep.1, closed]
  cases hfirst : firstWritten? l u with
  | none => simp [Overtakes, hfirst, hab]
  | some k =>
    have hover : Overtakes l u b a ↔ l.Jumps k b a := by simp [Overtakes, hfirst]
    rw [hover, Option.bind_some]
    cases htake : l.take? k with
    | none =>
      have hjumps : ¬ l.Jumps k b a := fun h =>
        get?_eq_none_iff.mp (take?_eq_none_iff.mp htake) (h.1.subset List.mem_cons_self)
      simp [hjumps, hab]
    | some taken =>
      obtain ⟨below, others⟩ := taken
      have hne {c : String} (hc : u.get? c = none) : c ≠ k := by
        rintro rfl
        exact get?_eq_none_iff.mp hc (mem_of_firstWritten? hfirst)
      rw [Option.map_some, Option.getD_some]
      obtain ⟨hjumps, hba⟩ | ⟨hjumps, hab⟩ := hl.precedes_take? htake hab (hne ha) (hne hb)
      · exact ⟨fun h => absurd hjumps h, fun _ => hba⟩
      · exact ⟨fun _ => hab, fun h => absurd h hjumps⟩

/-- Down a path of keys, objects in both layers are merged. -/
theorem below?_mergeValue_obj {rule : Rule} {lower upper : Json} {path : List String}
    (hrule : rule ≠ .replace) (hmerging : Merging path) (hl : lower.KeysOnce) (hu : upper.KeysOnce)
    (hlower : lower.below? path = some (.obj l)) (hupper : upper.below? path = some (.obj u)) :
    (mergeValue rule lower upper).below? path = some (.obj (mergeFields l u)) := by
  induction path generalizing rule lower upper with
  | nil =>
    cases hlower
    cases hupper
    rw [mergeValue_obj_obj hrule]
    rfl
  | cons k path ih =>
    obtain ⟨hk, hmerging⟩ := List.forall_mem_cons.mp hmerging
    obtain ⟨x, hfield, hx⟩ := Option.bind_eq_some_iff.mp hlower
    obtain ⟨y, hfield', hy⟩ := Option.bind_eq_some_iff.mp hupper
    obtain ⟨l', rfl, hget⟩ := Json.exists_obj_of_field? hfield
    obtain ⟨u', rfl, hget'⟩ := Json.exists_obj_of_field? hfield'
    rw [mergeValue_obj_obj hrule, Json.below?_cons, Json.field?_obj,
      (view_mergeFields hl.fields hu.fields).2, hget, hget', overlay_some, Option.bind_some]
    exact ih hk hmerging (hl.get? hget) (hu.get? hget') hx hy

open SiteScrape.Field Request

/-- The one entry is before the other, and both are as below: of two rules that
fit, its value counts, and in a query it is written first. -/
structure InTurn (l m : Fields) (a b : String) : Prop where
  precedes : m.Precedes a b
  case : ∀ e, ruleFits a e = true → (∀ k ∈ m.keys, ruleFits k e = true → k = a ∨ k = b) →
    caseOf m (.element e) = (l.get? a).getD .null
  query : (queryPairs m).filter (fun q => q.1 = a ∨ q.1 = b) =
    pairsOf a ((l.get? a).getD .null) ++ pairsOf b ((l.get? b).getD .null)

theorem fst_of_mem_pairsOf {key : String} {v : Json} {q : String × String}
    (h : q ∈ pairsOf key v) : q.1 = key := by
  unfold pairsOf at h
  split at h
  · cases h
  · obtain ⟨v, -, rfl⟩ := List.mem_map.mp h
    rfl
  · rw [List.mem_singleton.mp h]

/-- Of a query, the parameters whose names are kept. -/
theorem filter_queryPairs (keep : String → Bool) (m : Fields) :
    (queryPairs m).filter (fun q => keep q.1) = queryPairs (m.filter fun q => keep q.1) := by
  induction m with
  | nil => rfl
  | cons q rest ih =>
    obtain ⟨k, v⟩ := q
    have hcons : queryPairs ((k, v) :: rest) = pairsOf k v ++ queryPairs rest := rfl
    rw [hcons, List.filter_append, ih]
    cases hk : keep k with
    | true =>
      have hrest : ((k, v) :: rest).filter (fun q => keep q.1) =
          (k, v) :: rest.filter fun q => keep q.1 := List.filter_cons_of_pos hk
      have hall : (pairsOf k v).filter (fun q => keep q.1) = pairsOf k v :=
        List.filter_eq_self.mpr fun q hq => by rw [fst_of_mem_pairsOf hq, hk]
      rw [hall, hrest]
      rfl
    | false =>
      have hrest : ((k, v) :: rest).filter (fun q => keep q.1) =
          rest.filter fun q => keep q.1 := List.filter_cons_of_neg (by simp [hk])
      have hnone : (pairsOf k v).filter (fun q => keep q.1) = [] :=
        List.filter_eq_nil_iff.mpr fun q hq => by simp [fst_of_mem_pairsOf hq, hk]
      rw [hnone, hrest, List.nil_append]

theorem inTurn_of_precedes {m : Fields} (hm : m.KeysOnce) (hab : m.Precedes a b)
    (ha : m.get? a = l.get? a) (hb : m.get? b = l.get? b) : InTurn l m a b := by
  have hmem {k : String} (hk : k ∈ [a, b]) : ∃ v, m.get? k = some v :=
    Option.ne_none_iff_exists'.mp fun hnone => get?_eq_none_iff.mp hnone (hab.subset hk)
  obtain ⟨v, hv⟩ := hmem List.mem_cons_self
  obtain ⟨w, hw⟩ := hmem (List.mem_cons_of_mem _ List.mem_cons_self)
  have hpair := hm.filter_pair hab hv hw
  refine ⟨hab, fun e hfits honly => ?_, ?_⟩
  · have hfind : m.find? (fun q => ruleFits q.1 e) = some (a, v) := by
      have hof : (m.filter fun q => q.1 = a ∨ q.1 = b).find? (fun q => ruleFits q.1 e) =
          some (a, v) := by
        rw [hpair]
        exact List.find?_cons_of_pos hfits
      rw [← hof, List.find?_filter]
      refine List.find?_congr fun q hq => ?_
      have honly := honly q.1 (List.mem_map_of_mem hq)
      cases hq : ruleFits q.1 e with
      | true => simp [honly hq]
      | false => simp
    rw [caseOf, hfind, ← ha, hv]
    rfl
  · have hquery := filter_queryPairs (fun k => k = a ∨ k = b) m
    rw [hpair] at hquery
    rw [hquery, ← ha, ← hb, hv, hw]
    simp [queryPairs]

/-- What a layer does to the order of entries that it does not mention, wherever
both layers have objects: two of them stay in turn, unless the second is the last
entry below and the first entry of the layer that is written stands below before
the first; then the two change places. -/
theorem merge_untouched_order {lower upper : Json} {path : List String} (hl : lower.KeysOnce)
    (hu : upper.KeysOnce) (hmerging : Merging path) (hlower : lower.below? path = some (.obj l))
    (hupper : upper.below? path = some (.obj u)) :
    ∃ m, (merge lower [upper]).below? path = some (.obj m) ∧
      ∀ a b, l.Precedes a b → u.get? a = none → u.get? b = none →
        (¬ Overtakes l u b a → InTurn l m a b) ∧ (Overtakes l u b a → InTurn l m b a) := by
  have hlf : l.KeysOnce := hl path l hlower
  have huf : u.KeysOnce := hu path u hupper
  obtain ⟨honce, hview⟩ := view_mergeFields hlf huf
  refine ⟨mergeFields l u, below?_mergeValue_obj (by decide) hmerging hl hu hlower hupper, ?_⟩
  intro a b hab ha hb
  obtain ⟨hstay, hswap⟩ := precedes_mergeFields hlf huf hab ha hb
  have hsame {k : String} (hk : u.get? k = none) : Assoc.get? (mergeFields l u) k = l.get? k := by
    rw [hview, hk, overlay_none]
  exact ⟨fun h => inTurn_of_precedes honce (hstay h) (hsame ha) (hsame hb),
    fun h => inTurn_of_precedes honce (hswap h) (hsame hb) (hsame ha)⟩

/-- Three rules of a field. -/
def sampleRules : Fields := [(".x", .str "X"), (".a", .str "A"), (".b", .str "B")]

/-- A layer on the first rule puts the third before the second; one on the second
leaves the others in turn. -/
theorem merge_untouched_order_of_rules :
    let lower : Json := .obj [("case", .obj sampleRules)]
    let first : Fields := [(".x", .str "Y")]
    let second : Fields := [(".a", .str "Y")]
    lower.KeysOnce ∧ Merging ["case"] ∧
      (∃ m, (merge lower [.obj [("case", .obj first)]]).below? ["case"] = some (.obj m) ∧
        InTurn sampleRules m ".b" ".a") ∧
      ∃ m, (merge lower [.obj [("case", .obj second)]]).below? ["case"] = some (.obj m) ∧
        InTurn sampleRules m ".x" ".b" := by
  intro lower first second
  have hlower : lower.KeysOnce := Json.keysOnce_of_distinct_eq rfl
  have hfirst : (Json.obj [("case", .obj first)]).KeysOnce := Json.keysOnce_of_distinct_eq rfl
  have hsecond : (Json.obj [("case", .obj second)]).KeysOnce := Json.keysOnce_of_distinct_eq rfl
  have hmerging : Merging ["case"] := by unfold Merging; decide
  refine ⟨hlower, hmerging, ?_, ?_⟩
  · obtain ⟨m, hm, hpairs⟩ := merge_untouched_order hlower hfirst hmerging rfl rfl
    exact ⟨m, hm, (hpairs ".a" ".b" (by decide) rfl rfl).2 (by decide)⟩
  · obtain ⟨m, hm, hpairs⟩ := merge_untouched_order hlower hsecond hmerging rfl rfl
    exact ⟨m, hm, (hpairs ".x" ".b" (by decide) rfl rfl).1 (by decide)⟩

/-- Two rules that the upper layer does not mention change places. -/
theorem merge_swaps_untouched_rules :
    let upper : Fields := [(".x", .str "Y")]
    let m : Fields := [(".b", .str "B"), (".a", .str "A"), (".x", .str "Y")]
    upper.get? ".a" = none ∧ upper.get? ".b" = none ∧
      merge (.obj [("case", .obj sampleRules)]) [.obj [("case", .obj upper)]] =
        .obj [("case", .obj m)] ∧
      sampleRules.Precedes ".a" ".b" ∧ ¬ m.Precedes ".a" ".b" :=
  ⟨rfl, rfl, rfl, by decide, by decide⟩

end Layers

end SiteScrape
