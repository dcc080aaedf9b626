import SiteScrape.Proofs.KeyPaths
import SiteScrape.Proofs.PathUpdates

/-!
# Writing and taking out at paths of keys

Two paths of keys are apart when neither leads on from the other (`Apart`). A
write at one leaves what is at the other (`get?_set_ofKeys`), and so does taking
a value out (`remove?_ofKeys`), although the entries around it change places.
-/

namespace SiteScrape

open Json (KeysOnce)

/-- Neither path leads on from the other. -/
def Apart (p q : List String) : Prop := ¬ p <+: q ∧ ¬ q <+: p

variable {p q : List String} {k j : String} {v w : Json}

theorem Apart.symm (h : Apart p q) : Apart q p := ⟨h.2, h.1⟩

theorem Apart.ne_nil (h : Apart p q) : p ≠ [] := fun hp => h.1 (hp ▸ List.nil_prefix)

theorem apart_cons_self : Apart (k :: p) (k :: q) ↔ Apart p q := by
  simp [Apart, List.cons_prefix_cons]

/-- Paths that are apart go one way up to a key where they part. -/
theorem Apart.exists_parting (h : Apart p q) :
    ∃ c k p' j q', p = c ++ k :: p' ∧ q = c ++ j :: q' ∧ k ≠ j := by
  induction p generalizing q with
  | nil => exact absurd rfl h.ne_nil
  | cons k p ih =>
    cases q with
    | nil => exact absurd rfl h.symm.ne_nil
    | cons j q =>
      by_cases hk : k = j
      · subst hk
        obtain ⟨c, k', p', j', q', rfl, rfl, hne⟩ := ih (apart_cons_self.mp h)
        exact ⟨k :: c, k', p', j', q', rfl, rfl, hne⟩
      · exact ⟨[], k, p, j, q, rfl, rfl, hk⟩

namespace Json

theorem KeysOnce.entries (h : v.KeysOnce) : Assoc.KeysOnce v.entries := by
  cases v with
  | obj m => exact h.fields
  | null | bool | num | str | arr => exact Assoc.keysOnce_nil

theorem KeysOnce.of_entries (h : v.KeysOnce) (hw : v.entries.get? k = some w) : w.KeysOnce := by
  cases v with
  | obj m => exact h.get? hw
  | null | bool | num | str | arr => cases hw

end Json

namespace Path

/-- A path of keys. -/
def ofKeys (names : List String) : Path := names.map .key

@[simp] theorem ofKeys_nil : ofKeys [] = [] := rfl

@[simp] theorem ofKeys_cons (k : String) (p : List String) :
    ofKeys (k :: p) = .key k :: ofKeys p := rfl

@[simp] theorem ofKeys_append (p q : List String) : ofKeys (p ++ q) = ofKeys p ++ ofKeys q :=
  List.map_append

theorem ofKeys_ne_nil (h : p ≠ []) : ofKeys p ≠ [] := by simpa [ofKeys] using h

/-- Down a path of keys a write goes into objects. -/
theorem leads_ofKeys_iff : Leads (ofKeys p) v ↔
    ∀ c k, c ++ [k] <+: p → ∀ w, get? (ofKeys c) v = some w → w = .null ∨ ∃ m, w = .obj m := by
  constructor
  · intro h c k hc w hw
    refine (h (ofKeys c) (.key k) ?_ w hw).imp_right fun henters => ?_
    · simpa [ofKeys] using hc.map Segment.key
    · cases henters with | object _ m => exact ⟨m, rfl⟩
  · intro h c s hc w hw
    obtain ⟨names, hnames, heq⟩ := List.prefix_map_iff.mp hc
    obtain ⟨c', last, rfl, rfl, hlast⟩ := List.append_eq_map_iff.mp heq
    obtain ⟨k, rfl, rfl⟩ := List.map_eq_singleton_iff.mp hlast
    refine (h c' k hnames w hw).imp_right fun ⟨m, hm⟩ => hm ▸ .object k m

/-- What lies below through objects alone is found. -/
theorem get?_of_below? (h : v.below? p = some w) : get? (ofKeys p) v = some w := by
  induction p generalizing v with
  | nil => exact h
  | cons k p ih =>
    obtain ⟨u, hu, hrest⟩ := Option.bind_eq_some_iff.mp h
    obtain ⟨m, rfl, hget⟩ := Json.exists_obj_of_field? hu
    rw [ofKeys_cons, get?_cons, step?, hget]
    exact ih hrest

/-- Down to what lies below through objects there are objects. -/
theorem exists_obj_of_prefix {c : List String} (h : v.below? p = some w) (hc : c <+: p)
    (hne : c ≠ p) : ∃ m, v.below? c = some (.obj m) := by
  induction c generalizing p v with
  | nil =>
    obtain ⟨k, p, rfl⟩ := List.exists_cons_of_ne_nil hne.symm
    obtain ⟨u, hu, -⟩ := Option.bind_eq_some_iff.mp h
    obtain ⟨m, rfl, -⟩ := Json.exists_obj_of_field? hu
    exact ⟨m, rfl⟩
  | cons k c ih =>
    obtain ⟨rest, rfl⟩ := hc
    obtain ⟨u, hu, hbelow⟩ := Option.bind_eq_some_iff.mp h
    obtain ⟨m, hm⟩ := ih hbelow (List.prefix_append c rest) fun heq =>
      hne (congrArg (k :: ·) heq)
    exact ⟨m, by rw [Json.below?_cons, hu, Option.bind_some, hm]⟩

theorem Leads.of_prefix {p q : Path} (h : Leads q v) (hp : p <+: q) : Leads p v :=
  fun c s hc => h c s (hc.trans hp)

/-- A write at a path of keys changes nothing at paths that are apart from it. -/
theorem get?_set_ofKeys (h : Apart p q) (hleads : Leads (ofKeys p) v) (w : Json) :
    get? (ofKeys q) (set (ofKeys p) v w) = get? (ofKeys q) v := by
  obtain ⟨c, k, p', j, q', rfl, rfl, hne⟩ := h.exists_parting
  rw [ofKeys_append, ofKeys_append, ofKeys_cons, ofKeys_cons] at *
  refine (get?_set_of_parts (s := .key k) (t := .key j) hne (hleads.of_prefix ?_) _ _ w).trans ?_
  · exact ⟨ofKeys p', by simp⟩
  · rfl

/-- A way that leads through objects does so still where nothing new stands apart
from another path, and that path has objects on its way. -/
theorem Leads.of_apart {x y : Json} (h : Leads (ofKeys q) x) (hapart : Apart p q)
    (hway : ∀ c, c <+: p → c ≠ p → ∃ m, y.below? c = some (.obj m))
    (hkept : ∀ c u, Apart p c → get? (ofKeys c) y = some u → get? (ofKeys c) x = some u) :
    Leads (ofKeys q) y := by
  rw [leads_ofKeys_iff] at h ⊢
  intro c k hc u hu
  have hcq : c <+: q := (List.prefix_append c [k]).trans hc
  by_cases hcp : c <+: p
  · obtain ⟨m, hm⟩ := hway c hcp fun heq => hapart.1 (heq ▸ hcq)
    rw [get?_of_below? hm] at hu
    exact .inr ⟨m, (Option.some.inj hu).symm⟩
  · exact h c k hc u (hkept c u ⟨fun hpc => hapart.1 (hpc.trans hcq), hcp⟩ hu)

/-- A write at a path of keys makes objects on the way. -/
theorem below?_set (p : List String) (v w : Json) : (set (ofKeys p) v w).below? p = some w := by
  induction p generalizing v with
  | nil => rfl
  | cons k p ih =>
    rw [ofKeys_cons, set_key, Json.below?_cons, Json.field?_obj, Assoc.get?_insert, if_pos rfl,
      Option.bind_some, ih]

theorem keysOnce_set (hv : v.KeysOnce) (hw : w.KeysOnce) (p : List String) :
    (set (ofKeys p) v w).KeysOnce := by
  induction p generalizing v with
  | nil => exact hw
  | cons k p ih =>
    rw [ofKeys_cons, set_key]
    refine Json.keysOnce_obj (hv.entries.insert _ _) fun key u hu => ?_
    rw [Assoc.get?_insert] at hu
    split at hu
    · cases hu
      refine ih ?_
      show ((v.entries.get? k).getD .null).KeysOnce
      cases hk : v.entries.get? k with
      | none => exact Json.keysOnce_of_not_object rfl
      | some u => exact hv.of_entries hk
    · exact hv.of_entries hu

/-- Taking out an entry of an object leaves the others. -/
theorem exists_remove?_key {m : Fields} (hm : m.KeysOnce) (hget : m.get? k = some w) :
    ∃ others : Fields, remove? (ofKeys [k]) (.obj m) = some (w, .obj others) ∧
      ∀ j, others.get? j = if k = j then none else m.get? j := by
  obtain ⟨⟨u, others⟩, htake⟩ : ∃ taken, m.take? k = some taken :=
    Option.ne_none_iff_exists'.mp fun hnone => by
      rw [Assoc.take?_eq_none_iff.mp hnone] at hget
      cases hget
  obtain ⟨-, hget', hothers⟩ := hm.take? htake
  obtain rfl : u = w := Option.some.inj (hget'.symm.trans hget)
  exact ⟨others, by simp [remove?, Json.asObject?, htake], hothers⟩

/-- Taking out what is below objects: nothing is left at the path, there are
still objects on the way, and at paths that are apart all is as it was. -/
theorem remove?_ofKeys (hv : v.KeysOnce) (hw : v.below? p = some w) (hp : p ≠ []) :
    ∃ rest, remove? (ofKeys p) v = some (w, rest) ∧ get? (ofKeys p) rest = none ∧
      (∀ c, c <+: p → c ≠ p → ∃ m, rest.below? c = some (.obj m)) ∧
      ∀ q, Apart p q → get? (ofKeys q) rest = get? (ofKeys q) v := by
  induction p generalizing v with
  | nil => exact absurd rfl hp
  | cons k p ih =>
    obtain ⟨u, hu, hbelow⟩ := Option.bind_eq_some_iff.mp hw
    obtain ⟨m, rfl, hget⟩ := Json.exists_obj_of_field? hu
    by_cases hp : p = []
    · subst hp
      obtain rfl : u = w := Option.some.inj hbelow
      obtain ⟨others, hrest, hothers⟩ := exists_remove?_key hv.fields hget
      refine ⟨.obj others, hrest, by simp [step?, hothers], fun c hc hne => ?_, fun q hq => ?_⟩
      · obtain rfl : c = [] := by
          rcases List.prefix_cons_iff.mp hc with rfl | ⟨c', rfl, hc'⟩
          · rfl
          · exact absurd (by rw [List.prefix_nil.mp hc']) hne
        exact ⟨others, rfl⟩
      · obtain ⟨j, q, rfl⟩ := List.exists_cons_of_ne_nil hq.symm.ne_nil
        have hkj : k ≠ j := fun h => hq.1 (by simp [h])
        simp [step?, hothers, hkj]
    · obtain ⟨rest, hrest, hgone, hway, hkept⟩ := ih (hv.get? hget) hbelow hp
      have htaken : remove? (ofKeys (k :: p)) (.obj m) = some (w, .obj (m.insert k rest)) := by
        rw [ofKeys_cons, remove?_key_cons k (ofKeys_ne_nil hp), hget, Option.bind_some, hrest]
        rfl
      refine ⟨.obj (m.insert k rest), htaken, ?_, fun c hc hne => ?_, fun q hq => ?_⟩
      · rw [ofKeys_cons, get?_cons, step?, Assoc.get?_insert, if_pos rfl]
        exact hgone
      · rcases List.prefix_cons_iff.mp hc with rfl | ⟨c', rfl, hc'⟩
        · exact ⟨_, rfl⟩
        · obtain ⟨m', hm'⟩ := hway c' hc' fun h => hne (h ▸ rfl)
          exact ⟨m', by simp [Assoc.get?_insert, hm']⟩
      · obtain ⟨j, q, rfl⟩ := List.exists_cons_of_ne_nil hq.symm.ne_nil
        by_cases hkj : k = j
        · subst hkj
          simp [step?, Assoc.get?_insert, hget, hkept q (apart_cons_self.mp hq)]
        · simp [step?, Assoc.get?_insert, hkj]

/-- What is taken out at a path of keys and written at one apart from it is gone
where it was, and moves nothing else. -/
theorem exists_moved (hv : v.KeysOnce) (hw : v.below? p = some w) (hapart : Apart p q)
    (hleads : Leads (ofKeys q) v) : ∃ rest, remove? (ofKeys p) v = some (w, rest) ∧
      get? (ofKeys p) (set (ofKeys q) rest w) = none ∧
      ∀ c, Apart p c → Apart q c → get? (ofKeys c) (set (ofKeys q) rest w) = get? (ofKeys c) v := by
  obtain ⟨rest, hrest, hgone, hway, hkept⟩ := remove?_ofKeys hv hw hapart.ne_nil
  have hleads : Leads (ofKeys q) rest :=
    hleads.of_apart hapart hway fun c u hc hu => hkept c hc ▸ hu
  refine ⟨rest, hrest, ?_, fun c hpc hqc => ?_⟩
  · rw [get?_set_ofKeys hapart.symm hleads, hgone]
  · rw [get?_set_ofKeys hqc hleads, hkept c hpc]

end Path

end SiteScrape
