import SiteScrape.Proofs.KeysOnce
import SiteScrape.Json.Path

/-!
# Values after a write at a path

A write leaves the written value at its path (`get?_set`), nothing of an earlier
write there (`set_set`), and at a path that parts from its own what was there
before (`get?_append_set`, `step?_set_of_parts`). The last holds where the way
down to the parting leads through values of the right kind (`Leads`); a write
replaces others. The slots that an array grows over hold null.
-/

namespace SiteScrape

namespace Assoc

variable {α : Type}

theorem insert_insert (m : Assoc α) (key : String) (v w : α) :
    (m.insert key v).insert key w = m.insert key w := by
  induction m with
  | nil => simp [insert]
  | cons p rest ih =>
    obtain ⟨k, u⟩ := p
    by_cases hk : k = key
    · simp [insert, hk]
    · simp [insert, hk, ih]

end Assoc

namespace Segment

/-- A key goes into an object, an index into an array. -/
inductive Enters : Segment → Json → Prop where
  | object (name : String) (fields : Fields) : Enters (.key name) (.obj fields)
  | array (i : Nat) (items : List Json) : Enters (.index i) (.arr items)

/-- Two different keys, or two different indices. -/
def Parts : Segment → Segment → Prop
  | .key name, .key other => name ≠ other
  | .index i, .index j => i ≠ j
  | _, _ => False

end Segment

/-- The items of an array; other values have none. -/
def Json.items (v : Json) : List Json := v.asArray?.getD []

namespace Path

variable {s t : Segment} {p q : Path} {v w : Json}

@[simp] theorem get?_nil (v : Json) : get? [] v = some v := rfl

@[simp] theorem get?_cons (s : Segment) (p : Path) (v : Json) :
    get? (s :: p) v = (step? v s).bind (get? p) := rfl

theorem get?_append (p q : Path) (v : Json) : get? (p ++ q) v = (get? p v).bind (get? q) := by
  induction p generalizing v with
  | nil => rfl
  | cons s p ih =>
    simp only [List.cons_append, get?_cons, Option.bind_assoc]
    exact congrArg _ (funext ih)

/-- Nothing lies below null. -/
theorem get?_null (h : p ≠ []) : get? p .null = none := by
  cases p with
  | nil => exact absurd rfl h
  | cons s p => cases s <;> rfl

/-- Below nothing there is what lies below null. -/
theorem bind_get? (h : p ≠ []) (o : Option Json) : o.bind (get? p) = get? p (o.getD .null) := by
  cases o with
  | none => exact (get?_null h).symm
  | some v => rfl

/-! ### One segment -/

/-- The value that a write goes on with below a segment. -/
def below (v : Json) : Segment → Json
  | .key name => (v.entries.get? name).getD .null
  | .index i => v.items[i]?.getD .null

/-- A write at the first index makes an array with a slot at the second. -/
def growsOver (v : Json) : Segment → Segment → Bool
  | .index i, .index j => v.items.length ≤ j && j < i
  | _, _ => false

theorem below_eq (h : v = .null ∨ s.Enters v) : below v s = (step? v s).getD .null := by
  rcases h with rfl | h
  · cases s <;> rfl
  · cases h <;> rfl

theorem getElem?_grow (items : List Json) (i j : Nat) :
    (grow items i)[j]? =
      if j < items.length then items[j]? else if j ≤ i then some .null else none := by
  by_cases hj : j < items.length
  · rw [grow, List.getElem?_append_left hj, if_pos hj]
  · rw [grow, List.getElem?_append_right (by omega), List.getElem?_replicate]
    by_cases hi : j ≤ i
    · simp [hj, hi, show j - items.length < i + 1 - items.length by omega]
    · simp [hj, hi, show ¬ j - items.length < i + 1 - items.length by omega]

theorem lt_length_grow (items : List Json) (i : Nat) : i < (grow items i).length := by
  simp only [grow, List.length_append, List.length_replicate]
  omega

theorem grow_of_lt {items : List Json} {i : Nat} (h : i < items.length) : grow items i = items := by
  rw [grow, Nat.sub_eq_zero_of_le h, List.replicate_zero, List.append_nil]

theorem getD_grow (items : List Json) (i : Nat) :
    (grow items i)[i]?.getD .null = items[i]?.getD .null := by
  rw [getElem?_grow]
  by_cases hi : i < items.length <;> simp [hi]

theorem set_key (name : String) (p : Path) (v w : Json) :
    set (.key name :: p) v w =
      .obj (v.entries.insert name (set p (below v (.key name)) w)) := rfl

theorem set_index (i : Nat) (p : Path) (v w : Json) :
    set (.index i :: p) v w =
      .arr ((grow v.items i).set i (set p (below v (.index i)) w)) := by
  rw [set, getD_grow]
  rfl

/-- At the first segment of its path stands what a write makes of the value below. -/
theorem step?_set (s : Segment) (p : Path) (v w : Json) :
    step? (set (s :: p) v w) s = some (set p (below v s) w) := by
  cases s with
  | key name => rw [set_key, step?, Assoc.get?_insert, if_pos rfl]
  | index i => rw [set_index, step?, List.getElem?_set_self (lt_length_grow _ i)]

theorem below_set (s : Segment) (p : Path) (v w : Json) :
    below (set (s :: p) v w) s = set p (below v s) w := by
  have hstep := step?_set s p v w
  cases s with
  | key name =>
    rw [below_eq (.inr (set_key name p v w ▸ .object name _)), hstep, Option.getD_some]
  | index i =>
    rw [below_eq (.inr (set_index i p v w ▸ .array i _)), hstep, Option.getD_some]

/-- Elsewhere a write changes nothing, unless it makes an array grow. -/
theorem step?_set_of_parts (h : s.Parts t) (hv : v = .null ∨ s.Enters v) (p : Path) (w : Json) :
    step? (set (s :: p) v w) t = if growsOver v s t then some .null else step? v t := by
  cases s with
  | key name =>
    cases t with
    | index j => exact h.elim
    | key other =>
      rw [set_key, step?, Assoc.get?_insert, if_neg h]
      rcases hv with rfl | hv
      · rfl
      · cases hv; rfl
  | index i =>
    cases t with
    | key other => exact h.elim
    | index j =>
      -- null is overwritten as an array without items would be
      have hstep : step? v (.index j) = v.items[j]? := by
        rcases hv with rfl | hv
        · rfl
        · cases hv; rfl
      have hne : i ≠ j := h
      rw [set_index, hstep]
      simp only [step?, List.getElem?_set_ne hne, getElem?_grow, growsOver]
      by_cases hj : j < v.items.length
      · simp [hj, show ¬ v.items.length ≤ j by omega]
      · by_cases hi : j < i
        · simp [hi, show v.items.length ≤ j by omega, show j ≤ i by omega]
        · simp [hi, show ¬ j ≤ i by omega, show v.items.length ≤ j by omega]

/-! ### Whole paths -/

/-- What is written stands at the path. -/
theorem get?_set (p : Path) (v w : Json) : get? p (set p v w) = some w := by
  induction p generalizing v with
  | nil => rfl
  | cons s p ih => rw [get?_cons, step?_set, Option.bind_some, ih]

/-- The later of two writes counts. -/
theorem set_set (p : Path) (v w u : Json) : set p (set p v w) u = set p v u := by
  induction p generalizing v with
  | nil => rfl
  | cons s p ih =>
    have hbelow : set p (below (set (s :: p) v w) s) u = set p (below v s) u := by
      rw [below_set, ih]
    cases s with
    | key name =>
      rw [set_key, hbelow, set_key, set_key]
      exact congrArg Json.obj (Assoc.insert_insert ..)
    | index i =>
      have hlength : i < ((grow v.items i).set i
          (set p (below v (.index i)) w)).length := by
        rw [List.length_set]
        exact lt_length_grow _ i
      rw [set_index, hbelow, set_index, set_index]
      show Json.arr ((grow (List.set _ i _) i).set i _) = _
      rw [grow_of_lt hlength, List.set_set]

/-- Every value that the path goes into is of the kind that it goes into there;
a write makes one of null, or of nothing. -/
def Leads (p : Path) (v : Json) : Prop :=
  ∀ c s, c ++ [s] <+: p → ∀ w, get? c v = some w → w = .null ∨ s.Enters w

theorem Leads.head (h : Leads (s :: p) v) : v = .null ∨ s.Enters v :=
  h [] s (List.cons_prefix_cons.mpr ⟨rfl, List.nil_prefix⟩) v rfl

theorem Leads.tail (h : Leads (s :: p) v) : Leads p (below v s) := by
  intro c t hc w hw
  rw [below_eq h.head] at hw
  cases hstep : step? v s with
  | none =>
    rw [hstep, Option.getD_none] at hw
    cases c with
    | nil => exact .inl (Option.some.inj hw).symm
    | cons => rw [get?_null (by simp)] at hw; cases hw
  | some u =>
    rw [hstep, Option.getD_some] at hw
    exact h (s :: c) t (List.cons_prefix_cons.mpr ⟨rfl, hc⟩) w (by rw [get?_cons, hstep]; exact hw)

theorem leads_nil (v : Json) : Leads [] v := by
  intro c s hc
  simp at hc

theorem leads_cons (hv : v = .null ∨ s.Enters v) (h : Leads p (below v s)) : Leads (s :: p) v := by
  intro c t hc w hw
  cases c with
  | nil =>
    obtain ⟨rfl, -⟩ := List.cons_prefix_cons.mp hc
    cases hw
    exact hv
  | cons x c =>
    obtain ⟨rfl, hrest⟩ := List.cons_prefix_cons.mp hc
    obtain ⟨u, hu, hw⟩ := Option.bind_eq_some_iff.mp hw
    refine h c t hrest w ?_
    rw [below_eq hv, hu]
    exact hw

/-- Down to where a path parts from that of a write, the write changes nothing. -/
theorem get?_append_set {c : Path} (h : Leads (c ++ [s]) v) (t : Segment) (p q : Path) (w : Json) :
    get? (c ++ t :: q) (set (c ++ s :: p) v w) =
      get? (t :: q) (set (s :: p) ((get? c v).getD .null) w) := by
  induction c generalizing v with
  | nil => rfl
  | cons x c ih =>
    have hnode : (get? (x :: c) v).getD .null = (get? c (below v x)).getD .null := by
      rw [below_eq h.head, get?_cons]
      cases step? v x with
      | some u => rfl
      | none =>
        cases c with
        | nil => rfl
        | cons y c => rw [Option.getD_none, get?_null (List.cons_ne_nil y c)]; rfl
    simp only [List.cons_append] at h ⊢
    rw [get?_cons, step?_set, Option.bind_some, ih h.tail, hnode]

/-- At a path that parts from that of a write stands what stood there, or null
where the write made an array grow. -/
theorem get?_set_of_parts {c : Path} (hst : s.Parts t) (h : Leads (c ++ [s]) v) (p q : Path)
    (w : Json) :
    get? (c ++ t :: q) (set (c ++ s :: p) v w) =
      if growsOver ((get? c v).getD .null) s t then (if q = [] then some .null else none)
      else get? (c ++ t :: q) v := by
  have hnode : (get? c v).getD .null = .null ∨ s.Enters ((get? c v).getD .null) := by
    cases hc : get? c v with
    | none => exact .inl rfl
    | some u => exact h c s (List.prefix_refl _) u hc
  rw [get?_append_set h, get?_cons, step?_set_of_parts hst hnode, get?_append,
    bind_get? (List.cons_ne_nil t q), get?_cons]
  split
  · by_cases hq : q = []
    · rw [if_pos hq, hq]; rfl
    · rw [if_neg hq, Option.bind_some, get?_null hq]
  · rfl

/-- Nothing stands where an array is still to grow. -/
theorem get?_of_growsOver {c : Path} (h : growsOver ((get? c v).getD .null) s t = true)
    (q : Path) : get? (c ++ t :: q) v = none := by
  rw [get?_append, bind_get? (List.cons_ne_nil t q), get?_cons]
  generalize (get? c v).getD .null = u at h ⊢
  cases s with
  | key => cases h
  | index i =>
    cases t with
    | key => cases h
    | index j =>
      simp only [growsOver, Bool.and_eq_true, decide_eq_true_eq] at h
      cases u with
      | arr items =>
        have hnone : items[j]? = none := List.getElem?_eq_none h.1
        rw [step?, hnone, Option.bind_none]
      | null | bool | num | str | obj => rfl

/-! ### Taking out below an entry -/

theorem remove?_key_cons (name : String) (hp : p ≠ []) (fields : Fields) :
    remove? (.key name :: p) (.obj fields) = (fields.get? name).bind fun w =>
      (remove? p w).map fun taken => (taken.1, .obj (fields.insert name taken.2)) := by
  cases p with
  | nil => exact absurd rfl hp
  | cons s p =>
    simp only [remove?, Json.asObject?, Option.bind_eq_bind, Option.bind_some]
    cases fields.get? name with
    | none => rfl
    | some w => cases hw : remove? (s :: p) w <;> simp [hw]

theorem remove?_index_cons (i : Nat) (hp : p ≠ []) (items : List Json) :
    remove? (.index i :: p) (.arr items) = (items[i]?).bind fun w =>
      (remove? p w).map fun taken => (taken.1, .arr (items.set i taken.2)) := by
  cases p with
  | nil => exact absurd rfl hp
  | cons s p =>
    simp only [remove?, Json.asArray?, Option.bind_eq_bind, Option.bind_some]
    cases items[i]? with
    | none => rfl
    | some w => cases hw : remove? (s :: p) w <;> simp [hw]

end Path

namespace Json

open SiteScrape.Path in
/-- Three laws of a write at the path that a text spells: the value is found there;
a second write leaves nothing of the first; and a path that parts from it at a
key or an index, where the way down to there is as both paths take it, leads to
what it led to before. The only exception are slots that an array grows over,
where nothing stood: they hold null. -/
theorem setAt_lens (root : Json) (p : String) (v w : Json) :
    (root.setAt p v).at? p = some v ∧ (root.setAt p v).setAt p w = root.setAt p w ∧
      ∀ (q : String) (way written read : Path) (s t : Segment),
        ofText p = way ++ s :: written → ofText q = way ++ t :: read → s.Parts t →
        Leads (way ++ [s]) root →
        (growsOver ((get? way root).getD .null) s t = false →
          (root.setAt p v).at? q = root.at? q) ∧
        (growsOver ((get? way root).getD .null) s t = true → root.at? q = none ∧
          (root.setAt p v).at? q = if read = [] then some .null else none) := by
  refine ⟨get?_set _ root v, set_set _ root v w, ?_⟩
  intro q way written read s t hp hq hst hleads
  have hread := get?_set_of_parts hst hleads written read v
  unfold setAt at?
  rw [hp, hq]
  refine ⟨fun hgrows => ?_, fun hgrows => ⟨get?_of_growsOver hgrows read, ?_⟩⟩
  · rwa [hgrows, if_neg Bool.false_ne_true] at hread
  · rwa [hgrows, if_pos rfl] at hread

/-- A write behind the end of an array: the item that was there stays, and the
slot in between holds null. -/
theorem setAt_lens_of_list :
    let root : Json := .obj [("data", .obj [("list", .arr [.bool true])])]
    let way : Path := [.key "data", .key "list"]
    Path.ofText "data.list[2]" = way ++ [.index 2] ∧
      Path.ofText "data['list'][0]" = way ++ [.index 0] ∧
      Path.ofText "data.list[1]" = way ++ [.index 1] ∧ Path.Leads (way ++ [.index 2]) root ∧
      (root.setAt "data.list[2]" .null).at? "data['list'][0]" = some (.bool true) ∧
      root.at? "data.list[1]" = none ∧
      (root.setAt "data.list[2]" (.str "x")).at? "data.list[1]" = some .null := by
  intro root way
  have htwo : Path.ofText "data.list[2]" = way ++ [.index 2] := by decide
  have hzero : Path.ofText "data['list'][0]" = way ++ [.index 0] := by decide
  have hone : Path.ofText "data.list[1]" = way ++ [.index 1] := by decide
  have hleads : Path.Leads (way ++ [.index 2]) root :=
    Path.leads_cons (.inr (.object ..)) (Path.leads_cons (.inr (.object ..))
      (Path.leads_cons (.inr (.array ..)) (Path.leads_nil _)))
  obtain ⟨-, -, hparts⟩ := setAt_lens root "data.list[2]" .null .null
  obtain ⟨hkept, -⟩ := hparts _ way [] [] (.index 2) (.index 0) htwo hzero
    (show 2 ≠ 0 by decide) hleads
  obtain ⟨-, -, hparts⟩ := setAt_lens root "data.list[2]" (.str "x") .null
  obtain ⟨-, hgrown⟩ := hparts _ way [] [] (.index 2) (.index 1) htwo hone
    (show 2 ≠ 1 by decide) hleads
  exact ⟨htwo, hzero, hone, hleads, hkept rfl, hgrown rfl⟩

end Json

end SiteScrape
