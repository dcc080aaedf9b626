import SiteScrape.Proofs.LayerView
import SiteScrape.Proofs.PathUpdates

/-!
# Reading, writing and taking out at one node

A path whose keys go into objects and whose indices go into arrays (`Leads`)
names one node: writing back what is read there changes nothing (`set_self`),
and what is read there is what is taken out (`exists_remove?`). Reading alone
also lets a key that spells a number count the items of an array. Where a path
has such a key (`exists_counted`), a write puts an object with one entry in the
place of the array, and nothing is taken out.
-/

namespace SiteScrape

namespace Assoc

variable {α : Type} {m : Assoc α} {key : String} {v : α}

theorem insert_self (h : m.get? key = some v) : m.insert key v = m := by
  induction m with
  | nil => cases h
  | cons p rest ih =>
    obtain ⟨k, w⟩ := p
    by_cases hk : k = key
    · rw [get?, if_pos hk] at h
      obtain rfl := Option.some.inj h
      rw [insert, if_pos hk, hk]
    · rw [get?, if_neg hk] at h
      rw [insert, if_neg hk, ih h]

/-- The value of a pair that is taken out is the one that is found. -/
theorem get?_of_take? {others : Assoc α} (h : m.take? key = some (v, others)) :
    m.get? key = some v := by
  obtain ⟨⟨before, w, behind⟩, hsplit, heq⟩ := Option.map_eq_some_iff.mp h
  obtain rfl : w = v := by
    dsimp only at heq
    split at heq <;> exact (Prod.mk.inj heq).1
  clear h heq
  induction m generalizing before with
  | nil => cases hsplit
  | cons p rest ih =>
    obtain ⟨k, u⟩ := p
    unfold split? at hsplit
    split at hsplit
    · next hk =>
      cases hsplit
      rw [get?, if_pos hk]
    · next hk =>
      obtain ⟨⟨before', w', behind'⟩, hrest, heq⟩ := Option.map_eq_some_iff.mp hsplit
      cases heq
      rw [get?, if_neg hk, ih _ hrest]

theorem exists_take? (h : m.get? key = some v) : ∃ others, m.take? key = some (v, others) := by
  cases htake : m.take? key with
  | none => rw [take?_eq_none_iff.mp htake] at h; cases h
  | some taken =>
    obtain ⟨w, others⟩ := taken
    obtain rfl : w = v := Option.some.inj ((get?_of_take? htake).symm.trans h)
    exact ⟨others, rfl⟩

end Assoc

namespace Path

variable {s : Segment} {p way : Path} {v w x rest : Json}

/-- Where a step leads on, the segment goes into the value, or it is a key that
counts the items of an array. -/
theorem enters_or_counts (h : step? v s = some w) :
    s.Enters v ∨ ∃ name items, s = .key name ∧ v = .arr items := by
  cases s with
  | key name =>
    cases v with
    | obj fields => exact .inl (.object name fields)
    | arr items => exact .inr ⟨name, items, rfl, rfl⟩
    | null | bool | num | str => cases h
  | index i =>
    cases v with
    | arr items => exact .inl (.array i items)
    | null | bool | num | str | obj => cases h

theorem leads_cons_iff (h : step? v s = some w) : Leads (s :: p) v ↔ s.Enters v ∧ Leads p w := by
  have hnull : v ≠ .null := by
    rintro rfl
    cases s <;> cases h
  constructor
  · intro hleads
    have henters := hleads.head.resolve_left hnull
    have htail := hleads.tail
    rw [below_eq (.inr henters), h, Option.getD_some] at htail
    exact ⟨henters, htail⟩
  · rintro ⟨henters, htail⟩
    refine leads_cons (.inr henters) ?_
    rwa [below_eq (.inr henters), h, Option.getD_some]

/-- A write that changes nothing below a segment changes nothing. -/
theorem set_cons_self (henters : s.Enters v) (hstep : step? v s = some w) (h : set p w x = w) :
    set (s :: p) v x = v := by
  have hbelow : below v s = w := by rw [below_eq (.inr henters), hstep, Option.getD_some]
  cases henters with
  | object name fields =>
    rw [set_key, hbelow, h]
    exact congrArg Json.obj (Assoc.insert_self hstep)
  | array i items =>
    obtain ⟨hi, hitem⟩ := List.getElem?_eq_some_iff.mp hstep
    rw [set_index, hbelow, h]
    show Json.arr ((grow items i).set i w) = _
    rw [grow_of_lt hi, ← hitem, List.set_getElem_self]

/-- Writing back what is read changes nothing. -/
theorem set_self (h : get? p v = some x) (hleads : Leads p v) : set p v x = v := by
  induction p generalizing v with
  | nil => exact (Option.some.inj h).symm
  | cons s p ih =>
    obtain ⟨w, hstep, hget⟩ := Option.bind_eq_some_iff.mp h
    obtain ⟨henters, htail⟩ := (leads_cons_iff hstep).mp hleads
    exact set_cons_self henters hstep (ih hget htail)

/-! ### Taking out -/

/-- Taking out goes only where a segment goes into the value. -/
theorem remove?_of_not_enters (h : ¬ s.Enters v) : remove? (s :: p) v = none := by
  cases s with
  | key name =>
    cases v with
    | obj fields => exact absurd (.object name fields) h
    | null | bool | num | str | arr => cases p <;> rfl
  | index i =>
    cases v with
    | arr items => exact absurd (.array i items) h
    | null | bool | num | str | obj => cases p <;> rfl

/-- What is read is what is taken out. -/
theorem exists_remove? (hp : p ≠ []) (h : get? p v = some x) (hleads : Leads p v) :
    ∃ rest, remove? p v = some (x, rest) := by
  induction p generalizing v with
  | nil => exact absurd rfl hp
  | cons s p ih =>
    obtain ⟨w, hstep, hget⟩ := Option.bind_eq_some_iff.mp h
    obtain ⟨henters, htail⟩ := (leads_cons_iff hstep).mp hleads
    by_cases hlast : p = []
    · subst hlast
      obtain rfl := Option.some.inj hget
      cases henters with
      | object name fields =>
        obtain ⟨others, htake⟩ := Assoc.exists_take? (show fields.get? name = some w from hstep)
        exact ⟨.obj others, by simp [remove?, Json.asObject?, htake]⟩
      | array i items =>
        have hitem : items[i]? = some w := hstep
        exact ⟨.arr (items.eraseIdx i), by simp [remove?, Json.asArray?, hitem]⟩
    · obtain ⟨rest, hrest⟩ := ih hlast hget htail
      cases henters with
      | object name fields =>
        have hfield : fields.get? name = some w := hstep
        exact ⟨_, by rw [remove?_key_cons name hlast, hfield, Option.bind_some, hrest]; rfl⟩
      | array i items =>
        have hitem : items[i]? = some w := hstep
        exact ⟨_, by rw [remove?_index_cons i hlast, hitem, Option.bind_some, hrest]; rfl⟩

/-- What is taken out is read at the path, which names one node. -/
theorem get?_of_remove? (h : remove? p v = some (x, rest)) : get? p v = some x ∧ Leads p v := by
  induction p generalizing v rest with
  | nil => cases h
  | cons s p ih =>
    have henters : s.Enters v := Classical.not_not.mp fun hnot => by
      rw [remove?_of_not_enters hnot] at h
      cases h
    -- one step down stands a value, which the rest of the path leads through
    suffices ∃ w, step? v s = some w ∧ get? p w = some x ∧ Leads p w by
      obtain ⟨w, hstep, hget, hleads⟩ := this
      exact ⟨by rw [get?_cons, hstep, Option.bind_some, hget],
        (leads_cons_iff hstep).mpr ⟨henters, hleads⟩⟩
    by_cases hlast : p = []
    · subst hlast
      cases henters with
      | object name fields =>
        obtain ⟨⟨w, others⟩, htake, heq⟩ := Option.bind_eq_some_iff.mp h
        cases heq
        exact ⟨x, Assoc.get?_of_take? htake, rfl, leads_nil x⟩
      | array i items =>
        obtain ⟨w, hitem, heq⟩ := Option.bind_eq_some_iff.mp h
        cases heq
        exact ⟨x, hitem, rfl, leads_nil x⟩
    · cases henters with
      | object name fields =>
        rw [remove?_key_cons name hlast] at h
        obtain ⟨w, hfield, hmap⟩ := Option.bind_eq_some_iff.mp h
        obtain ⟨taken, htaken, heq⟩ := Option.map_eq_some_iff.mp hmap
        cases heq
        exact ⟨w, hfield, ih htaken⟩
      | array i items =>
        rw [remove?_index_cons i hlast] at h
        obtain ⟨w, hitem, hmap⟩ := Option.bind_eq_some_iff.mp h
        obtain ⟨taken, htaken, heq⟩ := Option.map_eq_some_iff.mp hmap
        cases heq
        exact ⟨w, hitem, ih htaken⟩

/-- Nothing is taken out exactly where nothing is read, or where a key counts. -/
theorem remove?_eq_none_iff (hp : p ≠ []) :
    remove? p v = none ↔ get? p v = none ∨ ¬ Leads p v := by
  constructor
  · intro hnone
    cases hget : get? p v with
    | none => exact .inl rfl
    | some x =>
      refine .inr fun hleads => ?_
      obtain ⟨rest, hrest⟩ := exists_remove? hp hget hleads
      rw [hnone] at hrest
      cases hrest
  · intro h
    cases hremove : remove? p v with
    | none => rfl
    | some taken =>
      obtain ⟨hget, hleads⟩ := get?_of_remove? hremove
      rcases h with h | h
      · rw [h] at hget; cases hget
      · exact absurd hleads h

/-! ### Keys that count -/

/-- A path that leads somewhere, but not through objects at all of its keys, has a
first key that counts the items of an array. -/
theorem exists_counted (h : get? p v = some x) (hleads : ¬ Leads p v) :
    ∃ way name below items, p = way ++ .key name :: below ∧ Leads way v ∧
      get? way v = some (.arr items) := by
  induction p generalizing v with
  | nil => exact absurd (leads_nil v) hleads
  | cons s p ih =>
    obtain ⟨w, hstep, hget⟩ := Option.bind_eq_some_iff.mp h
    rcases enters_or_counts hstep with henters | ⟨name, items, rfl, rfl⟩
    · have htail : ¬ Leads p w := fun htail => hleads ((leads_cons_iff hstep).mpr ⟨henters, htail⟩)
      obtain ⟨way, name, below, items, rfl, hway, harr⟩ := ih hget htail
      exact ⟨s :: way, name, below, items, rfl, (leads_cons_iff hstep).mpr ⟨henters, hway⟩,
        by rw [get?_cons, hstep, Option.bind_some, harr]⟩
    · exact ⟨[], name, p, items, rfl, leads_nil _, rfl⟩

/-- On its way a write stands where it writes. -/
theorem get?_prefix_set (h : get? way v = some w) (hleads : Leads way v) (p : Path) (x : Json) :
    get? way (set (way ++ p) v x) = some (set p w x) := by
  induction way generalizing v with
  | nil => rw [Option.some.inj h]; rfl
  | cons s way ih =>
    obtain ⟨u, hstep, hget⟩ := Option.bind_eq_some_iff.mp h
    obtain ⟨henters, htail⟩ := (leads_cons_iff hstep).mp hleads
    have hbelow : below v s = u := by rw [below_eq (.inr henters), hstep, Option.getD_some]
    rw [List.cons_append, get?_cons, step?_set, Option.bind_some, hbelow, ih hget htail]

end Path

namespace Json

open SiteScrape.Path in
/-- At a path where something is read: if the path leads through objects at its
keys and arrays at its indices, writing that back leaves everything as it is, and
that is what is taken out. Otherwise the path has a first key that counts the items
of an array; then writing it back leaves an object with this one key in the place
of the array, and nothing is taken out. So nothing is taken out exactly if nothing
is read or a key counts. -/
theorem setAt_removeAt?_of_at? (root : Json) (p : String) (hp : ofText p ≠ []) :
    (∀ x, root.at? p = some x → Leads (ofText p) root →
      root.setAt p x = root ∧ ∃ rest, root.removeAt? p = some (x, rest)) ∧
    (∀ x, root.at? p = some x → ¬ Leads (ofText p) root →
      root.setAt p x ≠ root ∧ root.removeAt? p = none ∧
      ∃ way name below items, ofText p = way ++ .key name :: below ∧
        get? way root = some (.arr items) ∧
        get? way (root.setAt p x) = some (.obj [(name, set below .null x)])) ∧
    (root.removeAt? p = none ↔ root.at? p = none ∨ ¬ Leads (ofText p) root) := by
  refine ⟨fun x hx hleads => ⟨set_self hx hleads, exists_remove? hp hx hleads⟩,
    fun x hx hleads => ?_, remove?_eq_none_iff hp⟩
  obtain ⟨way, name, below, items, hpath, hway, harr⟩ := exists_counted hx hleads
  have hobj : get? way (root.setAt p x) = some (.obj [(name, set below .null x)]) := by
    unfold setAt
    rw [hpath, get?_prefix_set harr hway]
    rfl
  refine ⟨fun hsame => ?_, (remove?_eq_none_iff hp).mpr (.inr hleads), way, name, below, items,
    hpath, harr, hobj⟩
  rw [hsame, harr] at hobj
  cases hobj

/-- The item at an index, written back and taken out. -/
theorem setAt_removeAt?_of_item :
    let root : Json := .obj [("rows", .arr [.str "a", .str "b"])]
    Path.ofText "rows[1]" = [.key "rows", .index 1] ∧ root.at? "rows[1]" = some (.str "b") ∧
      Path.Leads [.key "rows", .index 1] root ∧ root.setAt "rows[1]" (.str "b") = root ∧
      ∃ rest, root.removeAt? "rows[1]" = some (.str "b", rest) := by
  intro root
  have hpath : Path.ofText "rows[1]" = [.key "rows", .index 1] := by decide
  have hget : root.at? "rows[1]" = some (.str "b") := by
    unfold at?
    rw [hpath]
    rfl
  have hleads : Path.Leads [.key "rows", .index 1] root :=
    Path.leads_cons (.inr (.object ..)) (Path.leads_cons (.inr (.array ..)) (Path.leads_nil _))
  obtain ⟨hread, -, -⟩ := setAt_removeAt?_of_at? root "rows[1]" (by rw [hpath]; simp)
  exact ⟨hpath, hget, hleads, hread _ hget (hpath ▸ hleads)⟩

/-- The title of the first row is read by a key that counts; written back, it is
all that is left of the rows, and it cannot be taken out. -/
theorem setAt_of_counted_row :
    let root : Json :=
      .obj [("rows", .arr [.obj [("title", .str "a")], .obj [("title", .str "b")]])]
    Path.ofText "rows.0.title" ≠ [] ∧ root.at? "rows.0.title" = some (.str "a") ∧
      root.setAt "rows.0.title" (.str "a") =
        .obj [("rows", .obj [("0", .obj [("title", .str "a")])])] ∧
      root.setAt "rows.0.title" (.str "a") ≠ root ∧ root.removeAt? "rows.0.title" = none := by
  intro root
  have hpath : Path.ofText "rows.0.title" = [.key "rows", .key "0", .key "title"] := by decide
  have hset : root.setAt "rows.0.title" (.str "a") =
      .obj [("rows", .obj [("0", .obj [("title", .str "a")])])] := by
    unfold setAt
    rw [hpath]
    rfl
  refine ⟨by rw [hpath]; simp, ?_, hset, ?_, ?_⟩
  · unfold at?
    rw [hpath]
    rfl
  · rw [hset]
    intro hsame
    simp [root] at hsame
  · unfold removeAt?
    rw [hpath]
    rfl

end Json

end SiteScrape
