import SiteScrape.Proofs.KeyPaths

/-!
# What layers say at a path

Merged layers hold at a path of keys what the layers say there, laid over each
other from the lowest to the highest (`Gathers`); a layer with null says
nothing. Along the way every layer must have objects, and no key may have a
rule of its own. `Settled` reads off what this comes to for each kind of value.
-/

namespace SiteScrape

namespace Json

/-- Neither null nor made up of other values. -/
def isScalar : Json → Bool
  | .bool _ | .num _ | .str _ => true
  | _ => false

def isArray : Json → Bool
  | .arr _ => true
  | _ => false

/-- An object, null or nothing stands there: a way down may lead on, or not. -/
def Passable (v : Option Json) : Prop := v = none ∨ v = some .null ∨ ∃ m, v = some (.obj m)

/-- Every value on the way down is passable. -/
def Passes (v : Json) (path : List String) : Prop := ∀ p, p <+: path → Passable (v.below? p)

variable {v w : Json} {key : String} {path : List String}

theorem Passes.passable (h : v.Passes path) : Passable (some v) := h [] List.nil_prefix

theorem Passes.field? (h : v.Passes (key :: path)) (hw : v.field? key = some w) :
    w.Passes path := by
  intro p hp
  have hpass := h (key :: p) (List.cons_prefix_cons.mpr ⟨rfl, hp⟩)
  rwa [below?_cons, hw, Option.bind_some] at hpass

theorem passes_nil (h : Passable (some v)) : v.Passes [] := by
  intro p hp
  rwa [List.prefix_nil.mp hp]

theorem passes_cons (h : Passable (some v)) (hw : ∀ w, v.field? key = some w → w.Passes path) :
    v.Passes (key :: path) := by
  intro p hp
  cases p with
  | nil => exact h
  | cons k p =>
    obtain ⟨rfl, hrest⟩ := List.cons_prefix_cons.mp hp
    cases hv : v.field? k with
    | none => exact .inl (by simp [hv])
    | some w => simpa [hv] using hw w hv p hrest

end Json

namespace Layers

open Json

variable {rule : Rule} {held : List (Option Json)} {merged : Option Json} {lower upper : Json}
  {key : String} {path : List String}

/-! ### One layer over what is below -/

/-- What stands at a key when `upper` is laid over `lower`; a null that comes
with an object from above may stay. -/
def Over (rule : Rule) (lower upper merged : Option Json) : Prop :=
  merged = overlay rule lower upper ∨ lower = none ∧ upper = some .null ∧ merged = some .null

theorem over_field? (hl : lower.KeysOnce) (hu : upper.KeysOnce) (hpl : Passable (some lower))
    (hpu : Passable (some upper)) (key : String) :
    Over (.ofKey key) (lower.field? key) (upper.field? key)
      ((mergeValue .deep lower upper).field? key) := by
  obtain hnone | hnull | ⟨u, hobj⟩ := hpu
  · cases hnone
  · cases hnull
    exact .inl (by simp [Json.field?, asObject?])
  · cases hobj
    obtain hnone | hnull | ⟨l, hobj⟩ := hpl
    · cases hnone
    · cases hnull
      rw [mergeValue_eq_join (by decide) rfl (.inl rfl), join_of_ne_listed (by decide)]
      cases hv : Assoc.get? u key with
      | none => exact .inl (by simp [hv, Json.field?, asObject?])
      | some v =>
        cases v with
        | null => exact .inr ⟨rfl, hv, hv⟩
        | bool | num | str | arr | obj => exact .inl (by simp [hv]; rfl)
    · cases hobj
      rw [mergeValue_obj_obj (by decide)]
      exact .inl ((view_mergeFields hl.fields hu.fields).2 key)

theorem over_none_left (rule : Rule) (upper : Option Json) : Over rule none upper upper := by
  match upper with
  | none => exact .inl rfl
  | some .null => exact .inr ⟨rfl, rfl, rfl⟩
  | some (.bool _) | some (.num _) | some (.str _) | some (.arr _) | some (.obj _) =>
    exact .inl rfl

/-- One of the two is silent, or both speak. -/
theorem over_cases {a b c : Option Json} (h : Over rule a b c) :
    (c = a ∧ (b = none ∨ b = some .null)) ∨ (a = none ∧ c = b) ∨
      ∃ x y, a = some x ∧ b = some y ∧ c = some (mergeValue rule x y) := by
  obtain rfl | ⟨rfl, rfl, rfl⟩ := h
  · cases b with
    | none => exact .inl ⟨overlay_none rule a, .inl rfl⟩
    | some y =>
      cases a with
      | some x => exact .inr (.inr ⟨x, y, rfl, rfl, rfl⟩)
      | none =>
        cases y with
        | null => exact .inl ⟨rfl, .inr rfl⟩
        | bool | num | str | arr | obj => exact .inr (.inl ⟨rfl, rfl⟩)
  · exact .inr (.inl ⟨rfl, rfl⟩)

theorem passable_over {a b c : Option Json} (ha : Passable a) (hb : Passable b)
    (h : Over .deep a b c) : Passable c := by
  obtain ⟨rfl, -⟩ | ⟨-, rfl⟩ | ⟨x, y, rfl, rfl, rfl⟩ := over_cases h
  · exact ha
  · exact hb
  · obtain hnone | hnull | ⟨u, hobj⟩ := hb
    · cases hnone
    · cases hnull
      simpa using ha
    · cases hobj
      obtain hnone | hnull | ⟨l, hobj⟩ := ha
      · cases hnone
      · cases hnull
        rw [mergeValue_eq_join (by decide) rfl (.inl rfl), join_of_ne_listed (by decide)]
        exact .inr (.inr ⟨u, rfl⟩)
      · cases hobj
        rw [mergeValue_obj_obj (by decide)]
        exact .inr (.inr ⟨_, rfl⟩)

/-- Down a path of keys without rules of their own, what stands at the end is
what the two layers have there. -/
theorem over_below? (hdeep : ∀ k ∈ path, Rule.ofKey k = .deep) (hl : lower.KeysOnce)
    (hu : upper.KeysOnce) (hpl : lower.Passes path) (hpu : upper.Passes path) (key : String) :
    Over (.ofKey key) (lower.below? (path ++ [key])) (upper.below? (path ++ [key]))
      ((mergeValue .deep lower upper).below? (path ++ [key])) := by
  induction path generalizing lower upper with
  | nil => simpa using over_field? hl hu hpl.passable hpu.passable key
  | cons k path ih =>
    obtain ⟨hk, hdeep⟩ := List.forall_mem_cons.mp hdeep
    have hover := over_field? hl hu hpl.passable hpu.passable k
    rw [hk] at hover
    simp only [List.cons_append, below?_cons]
    obtain ⟨hc, hb⟩ | ⟨ha, hc⟩ | ⟨x, y, ha, hb, hc⟩ := over_cases hover
    · -- what is silent at a key is silent below it
      have hnone : ((upper.field? k).bind fun w => w.below? (path ++ [key])) = none := by
        rcases hb with hb | hb <;> rw [hb]
        · rfl
        · cases path <;> rfl
      rw [hc, hnone]
      exact .inl (overlay_none _ _).symm
    · rw [ha, hc]
      exact over_none_left _ _
    · rw [ha, hb, hc]
      exact ih hdeep (hl.field? ha) (hu.field? hb) (hpl.field? ha) (hpu.field? hb)

theorem passes_mergeValue (hdeep : ∀ k ∈ path, Rule.ofKey k = .deep) (hl : lower.KeysOnce)
    (hu : upper.KeysOnce) (hpl : lower.Passes path) (hpu : upper.Passes path) :
    (mergeValue .deep lower upper).Passes path := by
  intro p hp
  rcases List.eq_nil_or_concat p with rfl | ⟨q, k, rfl⟩
  · exact passable_over hpl.passable hpu.passable (.inl rfl)
  · rw [List.concat_eq_append] at hp ⊢
    have hq : q <+: path := (List.prefix_append q [k]).trans hp
    have hover := over_below? (fun k' hk' => hdeep k' (hq.subset hk')) hl hu
      (fun p' hp' => hpl p' (hp'.trans hq)) (fun p' hp' => hpu p' (hp'.trans hq)) k
    rw [hdeep k (hp.subset (by simp))] at hover
    exact passable_over (hpl _ hp) (hpu _ hp) hover

/-! ### All layers together -/

/-- What layers say where they hold these values: null says nothing. -/
def spoken (held : List (Option Json)) : List Json :=
  held.filterMap fun v => v.filter fun w => !w.isNull

@[simp] theorem spoken_nil : spoken [] = [] := rfl

@[simp] theorem spoken_append (held held' : List (Option Json)) :
    spoken (held ++ held') = spoken held ++ spoken held' := List.filterMap_append

@[simp] theorem spoken_none (rest : List (Option Json)) : spoken (none :: rest) = spoken rest := rfl

@[simp] theorem spoken_null (rest : List (Option Json)) :
    spoken (some .null :: rest) = spoken rest := rfl

@[simp] theorem spoken_some {v : Json} (h : v.isNull = false) (rest : List (Option Json)) :
    spoken (some v :: rest) = v :: spoken rest := by
  simp [spoken, Option.filter, h]

theorem isNull_of_mem_spoken {v : Json} (h : v ∈ spoken held) : v.isNull = false := by
  obtain ⟨o, -, ho⟩ := List.mem_filterMap.mp h
  simpa using (Option.filter_eq_some_iff.mp ho).2

/-- Values laid over each other, the lowest first. -/
def together (rule : Rule) : List Json → Option Json
  | [] => none
  | v :: rest => some (rest.foldl (mergeValue rule) v)

/-- What the values held by the layers at one place make up, the lowest first:
the lowest that says something, perhaps with null below it, and all the others
over it. -/
inductive Gathers (rule : Rule) : List (Option Json) → Option Json → Prop where
  | silent {held : List (Option Json)} {merged : Option Json} (h : spoken held = [])
      (hm : merged = none ∨ merged = some .null ∧ some .null ∈ held) : Gathers rule held merged
  | speaks {before after : List (Option Json)} {v first : Json} (hbefore : spoken before = [])
      (hv : v.isNull = false)
      (hfirst : first = v ∨ first = mergeValue rule .null v ∧ some .null ∈ before) :
      Gathers rule (before ++ some v :: after)
        (some ((spoken after).foldl (mergeValue rule) first))

/-- One more layer on top. -/
theorem Gathers.over {upper merged' : Option Json} (h : Gathers rule held merged)
    (ho : Over rule merged upper merged') : Gathers rule (held ++ [upper]) merged' := by
  cases h with
  | silent h hm =>
    obtain ⟨rfl, hu⟩ | ⟨rfl, rfl⟩ | ⟨x, y, rfl, rfl, rfl⟩ := over_cases ho
    · refine .silent ?_ (hm.imp_right fun ⟨hm, hmem⟩ => ⟨hm, List.mem_append_left _ hmem⟩)
      rcases hu with rfl | rfl <;> simp [h]
    · match merged' with
      | none => exact .silent (by simp [h]) (.inl rfl)
      | some .null => exact .silent (by simp [h]) (.inr ⟨rfl, by simp⟩)
      | some (.bool _) | some (.num _) | some (.str _) | some (.arr _) | some (.obj _) =>
        exact .speaks h rfl (.inl rfl)
    · obtain hm | ⟨hm, hmem⟩ := hm
      · cases hm
      · cases hm
        cases y with
        | null => exact .silent (by simp [h]) (.inr ⟨by simp, by simp⟩)
        | bool | num | str | arr | obj =>
          exact .speaks h rfl (.inr ⟨rfl, hmem⟩)
  | @speaks before after v first hbefore hv hfirst =>
    rw [List.append_assoc, List.cons_append]
    suffices h : merged' = some ((spoken (after ++ [upper])).foldl (mergeValue rule) first) from
      h ▸ .speaks hbefore hv hfirst
    obtain ⟨rfl, rfl | rfl⟩ | ⟨hnone, -⟩ | ⟨x, y, hx, rfl, rfl⟩ := over_cases ho
    · simp
    · simp
    · cases hnone
    · cases hx
      cases hy : y.isNull with
      | true =>
        obtain rfl := eq_null_of_isNull hy
        simp
      | false => simp [hy]

/-- At the end of a path, all layers together hold what they gather. -/
theorem gathers_merge {base : Json} {layers : List Json} (hdeep : ∀ k ∈ path, Rule.ofKey k = .deep)
    (honce : ∀ v ∈ base :: layers, v.KeysOnce) (hpass : ∀ v ∈ base :: layers, v.Passes path)
    (key : String) :
    Gathers (.ofKey key) ((base :: layers).map fun v => v.below? (path ++ [key]))
      ((merge base layers).below? (path ++ [key])) := by
  rw [List.forall_mem_cons] at honce hpass
  obtain ⟨hbase, honce⟩ := honce
  obtain ⟨hpbase, hpass⟩ := hpass
  -- what is merged so far grows together with the values that went into it
  suffices ∀ held, (merged : Json) → merged.KeysOnce → merged.Passes path →
      Gathers (.ofKey key) held (merged.below? (path ++ [key])) →
      Gathers (.ofKey key) (held ++ layers.map fun v => v.below? (path ++ [key]))
        ((merge merged layers).below? (path ++ [key])) by
    refine this [base.below? (path ++ [key])] base hbase hpbase ?_
    exact (Gathers.silent rfl (.inl rfl) : Gathers _ [] none).over (over_none_left _ _)
  clear hbase hpbase
  induction layers with
  | nil => exact fun held merged _ _ h => by simpa using h
  | cons layer layers ih =>
    intro held merged hm hpm h
    obtain ⟨hlayer, honce⟩ := List.forall_mem_cons.mp honce
    obtain ⟨hplayer, hpass⟩ := List.forall_mem_cons.mp hpass
    have hstep := ih honce hpass (held ++ [layer.below? (path ++ [key])])
      (mergeValue .deep merged layer)
      (keysOnce_mergeValue .deep hm hlayer) (passes_mergeValue hdeep hm hlayer hpm hplayer)
      (h.over (over_below? hdeep hm hlayer hpm hplayer key))
    simpa using hstep

/-! ### What it comes to -/

/-- The two lowest values are objects, and a layer below them has null. -/
def NullUnderObjects (held : List (Option Json)) : Prop :=
  ∃ before l after u, held = before ++ some (.obj l) :: after ∧ spoken before = [] ∧
    some .null ∈ before ∧ (spoken after).head? = some (.obj u)

/-- The same value; at a list key a lone value is the same as a list of it. -/
def SameAt (rule : Rule) (v w : Option Json) : Prop :=
  v = w ∨ rule = .listed ∧ v.map asList = w.map asList

/-- What is merged at a place where the layers hold these values, the lowest first. -/
structure Settled (rule : Rule) (held : List (Option Json)) (merged : Option Json) : Prop where
  /-- What layers say decides, but where two objects at a list key have null below. -/
  determined : (rule = .listed → ¬ NullUnderObjects held) →
    SameAt rule (merged.filter fun v => !v.isNull) (together rule (spoken held))
  silent : spoken held = [] → merged = none ∨ merged = some .null
  /-- Null does not take away what a layer says. -/
  kept : spoken held ≠ [] → ∃ v, merged = some v ∧ v.isNull = false
  highest : ∀ v, (spoken held).getLast? = some v →
    (rule = .replace ∨ rule = .deep ∧ ∀ w ∈ spoken held, w.isScalar = true) → merged = some v
  arrays : rule ≠ .replace → ∀ lists : List (List Json), lists ≠ [] →
    spoken held = lists.map .arr → merged = some (.arr lists.reverse.flatten)
  listed : rule = .listed → spoken held ≠ [] →
    (∀ w ∈ spoken held, w.isArray = true ∨ w.isScalar = true) →
    merged.map asList = some ((spoken held).reverse.flatMap asList)

/-- The lowest that says something, and what it is when the others come over it. -/
theorem Gathers.lowest (h : Gathers rule held merged) (hne : spoken held ≠ []) :
    ∃ v rest first, spoken held = v :: rest ∧
      merged = some (rest.foldl (mergeValue rule) first) ∧
      (first = v ∨ first = mergeValue rule .null v ∧
        ∃ before after, held = before ++ some v :: after ∧ spoken before = [] ∧
          some .null ∈ before ∧ spoken after = rest) := by
  cases h with
  | silent h => exact absurd h hne
  | @speaks before after v first hbefore hv hfirst =>
    refine ⟨v, spoken after, first, by simp [hbefore, hv], rfl, ?_⟩
    exact hfirst.imp_right fun ⟨hfirst, hmem⟩ => ⟨hfirst, before, after, rfl, hbefore, hmem, rfl⟩

theorem isNull_foldl {v : Json} {rest : List Json} (hv : v.isNull = false)
    (hrest : ∀ w ∈ rest, w.isNull = false) : (rest.foldl (mergeValue rule) v).isNull = false := by
  induction rest generalizing v with
  | nil => exact hv
  | cons w rest ih =>
    obtain ⟨hw, hrest⟩ := List.forall_mem_cons.mp hrest
    exact ih (isNull_mergeValue rule v hw) hrest

/-- Where each value stands alone, the highest is left. -/
theorem foldl_eq_getLast {v : Json} {rest : List Json}
    (h : ∀ w ∈ rest, ∀ lower, mergeValue rule lower w = w) :
    some (rest.foldl (mergeValue rule) v) = (v :: rest).getLast? := by
  induction rest generalizing v with
  | nil => rfl
  | cons w rest ih =>
    obtain ⟨hw, hrest⟩ := List.forall_mem_cons.mp h
    rw [List.foldl_cons, hw, ih hrest, List.getLast?_cons_cons]

theorem foldl_arr (h : rule ≠ .replace) (items : List Json) (lists : List (List Json)) :
    (lists.map Json.arr).foldl (mergeValue rule) (.arr items) =
      .arr (lists.reverse.flatten ++ items) := by
  induction lists generalizing items with
  | nil => rfl
  | cons l lists ih => simp [mergeValue_arr_arr h, ih]

/-- At a list key everything over a value that is no object is joined as lists. -/
theorem asList_foldl {v : Json} {rest : List Json} (hv : v.isObject = false)
    (hrest : ∀ w ∈ rest, w.isNull = false) :
    asList (rest.foldl (mergeValue .listed) v) = rest.reverse.flatMap asList ++ asList v := by
  induction rest generalizing v with
  | nil => rfl
  | cons w rest ih =>
    obtain ⟨hw, hrest⟩ := List.forall_mem_cons.mp hrest
    rw [List.foldl_cons, mergeValue_listed hw (.inl hv), ih rfl hrest]
    simp [asList]

theorem Gathers.silent_of (h : Gathers rule held merged) (hs : spoken held = []) :
    merged = none ∨ merged = some .null := by
  cases h with
  | silent _ hm => exact hm.imp_right (·.1)
  | speaks hbefore hv => simp [hbefore, hv] at hs

theorem Gathers.kept (h : Gathers rule held merged) (hne : spoken held ≠ []) :
    ∃ v, merged = some v ∧ v.isNull = false := by
  obtain ⟨v, rest, first, hspoken, rfl, hfirst⟩ := h.lowest hne
  have hnull : ∀ w ∈ v :: rest, w.isNull = false := fun w hw => isNull_of_mem_spoken (hspoken ▸ hw)
  obtain ⟨hv, hrest⟩ := List.forall_mem_cons.mp hnull
  refine ⟨_, rfl, isNull_foldl ?_ hrest⟩
  rcases hfirst with rfl | ⟨rfl, -⟩
  · exact hv
  · exact isNull_mergeValue rule .null hv

/-- But at list keys, null below the lowest value does not show. -/
theorem Gathers.eq_together (h : Gathers rule held merged) (hne : spoken held ≠ [])
    (hrule : rule ≠ .listed) : merged = together rule (spoken held) := by
  obtain ⟨v, rest, first, hspoken, rfl, hfirst⟩ := h.lowest hne
  have hv : v.isNull = false := isNull_of_mem_spoken (hspoken ▸ List.mem_cons_self)
  rw [hspoken, together]
  rcases hfirst with rfl | ⟨rfl, -⟩
  · rfl
  · rw [mergeValue_null_left hrule hv]

/-- At a list key, values that are no objects are joined as lists. -/
theorem Gathers.asList_eq (h : Gathers .listed held merged) (hne : spoken held ≠ [])
    (hobj : (spoken held).head?.all fun v => !v.isObject) :
    merged.map asList = some ((spoken held).reverse.flatMap asList) := by
  obtain ⟨v, rest, first, hspoken, rfl, hfirst⟩ := h.lowest hne
  have hnull : ∀ w ∈ v :: rest, w.isNull = false := fun w hw => isNull_of_mem_spoken (hspoken ▸ hw)
  obtain ⟨hv, hrest⟩ := List.forall_mem_cons.mp hnull
  replace hobj : v.isObject = false := by simpa [hspoken] using hobj
  have hlist : first.isObject = false ∧ asList first = asList v := by
    rcases hfirst with rfl | ⟨rfl, -⟩
    · exact ⟨hobj, rfl⟩
    · rw [mergeValue_listed hv (.inr hobj)]
      exact ⟨rfl, by simp [asList]⟩
  rw [Option.map_some, asList_foldl hlist.1 hrest, hlist.2, hspoken]
  simp

theorem spoken_map_some {vs : List Json} (h : ∀ v ∈ vs, v.isNull = false) :
    spoken (vs.map some) = vs := by
  induction vs with
  | nil => rfl
  | cons v rest ih =>
    obtain ⟨hv, hrest⟩ := List.forall_mem_cons.mp h
    rw [List.map_cons, spoken_some hv, ih hrest]

/-- What is said, with nothing else around it. -/
theorem gathers_together {vs : List Json} (h : ∀ v ∈ vs, v.isNull = false) (hne : vs ≠ []) :
    Gathers rule (vs.map some) (together rule vs) := by
  cases vs with
  | nil => exact absurd rfl hne
  | cons v rest =>
    obtain ⟨hv, hrest⟩ := List.forall_mem_cons.mp h
    have hspeaks : Gathers rule ([] ++ some v :: rest.map some) _ := .speaks rfl hv (.inl rfl)
    rwa [spoken_map_some hrest] at hspeaks

/-- An object over null is a list of it, which shows only below another object. -/
theorem sameAt_foldl_over_null {m : Fields} {rest : List Json}
    (hrest : ∀ w ∈ rest, w.isNull = false) (hobj : ∀ u, rest.head? ≠ some (.obj u)) :
    SameAt .listed (some (rest.foldl (mergeValue .listed) (mergeValue .listed .null (.obj m))))
      (together .listed (.obj m :: rest)) := by
  have hfirst : mergeValue .listed .null (.obj m) = .arr [.obj m] :=
    mergeValue_listed rfl (.inl rfl)
  rw [hfirst]
  cases rest with
  | nil => exact .inr ⟨rfl, rfl⟩
  | cons w rest =>
    have hw : w.isNull = false := hrest w List.mem_cons_self
    have hwo : w.isObject = false := by
      cases w with
      | obj u => exact absurd rfl (hobj u)
      | null | bool | num | str | arr => rfl
    refine .inl ?_
    rw [together, List.foldl_cons, List.foldl_cons, mergeValue_listed hw (.inr hwo),
      mergeValue_listed hw (.inr hwo)]
    rfl

theorem sameAt_together (h : Gathers rule held merged) (hne : spoken held ≠ [])
    (hunder : rule = .listed → ¬ NullUnderObjects held) :
    SameAt rule merged (together rule (spoken held)) := by
  by_cases hrule : rule = .listed
  · subst hrule
    obtain ⟨v, rest, first, hspoken, hmerged, hfirst⟩ := h.lowest hne
    cases hobj : v.isObject with
    | true =>
      obtain ⟨m, rfl⟩ := isObject_eq_true_iff.mp hobj
      rcases hfirst with rfl | ⟨rfl, before, after, hheld, hbefore, hmem, hafter⟩
      · exact .inl (by rw [hmerged, hspoken]; rfl)
      · rw [hmerged, hspoken]
        refine sameAt_foldl_over_null (fun w hw => ?_) fun u hu => ?_
        · exact isNull_of_mem_spoken (hspoken ▸ List.mem_cons_of_mem _ hw)
        · exact hunder rfl ⟨before, m, after, u, hheld, hbefore, hmem, hafter ▸ hu⟩
    | false =>
      have hhead : (spoken held).head?.all fun v => !v.isObject := by simp [hspoken, hobj]
      have hnull : ∀ w ∈ spoken held, w.isNull = false := fun w hw => isNull_of_mem_spoken hw
      have halone : Gathers .listed ((spoken held).map some) _ := gathers_together hnull hne
      refine .inr ⟨rfl, ?_⟩
      rw [h.asList_eq hne hhead, halone.asList_eq] <;> rw [spoken_map_some hnull]
      · exact hne
      · exact hhead
  · exact .inl (h.eq_together hne hrule)

theorem together_eq_getLast {vs : List Json} (h : ∀ v ∈ vs, ∀ lower, mergeValue rule lower v = v) :
    together rule vs = vs.getLast? := by
  cases vs with
  | nil => rfl
  | cons v rest => exact foldl_eq_getLast (List.forall_mem_cons.mp h).2

theorem mergeValue_scalar (h : rule ≠ .listed) (hs : upper.isScalar = true) (lower : Json) :
    mergeValue rule lower upper = upper := by
  have hkind : upper.isNull = false ∧ upper.isObject = false := by
    cases upper with
    | bool | num | str => exact ⟨rfl, rfl⟩
    | null | arr | obj => cases hs
  obtain ⟨hnull, hobj⟩ := hkind
  by_cases hrule : rule = .replace
  · rw [hrule, mergeValue_replace lower hnull]
  · rw [mergeValue_eq_join hrule hnull (.inr hobj), join_of_ne_listed h]
    cases upper with
    | arr => cases hs
    | null | bool | num | str | obj => cases lower <;> rfl

theorem Gathers.settled (h : Gathers rule held merged) : Settled rule held merged where
  determined hunder := by
    by_cases hs : spoken held = []
    · rcases h.silent_of hs with rfl | rfl <;> exact .inl (hs ▸ rfl)
    · obtain ⟨w, rfl, hnull⟩ := h.kept hs
      simpa [Option.filter, hnull] using sameAt_together h hs hunder
  silent := h.silent_of
  kept := h.kept
  highest v hv hrule := by
    have hne : spoken held ≠ [] := by rintro hs; rw [hs] at hv; cases hv
    have halone : ∀ w ∈ spoken held, ∀ lower, mergeValue rule lower w = w := by
      intro w hw lower
      rcases hrule with rfl | ⟨rfl, hscalar⟩
      · exact mergeValue_replace lower (isNull_of_mem_spoken hw)
      · exact mergeValue_scalar (by decide) (hscalar w hw) lower
    have hlisted : rule ≠ .listed := by rcases hrule with rfl | ⟨rfl, -⟩ <;> decide
    rw [h.eq_together hne hlisted, together_eq_getLast halone, hv]
  arrays hrule lists hlists hspoken := by
    obtain ⟨v, rest, first, hcons, rfl, hfirst⟩ := h.lowest (by simp [hspoken, hlists])
    obtain ⟨l, lists, rfl⟩ := List.exists_cons_of_ne_nil hlists
    rw [hspoken, List.map_cons, List.cons.injEq] at hcons
    obtain ⟨rfl, rfl⟩ := hcons
    have heq : first = .arr l := by
      rcases hfirst with rfl | ⟨rfl, -⟩
      · rfl
      · rw [mergeValue_eq_join hrule rfl (.inl rfl)]
        cases rule <;> simp [join, asList]
    rw [heq, foldl_arr hrule]
    simp
  listed hrule hne hkinds := by
    subst hrule
    refine h.asList_eq hne ?_
    obtain ⟨v, rest, hcons⟩ := List.exists_cons_of_ne_nil hne
    have hkind := hkinds v (hcons ▸ List.mem_cons_self)
    cases v <;> simp_all [isArray, isScalar, isObject]

/-- Where no key on the way has a rule of its own and every layer lets the way
pass, what the layers hold at its end settles what all of them together hold. -/
theorem below?_merge {base : Json} {layers : List Json} {path : List String}
    (hdeep : ∀ k ∈ path, Rule.ofKey k = .deep) (honce : ∀ v ∈ base :: layers, v.KeysOnce)
    (hpass : ∀ v ∈ base :: layers, v.Passes path) (key : String) :
    Settled (.ofKey key) ((base :: layers).map fun v => v.below? (path ++ [key]))
      ((merge base layers).below? (path ++ [key])) :=
  (gathers_merge hdeep honce hpass key).settled

/-- Three layers of which the middle one has nothing to say about lists. -/
def patternLayers : List Json :=
  [.obj [("list", .obj [("urlPattern", .str "/browse")])],
    .obj [("list", .null)],
    .obj [("list", .obj [("urlPattern", .ofStrings ["/top", "/new"])])]]

theorem patternLayers_pass : ∀ v ∈ patternLayers, v.Passes ["list"] := by
  have hpass : ∀ w : Json, Passable (some w) → (Json.obj [("list", w)]).Passes ["list"] := by
    intro w hw
    refine passes_cons (.inr (.inr ⟨_, rfl⟩)) fun u hu => passes_nil ?_
    exact hu ▸ hw
  intro v hv
  simp only [patternLayers, List.mem_cons, List.not_mem_nil, or_false] at hv
  obtain rfl | rfl | rfl := hv
  · exact hpass _ (.inr (.inr ⟨_, rfl⟩))
  · exact hpass _ (.inr (.inl rfl))
  · exact hpass _ (.inr (.inr ⟨_, rfl⟩))

theorem below?_merge_of_patterns :
    (∀ k ∈ ["list"], Rule.ofKey k = .deep) ∧ (∀ v ∈ patternLayers, v.KeysOnce) ∧
      (∀ v ∈ patternLayers, v.Passes ["list"]) ∧
      Settled (.ofKey "urlPattern") (patternLayers.map fun v => v.below? ["list", "urlPattern"])
        ((merge (patternLayers.headD .null) patternLayers.tail).below? ["list", "urlPattern"]) ∧
      (merge (patternLayers.headD .null) patternLayers.tail).below? ["list", "urlPattern"] =
        some (.ofStrings ["/top", "/new", "/browse"]) := by
  have hdeep : ∀ k ∈ ["list"], Rule.ofKey k = .deep := by decide
  have honce : ∀ v ∈ patternLayers, v.KeysOnce := keysOnce_of_map_distinct rfl
  exact ⟨hdeep, honce, patternLayers_pass,
    below?_merge hdeep honce patternLayers_pass "urlPattern", rfl⟩

/-- With null below them two objects at a list key are not merged but listed, so
what layers say does not always decide. -/
theorem merge_listed_over_null :
    let upper : List Json := [.obj [("selector", .obj [("a", .str "1")])],
      .obj [("selector", .obj [("b", .str "2")])]]
    let held (base : Json) := (base :: upper).map fun v => v.below? ["selector"]
    let merged (base : Json) := (merge base upper).below? ["selector"]
    (∀ base ∈ [Json.obj [("selector", .null)], .obj []],
      ∀ v ∈ base :: upper, v.KeysOnce ∧ v.Passes []) ∧
      spoken (held (.obj [("selector", .null)])) = spoken (held (.obj [])) ∧
      ¬ SameAt (.ofKey "selector") (merged (.obj [("selector", .null)])) (merged (.obj [])) := by
  refine ⟨?_, rfl, ?_⟩
  · intro base hbase v hv
    simp only [List.mem_cons, List.not_mem_nil, or_false] at hbase hv
    obtain rfl | rfl := hbase <;> obtain rfl | rfl | rfl := hv <;>
      exact ⟨keysOnce_of_distinct_eq rfl, passes_nil (.inr (.inr ⟨_, rfl⟩))⟩
  · rintro (h | ⟨-, h⟩)
    · cases h
    · exact absurd (congrArg (Option.map List.length) h) (by decide)

end Layers

end SiteScrape
