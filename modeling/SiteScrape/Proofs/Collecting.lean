import SiteScrape.Proofs.AccountWalk

/-!
# What an account query collects

`Grows fields c d`: what is collected goes from `c` to `d` by writing none but
`fields`, only where nothing is known, and only what is something. Every write
of an account query is such a growth, and so are a turn and a walk.
-/

namespace SiteScrape

open Talk

namespace Collected

variable {c d e : Collected} {f g : String} {v : Json} {fields more : List String}

theorem value?_eq_some_iff :
    c.value? f = some v ↔ Assoc.get? c f = some v ∧ Field.isNothing v = false := by
  simp [value?, Option.filter_eq_some_iff]

/-- A value that is something is known once it is written. -/
theorem value?_insert (hv : Field.isNothing v = false) :
    value? (Assoc.insert c f v) g = if f = g then some v else c.value? g := by
  unfold value?
  rw [Assoc.get?_insert]
  split
  · rw [Option.filter_some, if_pos (by simp [hv])]
  · rfl

/-- Nothing that counts as nothing is stored. -/
def Full (c : Collected) : Prop := ∀ p ∈ c, Field.isNothing p.2 = false

theorem Full.insert (h : c.Full) (hv : Field.isNothing v = false) :
    Full (Assoc.insert c f v) := by
  intro p hp
  rcases Assoc.mem_insert hp with rfl | hp
  · exact hv
  · exact h p hp

/-- What is collected goes from `c` to `d` by writing some of `fields`. -/
structure Grows (fields : List String) (c d : Collected) : Prop where
  kept : ∀ f v, c.value? f = some v → d.value? f = some v
  frame : ∀ f, f ∉ fields → Assoc.get? d f = Assoc.get? c f
  full : c.Full → d.Full

namespace Grows

theorem rfl' (fields : List String) (c : Collected) : Grows fields c c :=
  ⟨fun _ _ h => h, fun _ _ => rfl, fun h => h⟩

theorem mono (h : Grows fields c d) (hsub : fields ⊆ more) : Grows more c d :=
  ⟨h.kept, fun f hf => h.frame f (mt (@hsub f) hf), h.full⟩

theorem trans (h : Grows fields c d) (h' : Grows fields d e) : Grows fields c e :=
  ⟨fun f v hv => h'.kept f v (h.kept f v hv),
    fun f hf => (h'.frame f hf).trans (h.frame f hf), fun hc => h'.full (h.full hc)⟩

theorem of_insert (hf : f ∈ fields) (hn : c.value? f = none) (hv : Field.isNothing v = false) :
    Grows fields c (Assoc.insert c f v) where
  kept g w hg := by
    rw [value?_insert hv]
    split
    · next he => subst he; rw [hn] at hg; cases hg
    · exact hg
  frame g hg := by
    rw [Assoc.get?_insert, if_neg]
    rintro rfl
    exact hg hf
  full hc := hc.insert hv

end Grows

theorem get?_pick {picked : Fields} :
    Assoc.get? (c.pick picked g) f =
      if f = g then (value? picked f).or (Assoc.get? c f) else Assoc.get? c f := by
  unfold pick
  by_cases hfg : f = g
  · subst hfg
    cases hv : value? picked f with
    | none => simp
    | some v => simp [Assoc.get?_insert]
  · cases value? picked g with
    | none => simp [hfg]
    | some v => simp [Assoc.get?_insert, hfg, Ne.symm hfg]

/-- What is picked from the record before, and nothing else, is carried over. -/
theorem get?_carriedOver {plan : AccountPlan} {u : UserInfo} :
    Assoc.get? (carriedOver plan (some u)) f =
      if f ∈ plan.pickLast then value? u.toFields f else none := by
  suffices ∀ (more : List String) (c : Collected),
      Assoc.get? (more.foldl (pick u.toFields) c) f =
        if f ∈ more then (value? u.toFields f).or (Assoc.get? c f) else Assoc.get? c f from by
    simpa [carriedOver] using this plan.pickLast []
  intro more
  induction more with
  | nil => exact fun c => rfl
  | cons g rest ih =>
    intro c
    rw [List.foldl_cons, ih, get?_pick]
    by_cases hfg : f = g
    · subst hfg; cases value? u.toFields f <;> simp
    · simp [hfg]

theorem full_carriedOver (plan : AccountPlan) (previous : Option UserInfo) :
    (carriedOver plan previous).Full := by
  cases previous with
  | none => exact fun p hp => absurd hp List.not_mem_nil
  | some u =>
    refine List.foldlRecOn plan.pickLast _ (fun p hp => absurd hp List.not_mem_nil) ?_
    intro c hc f _
    unfold pick
    split
    · next v hv => exact hc.insert (value?_eq_some_iff.mp hv).2
    · exact hc

end Collected

namespace Site

open Collected

variable {s : Site} {now : Int} {plan : AccountPlan} {i j : Nat} {c d : Collected}
  {selectors : Assoc Field} {source : Source} {f : String} {t : Turn} {turns : List Turn}

variable (s now c selectors source f) in
/-- Reading a field changes nothing, or writes what was found for the field
where nothing was known. -/
theorem collectField_cases :
    s.collectField now selectors source c f = c ∨
      ∃ v, c.value? f = none ∧ s.accountValue? now selectors source c f = some v ∧
        Field.isNothing v = false ∧
        s.collectField now selectors source c f = Assoc.insert c f v := by
  unfold collectField
  split
  · exact .inl rfl
  · next hk =>
    split
    · next v hv =>
      obtain ⟨hv, hn⟩ := Option.filter_eq_some_iff.mp hv
      exact .inr ⟨v, by simpa [knows] using hk, hv, by simpa using hn, rfl⟩
    · exact .inl rfl

theorem collectField_grows {fields : List String} (hf : f ∈ fields) :
    Grows fields c (s.collectField now selectors source c f) := by
  rcases collectField_cases s now c selectors source f with h | ⟨v, hn, -, hv, h⟩
  · rw [h]; exact .rfl' fields c
  · rw [h]; exact .of_insert hf hn hv

/-- A step writes only fields that it lists. -/
theorem collect_grows (step : AccountStep) :
    Grows step.fields c (s.collect now selectors source step c) := by
  unfold collect
  suffices ∀ fields ⊆ step.fields,
      Grows step.fields c (fields.foldl (s.collectField now selectors source) c) from
    this _ (List.Subset.refl _)
  intro fields hsub
  induction fields generalizing c with
  | nil => exact .rfl' _ c
  | cons f rest ih =>
    exact (collectField_grows (hsub List.mem_cons_self)).trans
      (ih fun g hg => hsub (List.mem_cons_of_mem f hg))

theorem Takes.grows (h : s.Takes now plan i c t d) : Grows t.step.fields c d := by
  cases h with
  | pass => exact .rfl' _ c
  | read => exact collect_grows _

theorem Walk.grows (h : s.Walk now plan i c turns j d) :
    Grows (turns.flatMap fun t => t.step.fields) c d := by
  induction h with
  | stay => exact .rfl' _ _
  | turn ht _ ih =>
    rw [List.flatMap_cons]
    exact (ht.grows.mono (List.subset_append_left _ _)).trans
      (ih.mono (List.subset_append_right _ _))

/-- What is collected is written once. A field is written only where nothing is
known of it, and only with something; what is known stays on every way that a
query goes on, a turn leaves the fields alone that its step does not list, and
nothing that counts as nothing is ever stored. So the values picked from the
record before stand in what any record is made of. -/
theorem accountInfo_write_once (hplan : s.metadata.userInfo = some plan)
    (hallowed : s.metadata.allowsUserInfo = true) (now : Int) (previous : Option UserInfo) :
    (∀ selectors source c f, Grows [f] c (s.collectField now selectors source c f)) ∧
    (∀ turns i c, s.Walk now plan 0 (.carriedOver plan previous) turns i c →
      (∀ p ∈ c, Field.isNothing p.2 = false) ∧
      (∀ t d, s.Takes now plan i c t d → ∀ f, f ∉ t.step.fields →
        Assoc.get? d f = Assoc.get? c f) ∧
      ∀ later j d, s.Walk now plan i c later j d → ∀ f v, c.value? f = some v →
        Assoc.get? d f = some v) ∧
    ∀ es u, (s.accountInfo now previous).Held es (.ok u) →
      ∃ turns i c rest status, s.Walk now plan 0 (.carriedOver plan previous) turns i c ∧
        s.Halts now plan i c rest (.ok (status, c)) ∧ es = eventsOf turns ++ rest ∧
        u = .ofFields s.id status c now ∧
        ∀ last, previous = some last → ∀ f ∈ plan.pickLast, ∀ v,
          value? last.toFields f = some v → Assoc.get? c f = some v := by
  refine ⟨fun selectors source c f => collectField_grows List.mem_cons_self,
    fun turns i c hw => ⟨?_, ?_, ?_⟩, fun es u hu => ?_⟩
  · exact hw.grows.full (full_carriedOver plan previous)
  · exact fun t d ht f hf => ht.grows.frame f hf
  · exact fun later j d hl f v hv => (value?_eq_some_iff.mp (hl.grows.kept f v hv)).1
  · obtain ⟨turns, i, c, rest, outcome, hw, hh, rfl, hr⟩ :=
      (accountInfo_held_iff hplan hallowed).mp hu
    obtain ⟨status, rfl, rfl⟩ : ∃ status, outcome = .ok (status, c) ∧
        u = .ofFields s.id status c now := by
      cases hh <;> cases hr <;> exact ⟨_, rfl, rfl⟩
    refine ⟨turns, i, c, rest, status, hw, hh, rfl, rfl, ?_⟩
    rintro last rfl f hf v hv
    have hseed : (carriedOver plan (some last)).value? f = some v := by
      refine value?_eq_some_iff.mpr ⟨?_, (value?_eq_some_iff.mp hv).2⟩
      rw [get?_carriedOver, if_pos hf, hv]
    exact (value?_eq_some_iff.mp (hw.grows.kept f v hseed)).1

theorem accountInfo_write_once_of_known_name :
    ∃ c status, UserInfo.ofFields "demo" .success [("name", .str "Ann")] 0 =
      .ofFields "demo" status c 0 ∧ Assoc.get? c "name" = some (.str "Ann") := by
  obtain ⟨-, -, hended⟩ :=
    accountInfo_write_once (s := Sample.nameSite) rfl rfl 0 (some Sample.ann)
  have hheld := (accountInfo_ended_iff (s := Sample.nameSite) rfl rfl).mpr
    (.inl ⟨_, _, nameSite_walk, rfl, rfl⟩)
  obtain ⟨-, -, c, -, status, -, -, -, hu, hpicked⟩ := hended _ _ hheld
  exact ⟨c, status, hu, hpicked _ rfl "name" (by decide) _ rfl⟩

end Site

end SiteScrape
