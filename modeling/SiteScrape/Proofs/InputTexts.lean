import SiteScrape.Proofs.ResolvedSites

/-!
# Inputs in layers

A site comes out only where all its inputs are texts. Then the upper of two
layers has nothing but texts and nulls for inputs (`HoldsTexts`), whatever stands
below, and an input has the text of the upper layer, or else that of the lower.
-/

namespace SiteScrape

open Decode Layers

namespace Json

variable {v : Json}

theorem eq_obj_of_asObject? {fields : Fields} (h : v.asObject? = some fields) :
    v = .obj fields := by
  cases v with
  | obj => exact congrArg Json.obj (Option.some.inj h)
  | null | bool | num | str | arr => cases h

theorem eq_str_of_asString? {t : String} (h : v.asString? = some t) : v = .str t := by
  cases v with
  | str => exact congrArg Json.str (Option.some.inj h)
  | null | bool | num | arr | obj => cases h

end Json

namespace Layers

variable {rule : Rule} {a b : Option Json} {lower upper : Json} {name : String}

/-! ### Texts by name in layers over each other -/

/-- What comes out as a text is the text on top. -/
theorem eq_str_of_mergeValue {t : String} (h : mergeValue rule lower upper = .str t)
    (hnull : upper.isNull = false) : upper = .str t := by
  obtain ⟨rfl, -⟩ | ⟨-, -, heq⟩ | ⟨-, l, u, -, -, heq⟩ | ⟨-, -, -, heq⟩ :=
    mergeValue_cases rule lower upper
  · cases hnull
  · exact heq.symm.trans h
  · rw [heq] at h
    cases h
  · rcases join_cases rule lower upper with hjoin | ⟨items, hjoin⟩
    · exact (heq.trans hjoin).symm.trans h
    · rw [heq, hjoin] at h
      cases h

/-- Nothing, null or a text. -/
def AtMostText (v : Option Json) : Prop := ∀ w ∈ v, w = .null ∨ ∃ t, w = .str t

/-- Nothing, null or an object of texts and nulls. -/
def HoldsTexts (v : Option Json) : Prop :=
  ∀ w ∈ v, w = .null ∨ w.isObject = true ∧ ∀ name, AtMostText (w.field? name)

theorem atMostText_none : AtMostText none := fun _ hw => nomatch hw

theorem atMostText_null : AtMostText (some .null) := fun _ hw => .inl (Option.some.inj hw).symm

theorem holdsTexts_none : HoldsTexts none := fun _ hw => nomatch hw

theorem holdsTexts_null : HoldsTexts (some .null) := fun _ hw => .inl (Option.some.inj hw).symm

/-- The text that an object has at a name. -/
def textAt? (v : Option Json) (name : String) : Option String :=
  (v.bind (·.field? name)).bind Json.asString?

@[simp] theorem textAt?_none (name : String) : textAt? none name = none := rfl

@[simp] theorem textAt?_null (name : String) : textAt? (some .null) name = none := rfl

/-- Of two values at a name that come to at most a text, the upper one is at most
a text, and the text is its own if it has one. -/
theorem atMostText_of_overlay (h : AtMostText (overlay rule a b)) :
    AtMostText b ∧
      (overlay rule a b).bind Json.asString? = (b.bind Json.asString?).or (a.bind Json.asString?) := by
  cases b with
  | none => exact ⟨atMostText_none, by simp⟩
  | some upper =>
  cases hnull : upper.isNull with
  | true =>
    obtain rfl := eq_null_of_isNull hnull
    exact ⟨atMostText_null, by simp [Json.asString?]⟩
  | false =>
    obtain ⟨t, rfl, ht⟩ : ∃ t, upper = .str t ∧ overlay rule a (some (.str t)) = some (.str t) := by
      cases a with
      | none =>
        rw [overlay_none_left hnull] at h
        rcases h upper rfl with rfl | ⟨t, rfl⟩
        · cases hnull
        · exact ⟨t, rfl, rfl⟩
      | some lower =>
        rw [overlay_some] at h
        rcases h _ rfl with heq | ⟨t, heq⟩
        · have hmerged := isNull_mergeValue rule lower hnull
          rw [heq] at hmerged
          cases hmerged
        · obtain rfl := eq_str_of_mergeValue heq hnull
          exact ⟨t, rfl, congrArg some heq⟩
    refine ⟨fun w hw => .inr ⟨t, (Option.some.inj hw).symm⟩, ?_⟩
    rw [ht]
    rfl

theorem keysOnce_overlay (ha : ∀ v ∈ a, v.KeysOnce) (hb : ∀ v ∈ b, v.KeysOnce) :
    ∀ v ∈ overlay rule a b, v.KeysOnce := by
  intro v hv
  obtain ⟨hv, -⟩ | ⟨-, hv, -⟩ | ⟨x, y, hx, hy, rfl⟩ := overlay_eq_some hv
  · exact ha v hv
  · exact hb v hv
  · exact keysOnce_mergeValue rule (ha x hx) (hb y hy)

/-- Over nothing, a text is there as it was. -/
theorem textAt?_overlay_none_left (v : Option Json) (name : String) :
    textAt? (overlay rule none v) name = textAt? v name := by
  match v with
  | none => rfl
  | some .null => rfl
  | some (.bool _) | some (.num _) | some (.str _) | some (.arr _) | some (.obj _) => rfl

theorem textAt?_of_not_object (h : lower.isObject = false) (name : String) :
    textAt? (some lower) name = none := by
  cases lower with
  | obj => cases h
  | null | bool | num | str | arr => rfl

/-- So it is name by name where two objects come to an object of texts. -/
theorem texts_of_mergeFields {l u : Fields} (hl : l.KeysOnce) (hu : u.KeysOnce)
    (h : ∀ name, AtMostText (Assoc.get? (mergeFields l u) name)) (name : String) :
    AtMostText (u.get? name) ∧
      (Assoc.get? (mergeFields l u) name).bind Json.asString? =
        ((u.get? name).bind Json.asString?).or ((l.get? name).bind Json.asString?) := by
  have hview := (view_mergeFields hl hu).2 name
  rw [hview]
  exact atMostText_of_overlay (hview ▸ h name)

/-- Of two values that come to an object of texts, the upper one is an object of
texts or silent, and a text is its own where it has one. -/
theorem holdsTexts_of_overlay (ha : ∀ v ∈ a, v.KeysOnce) (hb : ∀ v ∈ b, v.KeysOnce)
    (h : HoldsTexts (overlay .deep a b)) :
    HoldsTexts b ∧
      ∀ name, textAt? (overlay .deep a b) name = (textAt? b name).or (textAt? a name) := by
  cases b with
  | none => exact ⟨holdsTexts_none, fun name => by simp⟩
  | some upper =>
  cases hnull : upper.isNull with
  | true =>
    obtain rfl := eq_null_of_isNull hnull
    exact ⟨holdsTexts_null, fun name => by simp⟩
  | false =>
  cases a with
  | none =>
    rw [overlay_none_left hnull] at h ⊢
    exact ⟨h, fun name => by simp⟩
  | some lower =>
    rw [overlay_some] at h ⊢
    obtain hmerged | ⟨hobj, htexts⟩ := h _ rfl
    · have hsome := isNull_mergeValue .deep lower hnull
      rw [hmerged] at hsome
      cases hsome
    obtain ⟨m, hm⟩ := isObject_eq_true_iff.mp hobj
    obtain ⟨hlower, hupper⟩ | ⟨l, u, rfl, rfl, rfl⟩ := mergeValue_eq_obj (by decide) hnull hm
    · -- what is no object below does not show
      rw [hm, ← hupper] at htexts ⊢
      refine ⟨fun w hw => .inr ?_, fun name => ?_⟩
      · obtain rfl := Option.some.inj hw
        exact ⟨isObject_eq_true_iff.mpr ⟨m, hupper⟩, htexts⟩
      · rw [textAt?_of_not_object hlower, Option.or_none]
    · rw [hm] at htexts ⊢
      have hname := texts_of_mergeFields (ha _ rfl).fields (hb _ rfl).fields htexts
      refine ⟨fun w hw => .inr ?_, fun name => (hname name).2⟩
      obtain rfl := Option.some.inj hw
      exact ⟨rfl, fun name => (hname name).1⟩

end Layers

/-! ### The inputs of metadata -/

namespace Decode

variable {α : Type} {d : Decoder α} {pairs : Fields} {m : Assoc α} {key : String} {v : Json}

/-- All values of a map were read. -/
theorem exists_of_sortedPairs (h : sortedPairs d pairs = some m) (hv : pairs.get? key = some v) :
    ∃ a, d v = some a := by
  obtain ⟨read, hread, -⟩ := Option.map_eq_some_iff.mp h
  obtain ⟨hkeys, hget⟩ := view_of_mapM hread
  have hkey := hget key
  rw [hv, Option.bind_some] at hkey
  cases ha : d v with
  | some a => exact ⟨a, rfl⟩
  | none =>
    rw [ha, Assoc.get?_eq_none_iff, hkeys, ← Assoc.get?_eq_none_iff] at hkey
    rw [show Assoc.get? pairs key = none from hkey] at hv
    cases hv

end Decode

namespace Metadata

variable {e : Fields} {m : Metadata}

/-- The inputs are texts, those of the value that they were read off. -/
theorem ReadOff.userInput_eq (h : m.ReadOff e)
    (honce : ∀ v ∈ e.get? "userInput", v.KeysOnce) :
    HoldsTexts (e.get? "userInput") ∧
      ∀ name, m.userInput.get? name = textAt? (e.get? "userInput") name := by
  have hinput := h.userInput
  unfold withDefault at hinput
  cases hv : Assoc.get? e "userInput" with
  | none =>
    rw [hv] at hinput
    rw [← Option.some.inj hinput]
    exact ⟨holdsTexts_none, fun name => rfl⟩
  | some v =>
    rw [hv] at hinput
    obtain ⟨pairs, hpairs, hread⟩ := Option.bind_eq_some_iff.mp hinput
    obtain rfl := Json.eq_obj_of_asObject? hpairs
    refine ⟨fun w hw => .inr ?_, get?_sortedPairs (honce _ hv).fields hread⟩
    obtain rfl := Option.some.inj hw
    refine ⟨rfl, fun name w hw => .inr ?_⟩
    obtain ⟨t, ht⟩ := exists_of_sortedPairs hread hw
    exact ⟨t, Json.eq_str_of_asString? ht⟩

end Metadata

/-- The text that a layer gives as an input. -/
def Json.inputIn? (layer : Json) (name : String) : Option String :=
  textAt? (layer.field? "userInput") name

theorem Schema.field?_userInput_defaults {schema : Schema} (h : schema ∈ builtin) :
    schema.defaults.field? "userInput" = none := by
  simp only [builtin, List.mem_cons, List.not_mem_nil, or_false] at h
  rcases h with rfl | rfl | rfl | rfl | rfl | rfl <;> rfl

end SiteScrape
