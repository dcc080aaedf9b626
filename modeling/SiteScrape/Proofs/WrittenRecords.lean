import SiteScrape.Definition.Writing
import SiteScrape.Proofs.LayerView

/-!
# Written parts of definitions, laid over each other

The parts of a definition are written as records and read off records. For the
parts that say where rows are, this is what they are written as, field by
field, and what is read field by field (`Reads`) off two of them together.
-/

namespace SiteScrape

open Decode Layers

namespace Assoc

variable {α : Type}

@[simp] theorem get?_append (m m' : Assoc α) (key : String) :
    get? (m ++ m') key = (m.get? key).or (m'.get? key) := by
  induction m with
  | nil => rfl
  | cons p rest ih =>
    obtain ⟨k, v⟩ := p
    by_cases hk : k = key
    · simp [get?, hk]
    · simpa [get?, hk] using ih

theorem keys_append (m m' : Assoc α) : keys (m ++ m') = m.keys ++ m'.keys := List.map_append

/-- A map with none but these keys, in this order. -/
theorem keysOnce_of_sublist {m : Assoc α} (names : List String) (h : m.keys.Sublist names)
    (hnames : names.Nodup) : m.KeysOnce := hnames.sublist h

/-- A key above all others goes to the end. -/
theorem place_of_lt {m : Assoc α} {key : String} (h : ∀ k ∈ m.keys, k < key) (v : α) :
    m.place key v = m ++ [(key, v)] := by
  induction m with
  | nil => rfl
  | cons p rest ih =>
    obtain ⟨k, w⟩ := p
    have hlt : k < key := h k List.mem_cons_self
    have hne : k ≠ key := by rintro rfl; exact String.lt_irrefl _ hlt
    rw [place, if_neg hne, if_neg fun h => String.lt_irrefl _ (String.lt_trans h hlt),
      ih fun k' hk' => h k' (List.mem_cons_of_mem _ hk')]
    rfl

/-- A sorted map is what sorting makes of it. -/
theorem Sorted.sorted_eq {m : Assoc α} (h : m.Sorted) : sorted m = m := by
  suffices ∀ acc : Assoc α, (acc ++ m).Sorted →
      m.foldl (fun acc p => acc.place p.1 p.2) acc = acc ++ m from this [] h
  clear h
  induction m with
  | nil => simp
  | cons p rest ih =>
    obtain ⟨k, v⟩ := p
    intro acc hsorted
    have hkeys : (acc.keys ++ keys ((k, v) :: rest)).Pairwise (· < ·) := by
      rw [← keys_append]; exact hsorted
    have hbelow : ∀ k' ∈ acc.keys, k' < k := fun k' hk' =>
      (List.pairwise_append.mp hkeys).2.2 k' hk' k List.mem_cons_self
    have happend : acc ++ (k, v) :: rest = (acc ++ [(k, v)]) ++ rest := by simp
    show rest.foldl (fun acc p => acc.place p.1 p.2) (acc.place k v) = _
    rw [place_of_lt hbelow, happend]
    exact ih _ (happend ▸ hsorted)

end Assoc

/-! ### Optional entries -/

section Entries

variable {v : Json} {key name : String}

@[simp] theorem get?_optional (key : String) (v : Option Json) (name : String) :
    Assoc.get? (Json.optional key v) name = if key = name then v else none := by
  cases v <;> simp [Json.optional, Assoc.get?]

@[simp] theorem get?_unlessEmpty (key : String) (isEmpty : Bool) (v : Json) (name : String) :
    Assoc.get? (Field.unlessEmpty key isEmpty v) name =
      if key = name ∧ isEmpty = false then some v else none := by
  cases isEmpty <;> simp [Field.unlessEmpty, Assoc.get?]

theorem keys_optional (key : String) (v : Option Json) :
    (Assoc.keys (Json.optional key v)).Sublist [key] := by
  cases v <;> simp [Json.optional, Assoc.keys]

theorem keys_unlessEmpty (key : String) (isEmpty : Bool) (v : Json) :
    (Assoc.keys (Field.unlessEmpty key isEmpty v)).Sublist [key] := by
  cases isEmpty <;> simp [Field.unlessEmpty, Assoc.keys]

/-- Of entries that may be absent each is found exactly if it has a value. -/
theorem get?_flatMap_optional {α : Type} {m : Assoc α} (f : α → Option Json) (h : m.KeysOnce)
    (key : String) :
    Assoc.get? (m.flatMap fun e => Json.optional e.1 (f e.2)) key = (m.get? key).bind f := by
  induction m with
  | nil => rfl
  | cons e rest ih =>
    obtain ⟨k, a⟩ := e
    obtain ⟨hk, hrest⟩ := List.nodup_cons.mp h
    rw [List.flatMap_cons, Assoc.get?_append, get?_optional, ih hrest]
    by_cases hkey : k = key
    · subst hkey
      simp [Assoc.get?, Assoc.get?_eq_none_iff.mpr hk]
    · simp [Assoc.get?, hkey]

theorem keys_flatMap_optional {α : Type} (m : Assoc α) (f : α → Option Json) :
    (Assoc.keys (m.flatMap fun e => Json.optional e.1 (f e.2))).Sublist m.keys := by
  induction m with
  | nil => exact .slnil
  | cons e rest ih =>
    rw [List.flatMap_cons, Assoc.keys_append]
    exact (keys_optional e.1 (f e.2)).append ih

end Entries

namespace Decode

variable {α β : Type} {d : Decoder α} {d' : Decoder β} {j : Option Json} {x : Option α}
  {key : String}

/-- `x` is what is read off a field that may be absent or null. -/
def Reads (d : Decoder α) (j : Option Json) (x : Option α) : Prop :=
  match j with
  | some v => nullable d v = some x
  | none => x = none

theorem reads_of_optional {e : Fields} (h : Decode.optional e key d = some x) :
    Reads d (e.get? key) x := by
  unfold Decode.optional withDefault at h
  unfold Reads
  cases he : Assoc.get? e key with
  | none => rw [he] at h; exact (Option.some.inj h).symm
  | some v => rw [he] at h; exact h

theorem reads_some {v : Json} {a : α} (h : d v = some a) (hv : v ≠ .null) :
    Reads d (some v) (some a) := by
  cases v with
  | null => exact absurd rfl hv
  | _ => exact congrArg (Option.map some) h

theorem Reads.exists_of_some {a : α} (h : Reads d j (some a)) : ∃ v, j = some v ∧ d v = some a := by
  cases j with
  | none => cases h
  | some v =>
    refine ⟨v, rfl, ?_⟩
    cases v with
    | null => cases h
    | _ =>
      obtain ⟨a', ha, heq⟩ := Option.map_eq_some_iff.mp h
      cases heq; exact ha

/-- Off a record something is read. -/
theorem Reads.of_record {v : Json} (h : Reads d (some v) x) (hv : IsRecord v) :
    ∃ a fields, x = some a ∧ v = .obj fields ∧ d (.obj fields) = some a := by
  obtain ⟨fields, rfl, -⟩ := hv
  obtain ⟨a, ha, rfl⟩ := Option.map_eq_some_iff.mp h
  exact ⟨a, fields, rfl, rfl, ha⟩

/-- A part has `f` at `key`, which may be absent. -/
def ReadsOptional (d : Decoder α) (key : String) (d' : Decoder β) (f : α → Option β) : Prop :=
  ∀ fields a, d (.obj fields) = some a → Decode.optional fields key d' = some (f a)

/-- A part has `f` at `key`, and `value` for when it does not stand. -/
def ReadsDefault (d : Decoder α) (key : String) (d' : Decoder β) (value : β) (f : α → β) : Prop :=
  ∀ fields a, d (.obj fields) = some a → withDefault fields key d' value = some (f a)

theorem Reads.field {f : α → Option β} (h : Reads d j x) (hj : ∀ v, j = some v → IsRecord v)
    (hd : ReadsOptional d key d' f) :
    Reads d' (j.bind (·.field? key)) (x.bind f) := by
  cases j with
  | none => cases h; rfl
  | some v =>
    obtain ⟨a, fields, rfl, rfl, ha⟩ := h.of_record (hj v rfl)
    exact reads_of_optional (hd fields a ha)

/-- What was written with `write` is read back. -/
theorem Reads.eq_of_written {write : α → Json} {o : Option α} (h : Reads d (o.map write) x)
    (hwrite : ∀ a, write a ≠ .null) (hd : ∀ a a', d (write a) = some a' → a' = a) : x = o := by
  cases o with
  | none => exact h
  | some a =>
    have hread : (d (write a)).map some = some x := by
      rw [← show nullable d (write a) = some x from h]
      have := hwrite a
      cases hw : write a with
      | null => exact absurd hw this
      | _ => rfl
    obtain ⟨a', ha, rfl⟩ := Option.map_eq_some_iff.mp hread
    rw [hd a a' ha]

/-- A part that is read off the entries of a record. -/
theorem of_readOff_obj {names : List String} {ReadOff : Fields → α → Prop}
    (h : ∀ {v a}, d v = some a → ∃ e, record names v = some e ∧ ReadOff e a) {fields : Fields}
    {a : α} (ha : d (.obj fields) = some a) : ReadOff fields a := by
  obtain ⟨e, he, hread⟩ := h ha
  rwa [eq_of_record he] at hread

theorem eq_of_string {s s' : String} (h : string (.str s) = some s') : s' = s :=
  (Option.some.inj h).symm

theorem list_ofStrings (texts : List String) : list string (Json.ofStrings texts) = some texts := by
  show (texts.map Json.str).mapM string = some texts
  induction texts with
  | nil => rfl
  | cons s rest ih =>
    rw [List.map_cons, List.mapM_cons, ih]
    rfl

theorem oneOrMany_ofStrings (texts : List String) :
    oneOrMany (Json.ofStrings texts) = some texts := list_ofStrings texts

/-- Lists of texts by key, as they are written. -/
def textsByKey (m : Assoc (List String)) : Json := .obj (m.mapValues .ofStrings)

/-- They are read back where the keys are in order. -/
theorem sortedMap_textsByKey {m : Assoc (List String)} (h : m.Sorted) :
    sortedMap (list string) (textsByKey m) = some m := by
  have hread : ((m.mapValues Json.ofStrings).mapM fun p =>
      (list string p.2).map fun texts => (p.1, texts)) = some m := by
    clear h
    induction m with
    | nil => rfl
    | cons p rest ih =>
      rw [Assoc.mapValues, List.map_cons, List.mapM_cons]
      simp only [list_ofStrings, Option.map_some, Option.bind_eq_bind, Option.bind_some]
      rw [show (List.map _ rest).mapM _ = some rest from ih]
      rfl
  show (Option.map Assoc.sorted _) = some m
  rw [hread, Option.map_some, h.sorted_eq]

theorem eq_of_natBelow_ofInt {bound n n' : Nat} (h : natBelow bound (Json.ofInt n) = some n') :
    n' = n := by
  unfold Json.ofInt Number.ofInt at h
  split at h
  · simp only [natBelow] at h
    split at h
    · simpa using (Option.some.inj h).symm
    · cases h
  · cases h

end Decode

namespace Layers

variable {α : Type}

/-- Neither null, nor an array, nor an object. -/
def IsPlain (v : Json) : Prop := v.isNull = false ∧ v.asArray? = none ∧ v.asObject? = none

theorem isPlain_str (s : String) : IsPlain (.str s) := ⟨rfl, rfl, rfl⟩

theorem isPlain_bool (b : Bool) : IsPlain (.bool b) := ⟨rfl, rfl, rfl⟩

theorem isPlain_num (n : Number) : IsPlain (.num n) := ⟨rfl, rfl, rfl⟩

theorem IsPlain.ne_null {v : Json} (h : IsPlain v) : v ≠ .null := by
  rintro rfl
  cases h.1

/-- Of two plain values the upper one counts. -/
theorem mergeValue_plain {lower upper : Json} (h : IsPlain upper) :
    mergeValue .deep lower upper = upper := by
  obtain ⟨hnull, harr, hobj⟩ := h
  cases upper with
  | null => cases hnull
  | arr => cases harr
  | obj => cases hobj
  | bool | num | str => cases lower <;> rfl

/-- Lists are joined, the upper one first. -/
theorem mergeValue_ofStrings {rule : Rule} (hrule : rule ≠ .replace) (lower upper : List String) :
    mergeValue rule (.ofStrings lower) (.ofStrings upper) = .ofStrings (upper ++ lower) := by
  have hjoin : mergeValue rule (.ofStrings lower) (.ofStrings upper) =
      .arr (upper.map .str ++ lower.map .str) := by
    cases rule with
    | replace => exact absurd rfl hrule
    | deep | listed => rfl
  rw [hjoin, ← List.map_append]
  rfl

/-- Of two layers that are written alike, `together` says what they are together. -/
theorem overlay_map {rule : Rule} {write : α → Json} (together : α → α → α)
    (hwrite : ∀ a, write a ≠ .null) {lower upper : Option α}
    (h : ∀ a b, lower = some a → upper = some b →
      mergeValue rule (write a) (write b) = write (together a b)) :
    overlay rule (lower.map write) (upper.map write) = (lower.merge together upper).map write := by
  cases upper with
  | none => cases lower <;> rfl
  | some b =>
    cases lower with
    | none =>
      have hnull : (write b).isNull = false := by
        have := hwrite b
        cases hb : write b with
        | null => exact absurd hb this
        | _ => rfl
      simp [overlay, hnull]
    | some a => exact congrArg some (h a b rfl rfl)

end Layers

/-! ### Two written parts -/

namespace Decode

variable {α β : Type} {encode : α → Json} {decode : Decoder α} {lower upper merged : Option α}
  {d : Decoder β} {write : β → Json} {key : String}

/-- `merged` is what is read when `upper` was written over `lower`. -/
def ReadsOver (decode : Decoder α) (encode : α → Json) (lower upper merged : Option α) : Prop :=
  Reads decode (overlay .deep (lower.map encode) (upper.map encode)) merged

/-- `a` is one of two layers. -/
def IsLayer (lower upper : Option α) (a : α) : Prop := lower = some a ∨ upper = some a

/-- Both layers are written as records. -/
def WrittenAsRecords (encode : α → Json) (lower upper : Option α) : Prop :=
  ∀ a, IsLayer lower upper a → IsRecord (encode a)

namespace WrittenAsRecords

theorem of_all (h : ∀ a, IsRecord (encode a)) : WrittenAsRecords encode lower upper :=
  fun a _ => h a

variable (h : WrittenAsRecords encode lower upper)
include h

theorem left {v : Json} (hv : lower.map encode = some v) : IsRecord v := by
  obtain ⟨a, ha, rfl⟩ := Option.map_eq_some_iff.mp hv
  exact h a (.inl ha)

theorem right {v : Json} (hv : upper.map encode = some v) : IsRecord v := by
  obtain ⟨a, ha, rfl⟩ := Option.map_eq_some_iff.mp hv
  exact h a (.inr ha)

/-- A field of both together is what the layers have of it together. -/
theorem overlay_field? {f : α → Option β}
    (hfield : ∀ a, IsLayer lower upper a → (encode a).field? key = (f a).map write)
    (hwrite : ∀ b, write b ≠ .null) :
    (overlay .deep (lower.map encode) (upper.map encode)).bind (·.field? key) =
      overlay (.ofKey key) ((lower.bind f).map write) ((upper.bind f).map write) := by
  have hview (o : Option α) (ho : ∀ a, o = some a → IsLayer lower upper a) :
      (o.map encode).bind (·.field? key) = (o.bind f).map write := by
    cases o with
    | none => rfl
    | some a => exact hfield a (ho a rfl)
  have hupper := hview upper fun _ => .inr
  rw [Layers.overlay_field? (fun _ => h.left) (fun _ => h.right), hview lower fun _ => .inl, hupper]
  rw [hupper]
  intro hnull
  obtain ⟨b, -, hb⟩ := Option.map_eq_some_iff.mp hnull
  exact hwrite b hb

end WrittenAsRecords

namespace ReadsOver

variable (h : ReadsOver decode encode lower upper merged)
  (hrec : WrittenAsRecords encode lower upper)
include h hrec

/-- A field that may be absent is read off what the layers have of it. -/
theorem field {f : α → Option β}
    (hfield : ∀ a, IsLayer lower upper a → (encode a).field? key = (f a).map write)
    (hwrite : ∀ b, write b ≠ .null)
    (hread : ReadsOptional decode key d f) :
    Reads d (overlay (.ofKey key) ((lower.bind f).map write) ((upper.bind f).map write))
      (merged.bind f) := by
  rw [← hrec.overlay_field? hfield hwrite]
  exact Reads.field h (fun _ => isRecord_overlay (fun _ => hrec.left) (fun _ => hrec.right)) hread

/-- A part of a part. -/
theorem part {f : α → Option β}
    (hfield : ∀ a, IsLayer lower upper a → (encode a).field? key = (f a).map write)
    (hkey : Rule.ofKey key = .deep) (hwrite : ∀ b, write b ≠ .null)
    (hread : ReadsOptional decode key d f) :
    ReadsOver d write (lower.bind f) (upper.bind f) (merged.bind f) := by
  unfold ReadsOver
  rw [← hkey]
  exact h.field hrec hfield hwrite hread

/-- A field that may be absent, with a plain value: the upper one counts. -/
theorem bind_eq {f : α → Option β} (hfield : ∀ a, (encode a).field? key = (f a).map write)
    (hkey : Rule.ofKey key = .deep) (hwrite : ∀ b, IsPlain (write b))
    (hback : ∀ b b', d (write b) = some b' → b' = b)
    (hread : ReadsOptional decode key d f) :
    merged.bind f = (upper.bind f).or (lower.bind f) := by
  have hfield := h.field hrec (fun a _ => hfield a) (fun b => (hwrite b).ne_null) hread
  rw [hkey, overlay_map (fun _ b => b) fun b => (hwrite b).ne_null] at hfield
  · rw [hfield.eq_of_written (fun b => (hwrite b).ne_null) hback]
    cases lower.bind f <;> cases upper.bind f <;> rfl
  · exact fun _ b _ _ => mergeValue_plain (hwrite b)

/-- A field that always stands, with a default for when it does not. -/
theorem map_eq (together : β → β → β) {f : α → β} {value : β}
    (hfield : ∀ a, (encode a).field? key = some (write (f a)))
    (hwrite : ∀ b, write b ≠ .null)
    (hmerge : ∀ a b, lower.map f = some a → upper.map f = some b →
      mergeValue (.ofKey key) (write a) (write b) = write (together a b))
    (hback : ∀ b, (lower.map f).merge together (upper.map f) = some b → d (write b) = some b)
    (hread : ReadsDefault decode key d value f) :
    merged.map f = (lower.map f).merge together (upper.map f) := by
  have hview := hrec.overlay_field? (f := some ∘ f) (fun a _ => hfield a) hwrite
  simp only [← Option.map_eq_bind] at hview
  rw [overlay_map together hwrite hmerge] at hview
  cases htogether : (lower.map f).merge together (upper.map f) with
  | none =>
    -- a part always has the field, so there is no part in either layer
    obtain ⟨rfl, rfl⟩ : lower = none ∧ upper = none := by
      cases lower <;> cases upper <;> simp_all
    rw [show merged = none from h]
    rfl
  | some b =>
    rw [htogether] at hview
    obtain ⟨v, hv, hkey⟩ := Option.bind_eq_some_iff.mp hview
    have hread' : Reads decode (some v) merged := hv ▸ h
    obtain ⟨a, fields, rfl, rfl, ha⟩ :=
      hread'.of_record (isRecord_overlay (fun _ => hrec.left) (fun _ => hrec.right) hv)
    have hstands : Assoc.get? fields key = some (write b) := hkey
    have hvalue := hread fields a ha
    rw [withDefault, hstands] at hvalue
    exact hvalue.symm.trans (hback b htogether)

/-- Such a field with a plain value: the upper one counts. -/
theorem map_eq_or {f : α → β} {value : β}
    (hfield : ∀ a, (encode a).field? key = some (write (f a)))
    (hkey : Rule.ofKey key = .deep) (hwrite : ∀ b, IsPlain (write b))
    (hback : ∀ b, d (write b) = some b)
    (hread : ReadsDefault decode key d value f) :
    merged.map f = (upper.map f).or (lower.map f) := by
  have hmerge (a b : β) : mergeValue (.ofKey key) (write a) (write b) = write b :=
    hkey ▸ mergeValue_plain (hwrite b)
  rw [h.map_eq hrec (fun _ b => b) hfield (fun b => (hwrite b).ne_null)
    (fun a b _ _ => hmerge a b) (fun b _ => hback b) hread]
  cases lower <;> cases upper <;> rfl

/-- Such a field with a list of texts: those of the upper one come first. -/
theorem map_eq_join {f : α → List String} {d : Decoder (List String)} {value : List String}
    (hfield : ∀ a, (encode a).field? key = some (.ofStrings (f a)))
    (hkey : Rule.ofKey key ≠ .replace) (hback : ∀ texts, d (.ofStrings texts) = some texts)
    (hread : ReadsDefault decode key d value f) :
    merged.map f = (lower.map f).merge (fun a b => b ++ a) (upper.map f) :=
  h.map_eq hrec (fun a b => b ++ a) hfield (fun _ => Json.noConfusion)
    (fun a b _ _ => mergeValue_ofStrings hkey a b) (fun b _ => hback b) hread

end ReadsOver

end Decode

end SiteScrape
