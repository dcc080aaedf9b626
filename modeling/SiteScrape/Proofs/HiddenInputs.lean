import SiteScrape.Proofs.DeployedSites

/-!
# Definitions without the values of inputs

`Json.hideInputs` empties every text below the inputs of a definition or a layer
and leaves all else as it is. Merging, completing and reading a definition go
by keys and kinds of values, so they commute with it: the site of hidden layers is
the hidden site.
-/

namespace SiteScrape

/-! ### Values by key -/

namespace Assoc

variable {α β : Type}

theorem insert_mapEntries (f : String → α → β) (m : Assoc α) (key : String) (v : α) :
    (m.insert key v).mapEntries f = (m.mapEntries f).insert key (f key v) := by
  induction m with
  | nil => rfl
  | cons p rest ih =>
    by_cases hk : p.1 = key
    · simp [insert, hk]
    · simpa [insert, hk] using ih

theorem split?_mapEntries (f : String → α → β) (m : Assoc α) (key : String) :
    (m.mapEntries f).split? key =
      (m.split? key).map fun (before, v, behind) =>
        (mapEntries f before, f key v, mapEntries f behind) := by
  induction m with
  | nil => rfl
  | cons p rest ih =>
    by_cases hk : p.1 = key
    · simp [split?, hk]
    · simp [split?, hk, ih, Function.comp_def]

theorem take?_mapEntries (f : String → α → β) (m : Assoc α) (key : String) :
    (m.mapEntries f).take? key =
      (m.take? key).map fun (v, others) => (f key v, mapEntries f others) := by
  unfold take?
  rw [split?_mapEntries, Option.map_map, Option.map_map]
  congr 1
  funext ⟨before, v, behind⟩
  simp only [Function.comp_apply]
  unfold mapEntries
  rw [List.getLast?_map]
  cases behind.getLast? <;> simp

theorem place_mapEntries (f : String → α → β) (m : Assoc α) (key : String) (v : α) :
    (m.place key v).mapEntries f = (m.mapEntries f).place key (f key v) := by
  induction m with
  | nil => rfl
  | cons p rest ih =>
    by_cases hk : p.1 = key
    · simp [place, hk]
    · by_cases hlt : key < p.1
      · simp [place, hk, hlt]
      · simpa [place, hk, hlt] using ih

theorem sorted_mapEntries (f : String → α → β) (m : Assoc α) :
    (sorted m).mapEntries f = sorted (m.mapEntries f) := by
  suffices ∀ acc : Assoc α,
      (m.foldl (fun acc p => acc.place p.1 p.2) acc).mapEntries f =
        (m.mapEntries f).foldl (fun acc p => acc.place p.1 p.2) (acc.mapEntries f) from this []
  induction m with
  | nil => exact fun acc => rfl
  | cons p rest ih =>
    intro acc
    rw [List.foldl_cons, ih, place_mapEntries]
    rfl

end Assoc

namespace Layers

open Json

/-- What goes key by key and agrees with merging at each key agrees with merging entries. -/
theorem mapEntries_mergeFields {f : String → Json → Json} {upper : Fields}
    (hnull : ∀ key v, (f key v).isNull = v.isNull)
    (hmerge : ∀ p ∈ upper, ∀ below, f p.1 (mergeValue (.ofKey p.1) below p.2) =
      mergeValue (.ofKey p.1) (f p.1 below) (f p.1 p.2)) (lower : Fields) :
    Assoc.mapEntries f (mergeFields lower upper) =
      mergeFields (Assoc.mapEntries f lower) (Assoc.mapEntries f upper) := by
  induction upper generalizing lower with
  | nil => simp [mergeFields]
  | cons p rest ih =>
    obtain ⟨key, v⟩ := p
    obtain ⟨hv, hrest⟩ := List.forall_mem_cons.mp hmerge
    rw [Assoc.mapEntries_cons, mergeFields_cons, mergeFields_cons, Assoc.take?_mapEntries]
    cases htake : Assoc.take? lower key with
    | some taken =>
      obtain ⟨below, others⟩ := taken
      simp only [Option.map_some]
      rw [ih hrest, Assoc.insert_mapEntries, hv]
    | none =>
      simp only [Option.map_none, hnull]
      split
      · exact ih hrest lower
      · rw [ih hrest, Assoc.insert_mapEntries]

end Layers

/-! ### Emptied texts -/

namespace Json

mutual

/-- A value with every text in it emptied. -/
def blank : Json → Json
  | .str _ => .str ""
  | .arr items => .arr (blankItems items)
  | .obj fields => .obj (blankFields fields)
  | v => v

def blankItems : List Json → List Json
  | [] => []
  | v :: rest => blank v :: blankItems rest

def blankFields : List (String × Json) → List (String × Json)
  | [] => []
  | (key, v) :: rest => (key, blank v) :: blankFields rest

end

theorem blankItems_eq (items : List Json) : blankItems items = items.map blank := by
  induction items with
  | nil => rfl
  | cons v rest ih => exact congrArg (blank v :: ·) ih

theorem blankFields_eq (m : Fields) : blankFields m = Assoc.mapEntries (fun _ => blank) m := by
  induction m with
  | nil => rfl
  | cons p rest ih => exact congrArg ((p.1, blank p.2) :: ·) ih

@[simp] theorem blank_arr (items : List Json) : blank (.arr items) = .arr (items.map blank) :=
  congrArg Json.arr (blankItems_eq items)

@[simp] theorem blank_obj (m : Fields) :
    blank (.obj m) = .obj (Assoc.mapEntries (fun _ => blank) m) :=
  congrArg Json.obj (blankFields_eq m)

@[simp] theorem blank_str (t : String) : blank (.str t) = .str "" := rfl

theorem isNull_blank (v : Json) : (blank v).isNull = v.isNull := by
  cases v <;> rfl

theorem isObject_blank (v : Json) : (blank v).isObject = v.isObject := by
  cases v <;> rfl

theorem asList_blank (v : Json) : Layers.asList (blank v) = (Layers.asList v).map blank := by
  cases v with
  | null | bool | num | str => rfl
  | arr | obj => simp [Layers.asList]

end Json

namespace Layers

open Json

theorem blank_join (rule : Rule) (lower upper : Json) :
    blank (join rule lower upper) = join rule (blank lower) (blank upper) := by
  by_cases hrule : rule = .listed
  · subst hrule
    rw [join_listed, join_listed, asList_blank, asList_blank, blank_arr, List.map_append]
  · rw [join_of_ne_listed hrule, join_of_ne_listed hrule]
    cases lower with
    | arr l =>
      cases upper with
      | arr u => simp
      | null | bool | num | str | obj => rfl
    | null | bool | num | str | obj => rfl

/-- Merging does not look at texts. -/
theorem blank_mergeValue (rule : Rule) (lower upper : Json) :
    blank (mergeValue rule lower upper) = mergeValue rule (blank lower) (blank upper) := by
  obtain ⟨rfl, heq⟩ | ⟨hnull, rfl, heq⟩ | ⟨hrule, l, u, hl, hu, heq⟩ | ⟨hnull, hrule, hobj, heq⟩ :=
    mergeValue_cases rule lower upper
  · rw [heq]
    exact (mergeValue_null rule (blank lower)).symm
  · rw [heq, mergeValue_replace _ (by rwa [isNull_blank])]
  · -- below two objects the upper value gets smaller with every key
    rw [heq, hl, hu, blank_obj, blank_obj, blank_obj, mergeValue_obj_obj hrule]
    refine congrArg Json.obj (mapEntries_mergeFields (fun _ => isNull_blank) (fun p hp below => ?_) l)
    have hlt : sizeOf p.2 < sizeOf upper := hu ▸ sizeOf_lt_of_mem hp
    exact blank_mergeValue (.ofKey p.1) below p.2
  · rw [heq, blank_join, mergeValue_eq_join hrule (by rwa [isNull_blank])
      (by rwa [isObject_blank, isObject_blank])]
termination_by sizeOf upper

end Layers

/-! ### Hidden inputs -/

/-- Entries with every text below the inputs emptied. -/
def Fields.hideInputs (m : Fields) : Fields := m.modify "userInput" Json.blank

namespace Json

/-- A definition, or a layer of one, with every text below its inputs emptied. -/
def hideInputs : Json → Json
  | .obj fields => .obj (Fields.hideInputs fields)
  | v => v

theorem isObject_hideInputs (v : Json) : v.hideInputs.isObject = v.isObject := by
  cases v <;> rfl

theorem isNull_hideInputs (v : Json) : v.hideInputs.isNull = v.isNull := by
  cases v <;> rfl

end Json

namespace Assoc

variable {α : Type} {m : Assoc α} {key other : String} {f g : α → α}

theorem modify_insert (m : Assoc α) (v : α) (h : key ≠ other) :
    (m.insert key v).modify other f = (m.modify other f).insert key v := by
  rw [modify_eq, insert_mapEntries, if_neg h, ← modify_eq]

theorem modify_modify (m : Assoc α) (h : key ≠ other) :
    (m.modify key f).modify other g = (m.modify other g).modify key f := by
  unfold modify
  rw [List.map_map, List.map_map]
  refine List.map_congr_left fun p _ => ?_
  by_cases hk : p.1 = key
  · subst hk
    simp [h]
  · by_cases ho : p.1 = other <;> simp [hk, ho, h.symm]

theorem modify_of_get?_eq_none (h : m.get? key = none) : m.modify key f = m := by
  rw [modify_eq]
  unfold mapEntries
  conv_rhs => rw [← List.map_id m]
  refine List.map_congr_left fun p hp => ?_
  dsimp only
  rw [if_neg fun hk => get?_eq_none_iff.mp h (List.mem_map.mpr ⟨p, hp, hk⟩)]
  rfl

end Assoc

namespace Layers

/-- The hidden layers come to the hidden layer. -/
theorem hideInputs_mergeValue {lower upper : Json} (hl : lower.isObject = true)
    (hu : upper.isObject = true) :
    (mergeValue .deep lower upper).hideInputs =
      mergeValue .deep lower.hideInputs upper.hideInputs := by
  obtain ⟨l, rfl⟩ := isObject_eq_true_iff.mp hl
  obtain ⟨u, rfl⟩ := isObject_eq_true_iff.mp hu
  rw [mergeValue_obj]
  show Json.obj (Assoc.modify (mergeFields l u) "userInput" Json.blank) =
    mergeValue .deep (.obj (Assoc.modify l "userInput" Json.blank))
      (.obj (Assoc.modify u "userInput" Json.blank))
  rw [mergeValue_obj, Assoc.modify_eq, Assoc.modify_eq, Assoc.modify_eq]
  refine congrArg Json.obj (mapEntries_mergeFields (fun key v => ?_) (fun p _ below => ?_) l)
  · split
    · exact Json.isNull_blank v
    · rfl
  · split
    · exact blank_mergeValue _ below p.2
    · rfl

theorem isObject_mergeValue {lower upper : Json} (hl : lower.isObject = true)
    (hu : upper.isObject = true) : (mergeValue .deep lower upper).isObject = true := by
  obtain ⟨l, rfl⟩ := isObject_eq_true_iff.mp hl
  obtain ⟨u, rfl⟩ := isObject_eq_true_iff.mp hu
  rw [mergeValue_obj]
  rfl

end Layers

namespace Definition

open Decode

variable {fields : Fields} {key : String}

theorem get?_hideInputs (m : Fields) (h : key ≠ "userInput") :
    Assoc.get? m.hideInputs key = m.get? key := by
  unfold Fields.hideInputs
  rw [Assoc.get?_modify, if_neg h.symm]

theorem orElse_hideInputs (m : Fields) (v : Json) (h : key ≠ "userInput") :
    orElse m.hideInputs key v = (orElse m key v).hideInputs := by
  unfold orElse Assoc.has
  rw [get?_hideInputs m h]
  split
  · rfl
  · exact (Assoc.modify_insert m v h).symm

theorem hasObject_hideInputs (m : Fields) (h : key ≠ "userInput") :
    hasObject m.hideInputs key = hasObject m key := by
  unfold hasObject
  rw [get?_hideInputs m h]

theorem modify_hideInputs (m : Fields) (f : Json → Json) (h : key ≠ "userInput") :
    Assoc.modify m.hideInputs key f = Fields.hideInputs (m.modify key f) :=
  Assoc.modify_modify m h.symm

theorem spliceCategories_hideInputs (m : Fields) :
    spliceCategories m.hideInputs = (spliceCategories m).hideInputs := by
  unfold spliceCategories
  rw [get?_hideInputs m (by decide), get?_hideInputs m (by decide)]
  split
  · exact (Assoc.modify_insert m _ (by decide)).symm
  · rfl

/-- Completing looks at no input. -/
theorem complete_hideInputs (offset : Option String) (m : Fields) :
    complete offset m.hideInputs = (complete offset m).hideInputs := by
  unfold complete
  rw [modify_hideInputs m plainUrls (by decide),
    modify_hideInputs (m.modify "urls" plainUrls) plainUrls (by decide)]
  dsimp only
  rw [hasObject_hideInputs _ (by decide), hasObject_hideInputs _ (by decide),
    orElse_hideInputs _ _ (by decide), orElse_hideInputs _ _ (by decide),
    orElse_hideInputs _ _ (by decide)]
  cases offset with
  | none => exact spliceCategories_hideInputs _
  | some offset =>
    dsimp only
    rw [orElse_hideInputs _ _ (by decide), spliceCategories_hideInputs]

end Definition

/-! ### Hidden metadata -/

namespace Metadata

/-- Metadata without the values of its inputs. -/
def hidden (m : Metadata) : Metadata :=
  { m with userInput := m.userInput.mapValues fun _ => "" }

end Metadata

namespace Decode

open Assoc

variable {α : Type} {d : Decoder α} {key : String}

theorem string_blank (v : Json) : string v.blank = (string v).map fun _ => "" := by
  cases v <;> rfl

theorem sortedPairs_blank (pairs : Fields) :
    sortedPairs string (pairs.mapEntries fun _ => Json.blank) =
      (sortedPairs string pairs).map fun m => m.mapValues fun _ => "" := by
  have hread : (pairs.mapEntries fun _ => Json.blank).mapM
      (fun p => (string p.2).map fun w => (p.1, w)) =
        (pairs.mapM fun p => (string p.2).map fun w => (p.1, w)).map
          (mapEntries fun _ _ => "") := by
    induction pairs with
    | nil => rfl
    | cons p rest ih =>
      rw [mapEntries_cons, List.mapM_cons, List.mapM_cons, ih, string_blank]
      cases string p.2 with
      | none => rfl
      | some t => cases rest.mapM fun p => (string p.2).map fun w => (p.1, w) <;> rfl
  unfold sortedPairs
  rw [hread, Option.map_map, Option.map_map]
  congr 1
  funext read
  exact (sorted_mapEntries (fun _ _ => "") read).symm

/-- Emptied texts are read as empty texts under the same names. -/
theorem sortedMap_blank (v : Json) :
    sortedMap string v.blank = (sortedMap string v).map fun m => m.mapValues fun _ => "" := by
  cases v with
  | null | bool | num | str | arr => rfl
  | obj pairs =>
    rw [Json.blank_obj]
    exact sortedPairs_blank pairs

theorem record_hideInputs (names : List String) (m : Fields) :
    record names (.obj m.hideInputs) = (record names (.obj m)).map Fields.hideInputs := by
  have hcount (name : String) : (m.hideInputs.filter (·.1 == name)).length =
      (m.filter (·.1 == name)).length := by
    unfold Fields.hideInputs
    rw [modify_eq, mapEntries, List.filter_map, List.length_map]
    rfl
  simp only [record, hcount]
  split <;> rfl

theorem required_hideInputs (m : Fields) (d : Decoder α) (h : key ≠ "userInput") :
    required m.hideInputs key d = required m key d := by
  unfold required
  rw [Definition.get?_hideInputs m h]

theorem withDefault_hideInputs (m : Fields) (d : Decoder α) (value : α) (h : key ≠ "userInput") :
    withDefault m.hideInputs key d value = withDefault m key d value := by
  unfold withDefault
  rw [Definition.get?_hideInputs m h]

theorem withDefault_userInput_hideInputs (m : Fields) :
    withDefault m.hideInputs "userInput" (sortedMap string) [] =
      (withDefault m "userInput" (sortedMap string) []).map fun m => m.mapValues fun _ => "" := by
  unfold withDefault Fields.hideInputs
  rw [get?_modify, if_pos rfl]
  cases m.get? "userInput" with
  | none => rfl
  | some v => exact sortedMap_blank v

end Decode

namespace Metadata

open Decode

variable {α β : Type}

/-- What is read off hidden entries, where `k` hides the first thing read. -/
theorem bind_hidden {x : Option β} {y : Option α} {k : α → β} {f : β → Option Metadata}
    {g : α → Option Metadata} (hx : x = y.map k) (h : ∀ a, f (k a) = (g a).map hidden) :
    (x >>= f) = (y >>= g).map hidden := by
  subst hx
  cases y with
  | none => rfl
  | some a => exact h a

/-- And where it is not hidden. -/
theorem bind_hidden_of_eq {x y : Option α} {f g : α → Option Metadata} (hx : x = y)
    (h : ∀ a, f a = (g a).map hidden) : (x >>= f) = (y >>= g).map hidden :=
  bind_hidden (hx.trans Option.map_id_apply.symm) h

/-- Hidden entries are read as hidden metadata. -/
theorem decode_hideInputs (m : Fields) :
    decode (.obj m.hideInputs) = (decode (.obj m)).map hidden := by
  refine bind_hidden (record_hideInputs _ m) fun e => ?_
  -- field by field: of all that is read, the inputs alone are hidden
  refine bind_hidden_of_eq (required_hideInputs e _ (by decide)) fun _ => ?_
  iterate 12 refine bind_hidden_of_eq (withDefault_hideInputs e _ _ (by decide)) fun _ => ?_
  refine bind_hidden (withDefault_userInput_hideInputs e) fun _ => ?_
  iterate 7 refine bind_hidden_of_eq (withDefault_hideInputs e _ _ (by decide)) fun _ => ?_
  rfl

end Metadata

end SiteScrape
