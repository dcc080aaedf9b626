import SiteScrape.Proofs.KeyUpdates
import SiteScrape.Proofs.TaggedKeywords

/-!
# Keywords that a tag moves

The rule of a tag can put the keywords at another place of the request. They are
written at the place of the entry, the layer of the rule is laid over them, and
then they are taken out and written at the other place. `overlay_set` says that
a layer over a write shows all that it shows without the write (`Carries`), but
for nulls that only the write gave an object to fall into (`Dropped`).
-/

namespace SiteScrape

open Json (KeysOnce)

namespace Layers

variable {rule : Rule} {x u : Option Json} {p q : List String} {k j : String} {v w : Json}

/-- A null of the upper value beside the way down a path, where the lower value
has no object around it. -/
def Dropped (lower upper : Option Json) (p q : List String) : Prop :=
  ∃ c k, q = c ++ [k] ∧ c <+: p ∧ (∀ m, (lower.bind fun v => v.below? c) ≠ some (.obj m)) ∧
    (upper.bind fun v => v.below? q) = some .null

/-- Nothing or null. -/
def Silent (v : Option Json) : Prop := v = none ∨ v = some .null

theorem not_dropped_of_silent (hu : Silent u) (hq : q ≠ []) : ¬ Dropped x u p q := by
  rintro ⟨-, -, -, -, -, hnull⟩
  obtain ⟨k, q, rfl⟩ := List.exists_cons_of_ne_nil hq
  rcases hu with rfl | rfl <;> cases hnull

/-- What a silent layer is laid over stays as it is. -/
theorem overlay_of_silent (hu : Silent u) (rule : Rule) (x : Option Json) :
    overlay rule x u = x := by
  rcases hu with rfl | rfl
  · exact overlay_none rule x
  · exact overlay_null rule x

/-- The entries of what may be absent. -/
def entriesOf? (x : Option Json) : Fields := (x.getD .null).entries

theorem entriesOf?_of_not_object (h : ∀ l, x ≠ some (.obj l)) : entriesOf? x = [] := by
  match x with
  | none | some .null | some (.bool _) | some (.num _) | some (.str _) | some (.arr _) => rfl
  | some (.obj l) => exact absurd rfl (h l)

theorem keysOnce_entriesOf? (h : ∀ v, x = some v → v.KeysOnce) : (entriesOf? x).KeysOnce := by
  cases x with
  | none => exact Assoc.keysOnce_nil
  | some v => exact (h v rfl).entries

theorem keysOnce_of_entriesOf? (h : ∀ v, x = some v → v.KeysOnce)
    (hv : (entriesOf? x).get? k = some v) : v.KeysOnce := by
  cases x with
  | none => cases hv
  | some u => exact (h u rfl).of_entries hv

theorem bind_below?_cons (x : Option Json) (k : String) (c : List String) :
    (x.bind fun v => v.below? (k :: c)) = ((entriesOf? x).get? k).bind fun v => v.below? c := by
  match x with
  | none | some .null | some (.bool _) | some (.num _) | some (.str _) | some (.arr _)
  | some (.obj _) => rfl

/-- A null is dropped where the paths part, or farther down. -/
theorem dropped_cons_iff {above : Fields} : Dropped x (some (.obj above)) (k :: p) (j :: q) ↔
    (q = [] ∧ (∀ l, x ≠ some (.obj l)) ∧ above.get? j = some .null) ∨
      (k = j ∧ Dropped ((entriesOf? x).get? k) (above.get? k) p q) := by
  constructor
  · rintro ⟨c, a, hq, hc, hlower, hnull⟩
    cases c with
    | nil =>
      obtain ⟨rfl, rfl⟩ := List.cons.inj hq
      refine .inl ⟨rfl, fun l hl => hlower l (by rw [hl]; rfl), ?_⟩
      simpa using hnull
    | cons i c =>
      obtain ⟨rfl, rfl⟩ := List.cons.inj hq
      obtain ⟨rfl, hprefix⟩ := List.cons_prefix_cons.mp hc
      rw [bind_below?_cons] at hnull
      exact .inr ⟨rfl, c, a, rfl, hprefix, fun m => bind_below?_cons x j c ▸ hlower m, hnull⟩
  · rintro (⟨rfl, hx, hnull⟩ | ⟨rfl, c, a, rfl, hc, hlower, hnull⟩)
    · refine ⟨[], j, rfl, List.nil_prefix, fun m hm => ?_, by simpa using hnull⟩
      cases x with
      | none => cases hm
      | some v => exact hx m hm
    · refine ⟨k :: c, a, rfl, List.cons_prefix_cons.mpr ⟨rfl, hc⟩, fun m => ?_, ?_⟩
      · rw [bind_below?_cons]
        exact hlower m
      · rw [bind_below?_cons]
        exact hnull

/-- The entries of an object over a value: those of the two, merged, but for its
nulls where the value is no object. -/
def LaidOver (x : Option Json) (above m : Fields) : Prop :=
  ∀ k, (((∃ l, x = some (.obj l)) ∨ above.get? k ≠ some .null) ∧
      m.get? k = overlay (.ofKey k) ((entriesOf? x).get? k) (above.get? k)) ∨
    ((∀ l, x ≠ some (.obj l)) ∧ above.get? k = some .null ∧ m.get? k = some .null)

/-- An object over what is no object is left as it is. -/
theorem laidOver_of_not_object (hx : ∀ l, x ≠ some (.obj l)) (above : Fields) :
    LaidOver x above above := by
  intro k
  by_cases hnull : above.get? k = some .null
  · exact .inr ⟨hx, hnull, hnull⟩
  · refine .inl ⟨.inr hnull, ?_⟩
    rw [entriesOf?_of_not_object hx, Assoc.get?_nil]
    cases hget : above.get? k with
    | none => rfl
    | some v =>
      refine (overlay_none_left ?_).symm
      exact Bool.eq_false_iff.mpr fun hv => hnull (by rw [hget, eq_null_of_isNull hv])

/-- Where two values together let a way pass, the upper one is silent, or it is an
object. -/
theorem overlay_cases (hrule : rule ≠ .replace) (hx : ∀ v, x = some v → v.KeysOnce)
    (hu : ∀ v, u = some v → v.KeysOnce)
    (h : (overlay rule x u).getD .null = .null ∨ ∃ m, (overlay rule x u).getD .null = .obj m) :
    Silent u ∨ ∃ above m : Fields,
      u = some (.obj above) ∧ overlay rule x u = some (.obj m) ∧ LaidOver x above m := by
  cases u with
  | none => exact .inl (.inl rfl)
  | some y =>
    cases hy : y.isNull with
    | true =>
      obtain rfl := eq_null_of_isNull hy
      exact .inl (.inr rfl)
    | false =>
      -- what stands in place of the upper value is an object, for it is not null
      have hobj {z : Json} (hz : z.isNull = false) (h : z = .null ∨ ∃ m, z = .obj m) :
          ∃ m, z = .obj m := h.resolve_left fun hnull => by rw [hnull] at hz; cases hz
      cases x with
      | none =>
        rw [overlay_none_left hy] at h ⊢
        obtain ⟨m, rfl⟩ := hobj hy h
        exact .inr ⟨m, m, rfl, rfl, laidOver_of_not_object (by simp) m⟩
      | some a =>
        rw [overlay_some, Option.getD_some] at h
        rw [overlay_some]
        obtain ⟨m, hm⟩ := hobj (isNull_mergeValue rule a hy) h
        obtain ⟨hlower, rfl⟩ | ⟨l, above, rfl, rfl, rfl⟩ := mergeValue_eq_obj hrule hy hm
        · refine .inr ⟨m, m, rfl, by rw [hm], laidOver_of_not_object ?_ m⟩
          rintro l ⟨⟩
          cases hlower
        · have hview := view_mergeFields (hx _ rfl).fields (hu _ rfl).fields
          exact .inr ⟨above, _, rfl, by rw [hm], fun k => .inl ⟨.inl ⟨l, rfl⟩, hview.2 k⟩⟩

/-- The same value, unless it is a null that is dropped. -/
def DropsOnly (dropped : Prop) (before after : Option Json) : Prop :=
  (dropped → before = some .null ∧ after = none) ∧ (¬ dropped → after = before)

open SiteScrape.Path

variable {above m : Fields}

theorem LaidOver.getD_get? (h : LaidOver x above m) (k : String) :
    (m.get? k).getD .null =
      (overlay (.ofKey k) ((entriesOf? x).get? k) (above.get? k)).getD .null := by
  obtain ⟨-, hk⟩ | ⟨hx, hnull, hk⟩ := h k
  · rw [hk]
  · rw [hk, hnull, overlay_null, entriesOf?_of_not_object hx]
    rfl

/-- A null that stood alone is not among the entries merged. -/
theorem LaidOver.dropsOnly (h : LaidOver x above m) (j : String) (q : List String) :
    DropsOnly (q = [] ∧ (∀ l, x ≠ some (.obj l)) ∧ above.get? j = some .null)
      ((m.get? j).bind (get? (ofKeys q)))
      ((overlay (.ofKey j) ((entriesOf? x).get? j) (above.get? j)).bind (get? (ofKeys q))) := by
  obtain ⟨hfalls, hj⟩ | ⟨hx, hnull, hj⟩ := h j
  · refine ⟨?_, fun _ => by rw [hj]⟩
    rintro ⟨-, hx, hnull⟩
    rcases hfalls with ⟨l, hl⟩ | hfalls
    · exact absurd hl (hx l)
    · exact absurd hnull hfalls
  · rw [hj, hnull, overlay_null, entriesOf?_of_not_object hx]
    refine ⟨fun h => ⟨by rw [h.1]; rfl, rfl⟩, fun hkept => ?_⟩
    have hq : q ≠ [] := fun hq => hkept ⟨hq, hx, rfl⟩
    exact (get?_null (ofKeys_ne_nil hq)).symm

/-- What a layer over a value comes to with a write below it: what was written is
there, and apart from it stands what the layer and the value make up without the
write, but for the nulls that are dropped. -/
structure Carries (rule : Rule) (x u : Option Json) (p : List String) (w v : Json) : Prop where
  overlay_eq : overlay rule (some (set (ofKeys p) (x.getD .null) w)) u = some v
  below? : v.below? p = some w
  apart : ∀ q, Apart p q → DropsOnly (Dropped x u p q)
    ((overlay rule x u).bind (get? (ofKeys q))) (get? (ofKeys q) v)

/-- A layer that is silent as a whole leaves a write as it is. -/
theorem carries_of_silent (hu : Silent u) (hleads : Leads (ofKeys p) (x.getD .null)) (w : Json) :
    Carries rule x u p w (set (ofKeys p) (x.getD .null) w) where
  overlay_eq := overlay_of_silent hu _ _
  below? := below?_set _ _ _
  apart q hq := by
    refine ⟨fun h => absurd h (not_dropped_of_silent hu hq.symm.ne_nil), fun _ => ?_⟩
    rw [overlay_of_silent hu, bind_get? (ofKeys_ne_nil hq.symm.ne_nil), get?_set_ofKeys hq hleads]

/-- Entries over others, one of which was written. -/
theorem get?_mergeFields_insert {below : Fields} (hbelow : below.KeysOnce)
    (habove : above.KeysOnce) (k : String) (v : Json) (i : String) :
    Assoc.get? (mergeFields (below.insert k v) above) i =
      overlay (.ofKey i) (if k = i then some v else below.get? i) (above.get? i) := by
  rw [(view_mergeFields (hbelow.insert k v) habove).2, Assoc.get?_insert]

/-- An object over a value carries what its entry carries over the entry below it. -/
theorem Carries.cons (h : Carries (.ofKey k) ((entriesOf? x).get? k) (above.get? k) p w v)
    (hrule : rule ≠ .replace) (hx : (entriesOf? x).KeysOnce) (habove : above.KeysOnce)
    (heq : overlay rule x (some (.obj above)) = some (.obj m)) (hlaid : LaidOver x above m) :
    Carries rule x (some (.obj above)) (k :: p) w (.obj (mergeFields
      ((entriesOf? x).insert k (set (ofKeys p) (((entriesOf? x).get? k).getD .null) w)) above)) where
  overlay_eq := by
    rw [overlay_some, ofKeys_cons, set_key, mergeValue_obj_obj hrule]
    rfl
  below? := by
    rw [Json.below?_cons, Json.field?_obj, get?_mergeFields_insert hx habove, if_pos rfl,
      h.overlay_eq, Option.bind_some, h.below?]
  apart q hq := by
    obtain ⟨j, q, rfl⟩ := List.exists_cons_of_ne_nil hq.symm.ne_nil
    have hbase : (some (Json.obj m)).bind (get? (ofKeys (j :: q))) =
        (m.get? j).bind (get? (ofKeys q)) := rfl
    have hread (fields : Fields) : get? (ofKeys (j :: q)) (.obj fields) =
        (fields.get? j).bind (get? (ofKeys q)) := rfl
    rw [heq, hbase, hread, get?_mergeFields_insert hx habove, dropped_cons_iff]
    by_cases hkj : k = j
    · subst hkj
      have hapart : Apart p q := apart_cons_self.mp hq
      have hsame := (hlaid.dropsOnly k q).2 fun h => hapart.symm.ne_nil h.1
      rw [if_pos rfl, h.overlay_eq, ← hsame]
      simpa [hapart.symm.ne_nil] using h.apart q hapart
    · rw [if_neg hkj]
      simpa [hkj] using hlaid.dropsOnly j q

/-- A layer over a value with a write in it, at a path where the layer is silent,
carries what was written. -/
theorem overlay_set (hmerging : Merging p) (hrule : rule ≠ .replace)
    (hx : ∀ v, x = some v → v.KeysOnce) (hu : ∀ v, u = some v → v.KeysOnce)
    (hleads : Leads (ofKeys p) ((overlay rule x u).getD .null))
    (hsilent : Silent (u.bind fun v => v.below? p)) (w : Json) :
    ∃ v, Carries rule x u p w v := by
  induction p generalizing x u rule with
  | nil =>
    have hu : Silent u := by simpa using hsilent
    exact ⟨_, carries_of_silent (p := []) hu (leads_nil _) w⟩
  | cons k p ih =>
    obtain ⟨hk, hmerging⟩ := List.forall_mem_cons.mp hmerging
    have hnode : (overlay rule x u).getD .null = .null ∨
        ∃ m, (overlay rule x u).getD .null = .obj m :=
      leads_ofKeys_iff.mp hleads [] k (by simp [List.cons_prefix_cons]) _ rfl
    obtain hquiet | ⟨above, m, rfl, heq, hlaid⟩ := overlay_cases hrule hx hu hnode
    · rw [overlay_of_silent hquiet] at hleads
      exact ⟨_, carries_of_silent hquiet hleads w⟩
    · have hbelow : Leads (ofKeys p) ((m.get? k).getD .null) := by
        rw [heq] at hleads
        exact hleads.tail
      obtain ⟨v, hv⟩ := ih hmerging hk
        (fun v hv => keysOnce_of_entriesOf? hx hv) (fun v hv => (hu _ rfl).get? hv)
        (hlaid.getD_get? k ▸ hbelow) (by rwa [bind_below?_cons] at hsilent)
      exact ⟨_, hv.cons hrule (keysOnce_entriesOf? hx) (hu _ rfl).fields heq hlaid⟩

end Layers

namespace Site

open Layers SiteScrape.Path

variable {s : Site} {e : SearchEntry} {rule : TaggedKeywords} {tag text : String}
  {p t : List String}

/-- The request of an entry without keywords. -/
def plainRequest (e : SearchEntry) : Json := layered requestSeed e.requestConfig

/-- The request of an entry and of the rule of a tag, without keywords. -/
def mergedRequest (e : SearchEntry) (rule : TaggedKeywords) : Json :=
  layered (plainRequest e) rule.requestConfig

/-- A rule that puts the keywords of an entry at another path of keys, and says
nothing itself where they were. -/
structure Moves (e : SearchEntry) (rule : TaggedKeywords) (p t : List String) : Prop where
  enabled : rule.enabled ≠ some false
  source : ofText e.keywordsAt = ofKeys p
  target : ∃ path, rule.keywordPath = some path ∧ ofText path = ofKeys t
  apart : Apart p t
  transformer : e.transformer = none ∧ rule.transformer = none
  merging : Merging p
  keysOnce : ∀ v, e.requestConfig = some v ∨ rule.requestConfig = some v → v.KeysOnce
  silent : Silent (rule.requestConfig.bind (get? (ofKeys p)))
  leads : Leads (ofKeys p) (mergedRequest e rule) ∧ Leads (ofKeys t) (mergedRequest e rule)

theorem overlay_layered (x : Json) (layer : Option Json) :
    overlay .deep (some x) layer = some (layered x layer) := by
  cases layer <;> rfl

theorem keysOnce_layered {x : Json} {layer : Option Json} (hx : x.KeysOnce)
    (hlayer : ∀ v, layer = some v → v.KeysOnce) : (layered x layer).KeysOnce := by
  cases layer with
  | none => exact hx
  | some v => exact keysOnce_mergeValue .deep hx (hlayer v rfl)

theorem Moves.keysOnce_plainRequest (h : Moves e rule p t) : (plainRequest e).KeysOnce :=
  keysOnce_layered (Json.keysOnce_of_distinct_eq rfl) fun v hv => h.keysOnce v (.inl hv)

theorem Moves.silent_below? (h : Moves e rule p t) :
    Silent (rule.requestConfig.bind fun v => v.below? p) := by
  cases hbelow : rule.requestConfig.bind fun v => v.below? p with
  | none => exact .inl rfl
  | some w =>
    obtain ⟨v, hv, hw⟩ := Option.bind_eq_some_iff.mp hbelow
    have hsilent := h.silent
    rwa [hv, Option.bind_some, get?_of_below? hw] at hsilent

/-- With the keywords in it, the merged request has them at their path. -/
theorem Moves.exists_layered (h : Moves e rule p t) (w : Json) :
    ∃ v, layered (set (ofKeys p) (plainRequest e) w) rule.requestConfig = v ∧
      v.below? p = some w ∧ ∀ q, Apart p q →
        DropsOnly (Dropped (some (plainRequest e)) rule.requestConfig p q)
          (get? (ofKeys q) (mergedRequest e rule)) (get? (ofKeys q) v) := by
  have hx : ∀ v, some (plainRequest e) = some v → v.KeysOnce := by
    rintro _ ⟨⟩
    exact h.keysOnce_plainRequest
  have hleads : Leads (ofKeys p)
      ((overlay .deep (some (plainRequest e)) rule.requestConfig).getD .null) := by
    rw [overlay_layered]
    exact h.leads.1
  obtain ⟨v, hv, hw, hkept⟩ := overlay_set h.merging (by decide) hx
    (fun v hv => h.keysOnce v (.inr hv)) hleads h.silent_below? w
  rw [Option.getD_some, overlay_layered] at hv
  rw [overlay_layered] at hkept
  exact ⟨v, Option.some.inj hv, hw, hkept⟩

/-- The request for keywords with a tag whose rule moves them. -/
theorem Moves.searchRequest?_eq {keywords : String} {w rest : Json} (h : Moves e rule p t)
    (hrule : e.keywordRules.get? tag = some (.described rule))
    (htagged : Keywords.tagged? (Text.trim keywords) = some (tag, text)) (htext : text ≠ "")
    (hrest : remove? (ofKeys p) (layered (set (ofKeys p) (plainRequest e) (.str text))
      rule.requestConfig) = some (w, rest)) :
    s.searchRequest? keywords e = some (set (ofKeys t) rest w) := by
  have henabled : (KeywordRule.described rule).isEnabled = true := by
    have henabled := h.enabled
    cases hflag : rule.enabled with
    | none => simp [KeywordRule.isEnabled, hflag]
    | some flag => cases flag <;> simp_all [KeywordRule.isEnabled]
  have hfilled : requestFor e text = set (ofKeys p) (plainRequest e) (.str text) := by
    rw [requestFor, if_neg (by simpa using htext), Json.setAt, h.source]
    rfl
  obtain ⟨target, htarget, hpath⟩ := h.target
  obtain ⟨he, htransformer⟩ := h.transformer
  rw [searchRequest?_of_tagged htagged, hrule, Option.any_some, henabled, he, hfilled]
  simp only [Bool.not_true, Bool.false_eq_true, if_false, Option.bind_some, KeywordRule.entry?,
    applyTag, htarget, Json.removeAt?, h.source, hrest, Json.setAt, hpath, htransformer, transform,
    Option.bind_none]

/-- Keywords with a tag whose rule moves them: they stand where the rule says and
no longer where the entry says. Apart from both places the request is that of
the entry and the rule, but for nulls of the rule on the way to where the
keywords were, where the entry has no object around them: these are gone. -/
theorem searchRequest?_moves_keywords (htag : Keywords.IsTag tag)
    (hrule : e.keywordRules.get? tag = some (.described rule)) (hmoves : Moves e rule p t)
    (hbreaks : ¬ Keywords.Breaks text) (htext : Text.isBlankText text = false) :
    ∃ request, s.searchRequest? (tag ++ "|" ++ text) e = some request ∧
      get? (ofKeys t) request = some (.str (Text.trim text)) ∧
      get? (ofKeys p) request = none ∧
      ∀ q, Apart p q → Apart t q →
        DropsOnly (Dropped (some (plainRequest e)) rule.requestConfig p q)
          (get? (ofKeys q) (mergedRequest e rule)) (get? (ofKeys q) request) := by
  have htagged : Keywords.tagged? (Text.trim (tag ++ "|" ++ text)) =
      some (tag, Text.trim text) := by
    have hnone : Text.isBlankText "" = true := rfl
    have h := Keywords.tagged?_trim htag hnone hnone text
    rwa [if_neg (mt (Keywords.mem_trimRight_iff_breaks text).mp hbreaks), String.empty_append,
      String.append_empty] at h
  have hne : Text.trim text ≠ "" := by
    rw [ne_eq, Text.trim_eq_empty_iff, htext]
    exact Bool.false_ne_true
  -- the layer of the rule, then the move
  obtain ⟨v, hv, hbelow, hkept⟩ := hmoves.exists_layered (.str (Text.trim text))
  have honce : v.KeysOnce := hv ▸ keysOnce_layered
    (keysOnce_set hmoves.keysOnce_plainRequest (Json.keysOnce_of_not_object rfl) p)
    fun v hv => hmoves.keysOnce v (.inr hv)
  have hleads : Leads (ofKeys t) v := by
    refine hmoves.leads.2.of_apart hmoves.apart (fun c => exists_obj_of_prefix hbelow) ?_
    intro c u hc hu
    by_cases hdropped : Dropped (some (plainRequest e)) rule.requestConfig p c
    · rw [((hkept c hc).1 hdropped).2] at hu
      cases hu
    · rw [← (hkept c hc).2 hdropped, hu]
  obtain ⟨rest, hrest, hgone, hmoved⟩ := exists_moved honce hbelow hmoves.apart hleads
  refine ⟨_, hmoves.searchRequest?_eq hrule htagged hne (hv ▸ hrest), get?_set _ _ _, hgone, ?_⟩
  intro q hp ht
  rw [hmoved q hp ht]
  exact hkept q hp

end Site

namespace Sample

open SiteScrape.Path

/-- Keywords that begin with `imdb|` are asked for under a name of their own, with
a parameter more and one that is left open. -/
def imdbRule : TaggedKeywords where
  keywordPath := some "query.imdb"
  requestConfig := some (.obj [("query", .obj [("area", .ofInt 4), ("lang", .null)])])

def imdbEntry : SearchEntry where
  keywordPath := some "query.q"
  keywordRules := [("imdb", .described imdbRule)]

def imdbSite : Site where
  metadata := { id := "demo", search := some imdbEntry }

theorem isTag_imdb : Keywords.IsTag "imdb" := ⟨by decide, List.all_eq_true.mp (by decide)⟩

theorem apart_query {k j : String} (h : k ≠ j) : Apart ["query", k] ["query", j] := by
  simp [Apart, List.cons_prefix_cons, h, h.symm]

theorem imdbRule_moves : Site.Moves imdbEntry imdbRule ["query", "q"] ["query", "imdb"] where
  enabled := by decide
  source := by decide
  target := ⟨_, rfl, by decide⟩
  apart := apart_query (by decide)
  transformer := ⟨rfl, rfl⟩
  merging := by unfold Layers.Merging; decide
  keysOnce := by
    rintro _ (⟨⟨⟩⟩ | ⟨⟨⟩⟩)
    exact Json.keysOnce_of_distinct_eq rfl
  silent := .inl rfl
  leads := by
    have hleads (k : String) :
        Leads (ofKeys ["query", k]) (Site.mergedRequest imdbEntry imdbRule) :=
      leads_cons (.inr (.object ..)) (leads_cons (.inr (.object ..)) (leads_nil _))
    exact ⟨hleads "q", hleads "imdb"⟩

end Sample

namespace Site

open SiteScrape.Path

/-- The other parameter of the rule is in the request. -/
theorem searchRequest?_moves_imdb :
    Moves Sample.imdbEntry Sample.imdbRule ["query", "q"] ["query", "imdb"] ∧
      ∃ request, Sample.imdbSite.searchRequest? "imdb| tt0133093 " Sample.imdbEntry = some request ∧
        get? (ofKeys ["query", "imdb"]) request = some (.str "tt0133093") ∧
        get? (ofKeys ["query", "q"]) request = none ∧
        get? (ofKeys ["query", "area"]) request = some (.ofInt 4) := by
  have hbreaks : ¬ Keywords.Breaks " tt0133093 " := by
    rw [← Keywords.mem_trimRight_iff_breaks]
    decide
  obtain ⟨request, hrequest, hmoved, hgone, hkept⟩ := searchRequest?_moves_keywords
    (s := Sample.imdbSite) Sample.isTag_imdb rfl Sample.imdbRule_moves hbreaks (by decide)
  have htrim : Text.trim " tt0133093 " = "tt0133093" := by decide
  refine ⟨Sample.imdbRule_moves, request, hrequest, htrim ▸ hmoved, hgone, ?_⟩
  refine ((hkept ["query", "area"] (Sample.apart_query (by decide))
    (Sample.apart_query (by decide))).2 ?_).trans rfl
  rintro ⟨-, -, -, -, -, hnull⟩
  cases hnull

/-- The parameter that is left open is null in the merged request and absent from
the one that is sent. -/
theorem moved_keywords_drop_null :
    let request : Json := .obj [("url", .str "/"), ("responseType", .str "document"),
      ("params", .obj []), ("data", .obj []),
      ("query", .obj [("area", .ofInt 4), ("imdb", .str "tt0133093")])]
    Moves Sample.imdbEntry Sample.imdbRule ["query", "q"] ["query", "imdb"] ∧
      Keywords.IsTag "imdb" ∧
      Sample.imdbEntry.keywordRules.get? "imdb" = some (.described Sample.imdbRule) ∧
      Apart ["query", "q"] ["query", "lang"] ∧ Apart ["query", "imdb"] ["query", "lang"] ∧
      Sample.imdbSite.searchRequest? ("imdb" ++ "|" ++ "tt0133093") Sample.imdbEntry =
        some request ∧
      get? (ofKeys ["query", "lang"]) (mergedRequest Sample.imdbEntry Sample.imdbRule) =
        some .null ∧
      get? (ofKeys ["query", "lang"]) request = none := by
  intro request
  have htagged : Keywords.tagged? (Text.trim ("imdb" ++ "|" ++ "tt0133093")) =
      some ("imdb", "tt0133093") := by decide
  refine ⟨Sample.imdbRule_moves, Sample.isTag_imdb, rfl, Sample.apart_query (by decide),
    Sample.apart_query (by decide), ?_, rfl, rfl⟩
  exact Sample.imdbRule_moves.searchRequest?_eq rfl htagged (by decide) rfl

end Site

end SiteScrape
