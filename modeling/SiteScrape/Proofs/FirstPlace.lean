import SiteScrape.Field.Resolve

/-!
# The first place that has something

A field has candidates, and the first at which there is something wins
(`Wins`); a candidate comes to nothing if it leads nowhere, if nothing can be
taken where it leads, or if what is taken counts as nothing (`Loses`). Only the
winner decides: what it yields runs through its filters, and neither the losers
before it nor anything behind it leave a trace. Without a winner there is the
static text, and nothing of the source is left (`resolve_first_place`).
-/

namespace SiteScrape

namespace Field

open SiteScrape.Html (Spot)

variable {r : Resolver} {now : Int} {f g : Field} {source : Source} {candidate name : String}
  {v : Json} {before after : List String}

/-! ### Candidates -/

/-- Something is taken where the candidate leads. -/
def Fills (r : Resolver) (now : Int) (f : Field) (source : Source) (candidate : String)
    (v : Json) : Prop :=
  ∃ place, place? source candidate = some place ∧ takeAt r now f place = some v ∧
    isNothing v = false

/-- Why a candidate comes to nothing. -/
inductive Loses (r : Resolver) (now : Int) (f : Field) (source : Source) (candidate : String) :
    Prop where
  | nowhere (hplace : place? source candidate = none)
  | untaken {place : Source} (hplace : place? source candidate = some place)
      (htake : takeAt r now f place = none)
  | nothing {place : Source} {v : Json} (hplace : place? source candidate = some place)
      (htake : takeAt r now f place = some v) (hv : isNothing v = true)

theorem yield?_eq_some_iff :
    yield? r now f source candidate = some v ↔ f.Fills r now source candidate v := by
  unfold yield? Fills
  rw [Option.filter_eq_some_iff, Option.bind_eq_some_iff]
  constructor
  · rintro ⟨⟨place, hplace, htake⟩, hv⟩
    exact ⟨place, hplace, htake, by simpa using hv⟩
  · rintro ⟨place, hplace, htake, hv⟩
    exact ⟨⟨place, hplace, htake⟩, by simpa using hv⟩

theorem yield?_eq_none_iff :
    yield? r now f source candidate = none ↔ f.Loses r now source candidate := by
  unfold yield?
  constructor
  · intro h
    cases hplace : place? source candidate with
    | none => exact .nowhere hplace
    | some place =>
      rw [hplace, Option.bind_some] at h
      cases htake : takeAt r now f place with
      | none => exact .untaken hplace htake
      | some v =>
        rw [htake, Option.filter_eq_none_iff] at h
        exact .nothing hplace htake (by simpa using h v rfl)
  · rintro (hplace | ⟨hplace, htake⟩ | ⟨hplace, htake, hv⟩)
    · rw [hplace]; rfl
    · rw [hplace, Option.bind_some, htake]; rfl
    · rw [hplace, Option.bind_some, htake, Option.filter_some, hv]; rfl

/-- A text that is no selector leads nowhere on a page. -/
theorem loses_of_unreadable {e : Spot} (hself : candidate ≠ selfPlace)
    (h : Css.Selector.read? candidate = none) : f.Loses r now (.element e) candidate := by
  refine .nowhere ?_
  simp [place?, hself, h]

/-- With a processor that nobody knows, every candidate loses. -/
theorem loses_of_unknown (hname : f.processor = some name) (h : r.processors.get? name = none) :
    f.Loses r now source candidate := by
  cases hplace : place? source candidate with
  | none => exact .nowhere hplace
  | some place => exact .untaken hplace (by simp [takeAt, hname, h])

/-- So does an element that no rule of the field fits. -/
theorem loses_of_unfit {e : Spot} {rules : Fields}
    (hplace : place? source candidate = some (.element e))
    (hprocessor : f.processor = none) (hrules : f.cases = some rules)
    (h : ∀ rule ∈ rules, ruleFits rule.1 e = false) : f.Loses r now source candidate := by
  refine .nothing (v := .null) hplace ?_ rfl
  have hfind : rules.find? (fun rule => ruleFits rule.1 e) = none := by
    simpa using fun key value hmem => h (key, value) hmem
  simp [takeAt, hprocessor, hrules, caseOf, hfind]

/-- And a place whose text is blank. -/
theorem loses_of_blank {place : Source} {s : String} (hplace : place? source candidate = some place)
    (htake : takeAt r now f place = some (.str s)) (h : Text.isBlankText s = true) :
    f.Loses r now source candidate := .nothing hplace htake h

/-! ### The winner -/

/-- The first candidate at which there is something is this one, and `v` is there. -/
structure Wins (r : Resolver) (now : Int) (f : Field) (source : Source) (before : List String)
    (candidate : String) (after : List String) (v : Json) : Prop where
  selectors_eq : f.selectors = before ++ candidate :: after
  loses : ∀ b ∈ before, f.Loses r now source b
  fills : f.Fills r now source candidate v

theorem Wins.winner? (h : f.Wins r now source before candidate after v) :
    f.winner? r now source = some (candidate, v) := by
  unfold Field.winner?
  rw [List.findSome?_eq_some_iff]
  refine ⟨before, candidate, after, h.selectors_eq, ?_, fun b hb => ?_⟩
  · rw [yield?_eq_some_iff.mpr h.fills, Option.map_some]
  · rw [yield?_eq_none_iff.mpr (h.loses b hb), Option.map_none]

theorem winner?_eq_none_iff :
    f.winner? r now source = none ↔ ∀ candidate ∈ f.selectors, f.Loses r now source candidate := by
  unfold winner?
  simp only [List.findSome?_eq_none_iff, Option.map_eq_none_iff, yield?_eq_none_iff]

/-- Some candidate wins, or all lose. -/
theorem exists_wins_or_lose (r : Resolver) (now : Int) (f : Field) (source : Source) :
    (∃ before candidate after v, f.Wins r now source before candidate after v) ∨
      ∀ candidate ∈ f.selectors, f.Loses r now source candidate := by
  cases hwin : f.winner? r now source with
  | none => exact .inr (winner?_eq_none_iff.mp hwin)
  | some found =>
    obtain ⟨before, candidate, after, hselectors, hfound, hbefore⟩ :=
      List.findSome?_eq_some_iff.mp hwin
    obtain ⟨v, hv, -⟩ := Option.map_eq_some_iff.mp hfound
    refine .inl ⟨before, candidate, after, v, hselectors, fun b hb => ?_,
      yield?_eq_some_iff.mp hv⟩
    exact yield?_eq_none_iff.mp (Option.map_eq_none_iff.mp (hbefore b hb))

/-! ### What the rest of a field is for -/

/-- Both fields take the same at every place; they may differ in their
candidates, filters and texts. -/
structure TakesAs (g f : Field) : Prop where
  processor : g.processor = f.processor
  cases : g.cases = f.cases
  data : g.data = f.data
  attr : g.attr = f.attr

theorem TakesAs.takeAt_eq (h : g.TakesAs f) : takeAt r now g = takeAt r now f := by
  funext place
  unfold takeAt
  rw [h.processor, h.cases, h.data, h.attr]

theorem TakesAs.yield?_eq (h : g.TakesAs f) (r : Resolver) (now : Int) (source : Source)
    (candidate : String) : yield? r now g source candidate = yield? r now f source candidate := by
  unfold yield?
  rw [h.takeAt_eq]

theorem TakesAs.loses (h : g.TakesAs f) (hf : f.Loses r now source candidate) :
    g.Loses r now source candidate := by
  rwa [← yield?_eq_none_iff, h.yield?_eq, yield?_eq_none_iff]

theorem TakesAs.fills (h : g.TakesAs f) (hf : f.Fills r now source candidate v) :
    g.Fills r now source candidate v := by
  rwa [← yield?_eq_some_iff, h.yield?_eq, yield?_eq_some_iff]

theorem resolve_of_wins (h : f.Wins r now source before candidate after v) (c : Coercion) :
    f.resolve r now source c = c.finish (r.filters.apply now v (f.filtersAt candidate)) := by
  unfold resolve
  rw [h.winner?]

theorem resolve_of_lose (h : ∀ candidate ∈ f.selectors, f.Loses r now source candidate)
    (c : Coercion) :
    f.resolve r now source c = c.finish (r.filters.apply now f.fallback f.filters) := by
  unfold resolve
  rw [winner?_eq_none_iff.mpr h]

/-- The first candidate at which there is something wins, if there is one. What
it yields runs through the filters of its own or else through those of the field,
and nothing changes with other losers before it, other candidates behind it, other
filters elsewhere or another text. If all candidates lose, the text or else the
empty one runs through the filters of the field, whatever the candidates are, the
filters in their stead, and the source. -/
theorem resolve_first_place (r : Resolver) (now : Int) (f : Field) (source : Source)
    (c : Coercion) :
    (∀ before candidate after v, f.Wins r now source before candidate after v →
      f.resolve r now source c =
          c.finish (r.filters.apply now v ((f.switchFilters.get? candidate).getD f.filters)) ∧
        ∀ (g : Field) (before' after' : List String),
          g.selectors = before' ++ candidate :: after' →
          (∀ b ∈ before', f.Loses r now source b) → g.TakesAs f →
          g.filtersAt candidate = f.filtersAt candidate →
          g.resolve r now source c = f.resolve r now source c) ∧
    ((∀ candidate ∈ f.selectors, f.Loses r now source candidate) →
      f.resolve r now source c =
          c.finish (r.filters.apply now (f.text.getD (.str "")) f.filters) ∧
        ∀ (g : Field) (source' : Source),
          (∀ candidate ∈ g.selectors, g.Loses r now source' candidate) →
          g.text = f.text → g.filters = f.filters →
          g.resolve r now source' c = f.resolve r now source c) ∧
    ((∃ before candidate after v, f.Wins r now source before candidate after v) ∨
      ∀ candidate ∈ f.selectors, f.Loses r now source candidate) := by
  refine ⟨fun before candidate after v hwins => ⟨resolve_of_wins hwins c, ?_⟩,
    fun hlose => ⟨resolve_of_lose hlose c, ?_⟩, exists_wins_or_lose r now f source⟩
  · intro g before' after' hselectors hbefore htakes hfilters
    have hwins' : g.Wins r now source before' candidate after' v :=
      ⟨hselectors, fun b hb => htakes.loses (hbefore b hb), htakes.fills hwins.fills⟩
    rw [resolve_of_wins hwins', resolve_of_wins hwins, hfilters]
  · intro g source' hlose' htext hfilters
    rw [resolve_of_lose hlose', resolve_of_lose hlose, fallback, fallback, htext, hfilters]

/-- A torrent whose label is blank. -/
def filmTorrent : Json :=
  .obj [("id", .str "7"), ("label", .str " \t"), ("kind", .str "Film")]

/-- The label of a torrent, or else its kind in a form of its own. -/
def labelField : Field where
  selectors := ["info.label", "label", "kind", "id"]
  filters := [⟨"trim", []⟩]
  switchFilters := [("kind", [⟨"append", [.str "s"]⟩])]
  text := some (.str "Other")

/-- The same with other candidates around the kind, and without a text. -/
def kindField : Field := { labelField with selectors := ["label", "kind"], text := none }

/-- The same with a candidate that no film has. -/
def infoField : Field := { labelField with selectors := ["info.label"] }

/-- Candidates that come to nothing for a film. -/
theorem loses_of_film : ∀ candidate ∈ ["info.label", "label"],
    labelField.Loses {} 0 (.json filmTorrent) candidate := by
  intro candidate h
  simp only [List.mem_cons, List.not_mem_nil, or_false] at h
  rcases h with rfl | rfl
  · exact .nowhere rfl
  · have hplace : place? (.json filmTorrent) "label" = some (.json (.str " \t")) := rfl
    exact loses_of_blank hplace rfl (by decide)

/-- The blank label of a film makes way for its kind, whatever else stands around
the two, and what shows none of the candidates has the text. -/
theorem resolve_first_place_of_film :
    labelField.Wins {} 0 (.json filmTorrent) ["info.label", "label"] "kind" ["id"] (.str "Film") ∧
      labelField.resolve {} 0 (.json filmTorrent) .numeric = .str "Films" ∧
      kindField.resolve {} 0 (.json filmTorrent) .numeric = .str "Films" ∧
      (∀ candidate ∈ labelField.selectors, labelField.Loses {} 0 (.json .null) candidate) ∧
      labelField.resolve {} 0 (.json .null) .numeric = .str "Other" ∧
      infoField.resolve {} 0 (.json filmTorrent) .numeric = .str "Other" := by
  have hwins : labelField.Wins {} 0 (.json filmTorrent) ["info.label", "label"] "kind" ["id"]
      (.str "Film") := ⟨rfl, loses_of_film, .json (.str "Film"), rfl, rfl, rfl⟩
  have hlose : ∀ candidate ∈ labelField.selectors,
      labelField.Loses {} 0 (.json .null) candidate := by
    intro candidate h
    simp only [labelField, List.mem_cons, List.not_mem_nil, or_false] at h
    rcases h with rfl | rfl | rfl | rfl
    all_goals exact .nowhere rfl
  obtain ⟨hfilm, -⟩ := resolve_first_place {} 0 labelField (.json filmTorrent) .numeric
  obtain ⟨hkind, hother⟩ := hfilm _ _ _ _ hwins
  have hkind : labelField.resolve {} 0 (.json filmTorrent) .numeric = .str "Films" :=
    hkind.trans rfl
  obtain ⟨-, hnull, -⟩ := resolve_first_place {} 0 labelField (.json .null) .numeric
  obtain ⟨htext, helsewhere⟩ := hnull hlose
  have htext : labelField.resolve {} 0 (.json .null) .numeric = .str "Other" :=
    htext.trans rfl
  refine ⟨hwins, hkind, ?_, hlose, htext, ?_⟩
  · refine (hother kindField ["label"] [] rfl ?_ ⟨rfl, rfl, rfl, rfl⟩ rfl).trans hkind
    exact fun b hb => loses_of_film b (List.mem_cons_of_mem _ hb)
  · refine (helsewhere infoField (.json filmTorrent) ?_ rfl rfl).trans htext
    intro candidate h
    obtain rfl := List.mem_singleton.mp h
    exact .nowhere rfl

end Field

end SiteScrape
