import SiteScrape.Filter.Text
import SiteScrape.Proofs.WrittenUrls
import SiteScrape.Transport.Request

/-!
# Parameters in addresses

The parameters of a request are carried by the address that it is sent to: its
query has the pairs of the address without parameters and then a pair for each
value that is given (`given`), and so it is read again off the text of the
address. A name that the address itself does not use stands for the first value
given for it (`fullUrl_carries_params`).
-/

namespace SiteScrape

namespace Url

variable {u : Url} {k : SchemeKind} {query : Option String} {pairs : List (String × String)}

/-! ### Queries with further pairs -/

theorem keepInQuery_of_isKept {c : Char} (h : (Query.isKept c || c = '%') = true) :
    keepInQuery k c = true := by
  have hlt : c.toNat < 128 := by
    simp only [Query.isKept, Bool.or_eq_true, decide_eq_true_eq] at h
    rcases h with ((((halnum | rfl) | rfl) | rfl) | rfl) | rfl
    · exact Text.toNat_lt_of_isAlphanum halnum
    all_goals decide
  obtain ⟨hweb, hfile, hother⟩ := Text.forall_ascii
    (p := fun c => (Query.isKept c || c = '%') = true →
      keepInQuery .web c = true ∧ keepInQuery .file c = true ∧ keepInQuery .other c = true)
    (by decide +kernel) hlt h
  cases k with
  | web => exact hweb
  | file => exact hfile
  | other => exact hother

theorem keepInQuery_of_mem_encodeText {s : String} {c : Char}
    (hc : c ∈ (Query.encodeText s).toList) : keepInQuery k c = true := by
  rcases Query.isKept_of_mem_encodeText hc with hkept | rfl
  · exact keepInQuery_of_isKept hkept
  · cases k <;> decide

theorem keepInQuery_of_mem_encodePair {pair : String × String} {c : Char}
    (hc : c ∈ (Query.encodePair pair).toList) : keepInQuery k c = true := by
  rw [Query.toList_encodePair] at hc
  rcases List.mem_append.mp hc with hc | hc
  · exact keepInQuery_of_mem_encodeText hc
  rcases List.mem_cons.mp hc with rfl | hc
  · cases k <;> decide
  · exact keepInQuery_of_mem_encodeText hc

/-- A query stays escaped under further pairs. -/
theorem keepInQuery_of_mem_append
    (hquery : ∀ q, query = some q → ∀ c ∈ q.toList, keepInQuery k c = true) :
    ∀ q, Query.append query pairs = some q → ∀ c ∈ q.toList, keepInQuery k c = true := by
  have hwritten : ∀ s ∈ pairs.map Query.encodePair, ∀ c ∈ s.toList, keepInQuery k c = true := by
    intro s hs c hc
    obtain ⟨pair, -, rfl⟩ := List.mem_map.mp hs
    exact keepInQuery_of_mem_encodePair hc
  have hjoined {parts : List String} (h : ∀ s ∈ parts, ∀ c ∈ s.toList, keepInQuery k c = true) :
      ∀ c ∈ ("&".intercalate parts).toList, keepInQuery k c = true := by
    intro c hc
    rw [String.toList_intercalate] at hc
    rcases Text.of_mem_intercalate hc with rfl | ⟨l, hl, hc⟩
    · cases k <;> decide
    · obtain ⟨s, hs, rfl⟩ := List.mem_map.mp hl
      exact h s hs c hc
  intro q hq
  unfold Query.append at hq
  split at hq
  · exact hquery q hq
  dsimp only at hq
  split at hq
  · next q' =>
    cases hq
    refine hjoined ?_
    split
    · exact hwritten
    · exact List.forall_mem_cons.mpr ⟨hquery q' rfl, hwritten⟩
  · cases hq
    exact hjoined hwritten

theorem Escaped.withPairs (h : Escaped u) (pairs : List (String × String)) :
    Escaped (u.withPairs pairs) :=
  h.withQuery (keepInQuery_of_mem_append h.query)

theorem queryPairs_withPairs (u : Url) (pairs : List (String × String)) :
    (u.withPairs pairs).queryPairs = u.queryPairs ++ pairs :=
  Query.decode_append pairs u.query

/-- The pairs of a query are read again off the text of its URL. -/
theorem Escaped.exists_queryPairs_text (h : Escaped u) :
    ∃ sent, parse u.text = .ok sent ∧ sent.queryPairs = u.queryPairs := by
  obtain ⟨sent, hsent, hquery⟩ := exists_parse_text h
  exact ⟨sent, hsent, by rw [queryPairs, hquery, queryPairs]⟩

theorem parameter?_text (h : Escaped u) (name : String) : parameter? u.text [name] =
    (u.queryPairs.find? (·.1 == name)).map (·.2) := by
  obtain ⟨sent, hsent, hpairs⟩ := h.exists_queryPairs_text
  unfold parameter?
  rw [hsent, ← hpairs]
  simp

end Url

namespace Request

variable {r : Request} {u : Url} {params : Fields}

/-! ### Requests -/

theorem escaped_of_target (h : r.target = .ok u) : u.Escaped := by
  unfold target at h
  split at h
  · next hurl =>
    cases h
    exact Url.escaped_of_parse hurl
  · split at h
    · next base hbase =>
      split at h
      · next hjoin =>
        cases h
        obtain ⟨text, -, hbase⟩ := Option.bind_eq_some_iff.mp hbase
        exact Url.escaped_of_join (Url.escaped_of_parse? hbase) hjoin
      · cases h
    · cases h
  · cases h

/-- What a parameter gives: the items of an array or else its value, and null not
at all. -/
def given (v : Json) : List Json :=
  (match v with
    | .arr items => items
    | v => [v]).filter fun v => !v.isNull

/-- What is given for a name. -/
def givenFor (params : Fields) (name : String) : List Json :=
  params.flatMap fun (key, v) => if key = name then given v else []

theorem pairsOf_eq (key : String) (v : Json) :
    pairsOf key v = (given v).map fun item => (key, item.asText) := by
  cases v <;> rfl

theorem queryPairs_eq (params : Fields) : queryPairs params =
    params.flatMap fun (key, v) => (given v).map fun item => (key, item.asText) := by
  simp only [queryPairs, pairsOf_eq]

/-- A name stands for the first value given for it. -/
theorem find?_queryPairs (params : Fields) (name : String) :
    ((queryPairs params).find? (·.1 == name)).map (·.2) =
      (givenFor params name).head?.map Json.asText := by
  have hpairs : ((queryPairs params).filter (·.1 == name)).map (·.2) =
      (givenFor params name).map Json.asText := by
    rw [queryPairs_eq, givenFor, List.filter_flatMap, List.map_flatMap, List.map_flatMap]
    refine List.flatMap_congr fun param _ => ?_
    by_cases hkey : param.1 = name <;> simp [hkey, List.filter_map, Function.comp_def]
  rw [← List.head?_filter, ← List.head?_map, ← List.head?_map, hpairs]

/-- The address of a request carries its parameters. -/
theorem fullUrl_carries_params (h : r.fullUrl = .ok u) :
    ∃ plain, fullUrl { r with params := [] } = .ok plain ∧
      u.queryPairs = plain.queryPairs ++
        (r.params.flatMap fun (key, v) => (given v).map fun item => (key, item.asText)) ∧
      (∃ sent, Url.parse u.text = .ok sent ∧ sent.queryPairs = u.queryPairs) ∧
      ∀ name, (∀ pair ∈ plain.queryPairs, pair.1 ≠ name) →
        Url.parameter? u.text [name] = (givenFor r.params name).head?.map Json.asText ∧
        Filter.queryParameter (.str u.text) [.str name] =
          .str (((givenFor r.params name).head?.map Json.asText).getD "") := by
  unfold fullUrl at h
  cases htarget : r.target with
  | error e =>
    rw [htarget] at h
    cases h
  | ok plain =>
    rw [htarget] at h
    cases h
    have hescaped := (escaped_of_target htarget).withPairs (queryPairs r.params)
    have hpairs := plain.queryPairs_withPairs (queryPairs r.params)
    refine ⟨plain, ?_, by rw [hpairs, queryPairs_eq], hescaped.exists_queryPairs_text,
      fun name hnew => ?_⟩
    · change r.target.map (fun u => u.withPairs (queryPairs [])) = .ok plain
      rw [htarget]
      rfl
    · have hparameter : Url.parameter? (plain.withPairs (queryPairs r.params)).text [name] =
          (givenFor r.params name).head?.map Json.asText := by
        have hnone : plain.queryPairs.find? (·.1 == name) = none :=
          List.find?_eq_none.mpr fun pair hpair => by simpa using hnew pair hpair
        rw [Url.parameter?_text hescaped, hpairs, List.find?_append, hnone, Option.none_or,
          find?_queryPairs]
      refine ⟨hparameter, ?_⟩
      unfold Filter.queryParameter
      exact congrArg (fun value => Json.str (value.getD "")) hparameter

end Request

namespace Sample

/-- A page that is found by query, with a page number and a place in it. -/
def findRequest (params : Fields) : Request where
  url := "/find?page=1#top"
  params := params
  baseUrl := some "https://t.example"

def findUrl : Url where
  scheme := "https"
  host := some (.name "t.example")
  path := .segments ["find"]
  query := some "page=1"
  fragment := some "top"

/-- A text with reserved characters, a null, and an array. -/
def findParams : Fields :=
  [("q", .str "a b&\u00fc=#"), ("sort", .null), ("ids", .arr [.null, .str "7", .bool true])]

theorem fullUrl_findRequest (params : Fields) : (findRequest params).fullUrl =
    .ok (findUrl.withPairs (Request.queryPairs params)) := by
  have hrelative : Url.parse "/find?page=1#top" = .error .relativeWithoutBase := by rfl
  have hjoin : Url.join homeUrl "/find?page=1#top" = .ok findUrl := by rfl
  have htarget : (findRequest params).target = .ok findUrl := by
    unfold Request.target
    simp only [findRequest, hrelative, Option.bind_some, parse?_homeUrl, hjoin]
  unfold Request.fullUrl
  rw [htarget]
  rfl

end Sample

open Sample in
/-- All that is given comes behind the page number. -/
theorem Request.findRequest_carries_params : ∃ u, (findRequest findParams).fullUrl = .ok u ∧
    u.queryPairs = [("page", "1"), ("q", "a b&\u00fc=#"), ("ids", "7"), ("ids", "true")] ∧
    Url.parameter? u.text ["q"] = some "a b&\u00fc=#" ∧
    Filter.queryParameter (.str u.text) [.str "ids"] = .str "7" ∧
    Filter.queryParameter (.str u.text) [.str "sort"] = .str "" := by
  obtain ⟨plain, hplain, hpairs, -, hnamed⟩ :=
    fullUrl_carries_params (fullUrl_findRequest findParams)
  obtain rfl : findUrl = plain :=
    Except.ok.inj ((fullUrl_findRequest []).symm.trans hplain)
  have hown : findUrl.queryPairs = [("page", "1")] := by cbv
  have hnew {name : String} (h : name ≠ "page") :
      ∀ pair ∈ findUrl.queryPairs, pair.1 ≠ name := by
    simpa [hown] using h.symm
  rw [hown] at hpairs
  exact ⟨_, fullUrl_findRequest findParams, hpairs, (hnamed "q" (hnew (by decide))).1,
    (hnamed "ids" (hnew (by decide))).2, (hnamed "sort" (hnew (by decide))).2⟩

end SiteScrape
