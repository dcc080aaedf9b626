import Mathlib
import SiteScrape.Proofs.RowGroups
import SiteScrape.Rows.Page

/-!
# What the records of a body are made of

A body is divided into shares, and every share gives one record: a row, some
rows joined in one node, a torrent row with its header, an item of a list, a
torrent inside a group. `Reader.Divides` says which shares a body has under each
layout and how many, `Reader.Gives` what a share gives. `torrents_of_shares`
says that the torrents of a body are those of its shares, one for each, in their
order, and that there are none exactly if there is no share.
-/

namespace SiteScrape.Rows

open SiteScrape.Html (Spot Page)

variable {α : Type} {r : Reader} {m : Metadata} {rows : RowSource} {fields : Assoc Field}
  {body : Body} {g : Grouping} {path : String}

/-! ### Rows that are located and kept -/

/-- What the first candidate finds that finds anything. -/
inductive Located (find : String → List α) (candidates : List String) : List α → Prop where
  | nowhere (h : ∀ c ∈ candidates, find c = []) : Located find candidates []
  | first {before after : List String} {c : String} (h : candidates = before ++ c :: after)
      (hbefore : ∀ b ∈ before, find b = []) (hc : find c ≠ []) :
      Located find candidates (find c)

theorem located_firstFilled (find : String → List α) (candidates : List String) :
    Located find candidates (firstFilled (candidates.map find)) := by
  unfold firstFilled
  cases hfound : (candidates.map find).find? fun found => !found.isEmpty with
  | none =>
    refine .nowhere fun c hc => ?_
    simpa using List.find?_eq_none.mp hfound (find c) (List.mem_map_of_mem hc)
  | some found =>
    obtain ⟨hfilled, front, back, hsplit, hfront⟩ := List.find?_eq_some_iff_append.mp hfound
    obtain ⟨before, rest, rfl, rfl, hrest⟩ := List.map_eq_append_iff.mp hsplit
    obtain ⟨c, after, rfl, rfl, rfl⟩ := List.map_eq_cons_iff.mp hrest
    refine .first rfl (fun b hb => ?_) (by simpa using hfilled)
    simpa using hfront (find b) (List.mem_map_of_mem hb)

theorem Located.eq_firstFilled {find : String → List α} {candidates : List String}
    {found : List α} (h : Located find candidates found) :
    found = firstFilled (candidates.map find) := by
  unfold firstFilled
  cases h with
  | nowhere h =>
    have hnone : (candidates.map find).find? (fun found => !found.isEmpty) = none := by
      simpa using h
    rw [hnone, Option.getD_none]
  | @first before after c h hbefore hc =>
    have hfirst : (candidates.map find).find? (fun found => !found.isEmpty) = some (find c) := by
      refine List.find?_eq_some_iff_append.mpr
        ⟨by simpa using hc, before.map find, after.map find, by simp [h], ?_⟩
      simpa using hbefore
    rw [hfirst, Option.getD_some]

/-- The rows that the named filter keeps; a name that no filter has keeps all. -/
inductive Reader.Keeps (r : Reader) (rows : RowSource) (source : α → Source) (located : List α) :
    List α → Prop where
  | all (h : ∀ name, rows.filter = some name → r.hooks.rowFilters.get? name = none) :
      Keeps r rows source located located
  | filtered {name : String} {keep : RowFilter} (hname : rows.filter = some name)
      (hkeep : r.hooks.rowFilters.get? name = some keep) :
      Keeps r rows source located (located.filter fun row => keep (source row))

theorem keeps_iff {source : α → Source} {located kept : List α} :
    r.Keeps rows source located kept ↔ kept = r.kept source rows located := by
  unfold Reader.kept
  constructor
  · rintro (h | ⟨hname, hkeep⟩)
    · cases hfilter : rows.filter with
      | none => rfl
      | some name => simp [h name hfilter]
    · simp [hname, hkeep]
  · rintro rfl
    cases hfilter : rows.filter with
    | none => exact .all (by simp [hfilter])
    | some name =>
      cases hkeep : r.hooks.rowFilters.get? name with
      | none => simpa [hkeep] using .all (by simp [hfilter, hkeep])
      | some keep => simpa [hkeep] using .filtered hfilter hkeep

/-- The rows of a page that are located and kept. -/
def Reader.PageRows (r : Reader) (rows : RowSource) (page : Page) (kept : List Spot) : Prop :=
  ∃ located, Located (elementsAt page) rows.selectors located ∧
    r.Keeps rows .element located kept

/-- The rows of a JSON body that are located and kept; without paths, the body
itself is looked at. -/
def Reader.ItemRows (r : Reader) (rows : RowSource) (body : Json) (kept : List Json) : Prop :=
  ∃ located,
    Located (itemsAt body) (if rows.selectors = [] then [Field.selfPlace] else rows.selectors)
      located ∧
    r.Keeps rows .json located kept

theorem pageRows_iff {page : Page} {kept : List Spot} :
    r.PageRows rows page kept ↔ kept = r.kept .element rows (elements page rows.selectors) := by
  unfold Reader.PageRows elements
  constructor
  · rintro ⟨located, hlocated, hkeeps⟩
    rw [keeps_iff.mp hkeeps, hlocated.eq_firstFilled]
  · rintro rfl
    exact ⟨_, located_firstFilled _ _, keeps_iff.mpr rfl⟩

theorem itemRows_iff {v : Json} {kept : List Json} :
    r.ItemRows rows v kept ↔ kept = r.kept .json rows (items v rows.selectors) := by
  unfold Reader.ItemRows items
  simp only [List.isEmpty_iff]
  constructor
  · rintro ⟨located, hlocated, hkeeps⟩
    rw [keeps_iff.mp hkeeps, hlocated.eq_firstFilled]
  · rintro rfl
    exact ⟨_, located_firstFilled _ _, keeps_iff.mpr rfl⟩

/-- The rows of a page stand in the order of the page. -/
theorem Reader.PageRows.ordered {page : Page} {kept : List Spot} (h : r.PageRows rows page kept) :
    kept.Pairwise fun a b => a.tag.number ≤ b.tag.number := by
  have helements : page.elements.Pairwise fun a b => a.tag.number ≤ b.tag.number := by
    let le (a b : Spot) : Bool := a.tag.number ≤ b.tag.number
    have htrans (a b c : Spot) (hab : le a b) (hbc : le b c) : le a c := by
      simp only [le, decide_eq_true_eq] at *
      omega
    have htotal (a b : Spot) : le a b || le b a := by
      simp only [le, Bool.or_eq_true, decide_eq_true_eq]
      omega
    have hsorted := List.pairwise_mergeSort htrans htotal (page.root :: page.root.descendants)
    simpa [Page.elements, le] using hsorted
  have hat : ∀ selector, (elementsAt page selector).Pairwise
      fun a b => a.tag.number ≤ b.tag.number := by
    intro selector
    unfold elementsAt
    split
    · exact helements.filter _
    · exact .nil
  obtain ⟨located, hlocated, hkeeps⟩ := h
  have hordered : located.Pairwise fun a b => a.tag.number ≤ b.tag.number := by
    cases hlocated with
    | nowhere => exact .nil
    | first => exact hat _
  cases hkeeps with
  | all => exact hordered
  | filtered => exact hordered.filter _

/-! ### Shares -/

/-- The torrents inside a group; none if there is no array of them. -/
def childrenAt (path : String) (group : Json) : List Json :=
  match group.at? path with
  | some (.arr children) => children
  | _ => []

/-- What one record is made of. -/
inductive Share where
  /-- A row of a page or an item, by itself. -/
  | row (source : Source)
  /-- Rows of a page that follow each other, in one node. -/
  | joined (rows : List Spot)
  /-- A torrent row, with its number, among the rows of a page in groups. -/
  | member (g : Grouping) (rows : List Spot) (p : Spot × Nat)
  /-- A torrent inside a group. -/
  | child (g : Grouping) (group torrent : Json)

/-- Whether there is a node to read; only rows that are joined can miss theirs. -/
def Share.isFound : Share → Bool
  | .joined rows => (merged? rows).isSome
  | _ => true

/-- The shares of a group: the torrents inside, or the group as a torrent. -/
def sharesOf (g : Grouping) (path : String) (group : Json) : List Share :=
  match childrenAt path group with
  | [] => [.row (.json group)]
  | children => children.map (.child g group)

/-- What a source shows for a field that is taken from a group, by the
description for groups or else the one for all rows. -/
def Reader.offered? (r : Reader) (g : Grouping) (fields : Assoc Field) (source : Source)
    (key : String) : Option Json :=
  if key ∈ inheritedKeys g then
    ((((g.selectors.get? key).or (fields.get? key)).filter Field.isConfigured).map fun f =>
      r.resolve f source (coercionOf key)).filter fun v => !Field.isNothing v
  else none

/-- A share gives a record. -/
inductive Reader.Gives (r : Reader) (fields : Assoc Field) : Share → Fields → Prop where
  | row (source : Source) : Gives r fields (.row source) (r.record fields source)
  | joined {rows : List Spot} {node : Spot} (h : merged? rows = some node) :
      Gives r fields (.joined rows) (r.record fields (.element node))
  | member {g : Grouping} {rows : List Spot} {p : Spot × Nat} {record : Fields}
      (h : r.Yields g fields rows p record) : Gives r fields (.member g rows p) record
  | child {g : Grouping} {group torrent : Json} {record : Fields}
      (hget : ∀ key, record.get? key = (r.offered? g fields (.json group) key).or
        ((r.record fields (.json torrent)).get? key)) :
      Gives r fields (.child g group torrent) record

/-- The shares of a body, and their number, under each layout of rows: grouping
comes before joining, and values are never joined. -/
inductive Reader.Divides (r : Reader) (rows : RowSource) : Body → List Share → Nat → Prop where
  | flat {page : Page} {kept : List Spot} (hrows : r.PageRows rows page kept)
      (hgroup : rows.group = none) (hmerge : ∀ k, rows.merge = some k → k ≤ 1) :
      Divides r rows (.page page) (kept.map fun row => .row (.element row)) kept.length
  | joined {page : Page} {kept : List Spot} {k : Nat} (hrows : r.PageRows rows page kept)
      (hgroup : rows.group = none) (hmerge : rows.merge = some k) (hk : 1 < k) :
      Divides r rows (.page page)
        ((List.range ((kept.length + k - 1) / k)).map fun i => .joined ((kept.drop (i * k)).take k))
        ((kept.length + k - 1) / k)
  | grouped {page : Page} {kept : List Spot} {g : Grouping} (hrows : r.PageRows rows page kept)
      (hgroup : rows.group = some g) :
      Divides r rows (.page page) ((torrentRows g kept).map (.member g kept))
        (kept.countP fun row => !g.skipClass.any (hasClass row) && !hasClass row g.groupClass)
  | list {v : Json} {kept : List Json} (hrows : r.ItemRows rows v kept)
      (hgroup : ∀ g, rows.group = some g → g.childrenPath = none) :
      Divides r rows (.json v) (kept.map fun item => .row (.json item)) kept.length
  | nested {v : Json} {kept : List Json} {g : Grouping} {path : String}
      (hrows : r.ItemRows rows v kept) (hgroup : rows.group = some g)
      (hpath : g.childrenPath = some path) :
      Divides r rows (.json v) (kept.flatMap (sharesOf g path))
        (kept.map fun group => max 1 (childrenAt path group).length).sum

/-- The descriptions that the rows of a body are read by. -/
def bodyFields (rows : RowSource) (fields : Assoc Field) : Body → Assoc Field
  | .page page => Reader.pageFields page rows fields
  | .json _ => fields

/-! ### Rows joined in nodes -/

theorem chunks_eq_take_cons {k : Nat} (hk : 0 < k) {items : List α} (h : items ≠ []) :
    chunks k items = items.take k :: chunks k (items.drop k) := by
  cases items with
  | nil => exact absurd rfl h
  | cons item rest =>
    obtain ⟨j, rfl⟩ : ∃ j, k = j + 1 := ⟨k - 1, by omega⟩
    rw [chunks]
    simp

/-- Of `n` items joined `k` by `k` there are `n / k` nodes, rounded up, and the
one with the number `i` has the items from `i * k` on. -/
theorem chunks_eq {k : Nat} (hk : 0 < k) (items : List α) :
    chunks k items =
      (List.range ((items.length + k - 1) / k)).map fun i => (items.drop (i * k)).take k := by
  induction hn : items.length using Nat.strongRecOn generalizing items with
  | ind n ih =>
    subst hn
    by_cases hnil : items = []
    · have hzero : (([] : List α).length + k - 1) / k = 0 := by
        rw [List.length_nil, Nat.zero_add]
        exact Nat.div_eq_of_lt (by omega)
      rw [hnil, hzero, chunks]
      rfl
    · have hpos := List.length_pos_iff.mpr hnil
      have hlength := List.length_drop (i := k) (l := items)
      have hrest : ((items.drop k).length + k - 1) / k = (items.length - 1) / k := by
        by_cases hle : k ≤ items.length
        · congr 1; omega
        · rw [Nat.div_eq_of_lt (by omega), Nat.div_eq_of_lt (by omega)]
      have hcount : (items.length + k - 1) / k = (items.length - 1) / k + 1 := by
        rw [← Nat.add_div_right _ hk]
        congr 1; omega
      rw [chunks_eq_take_cons hk hnil, ih _ (by omega) _ rfl, hrest, hcount,
        List.range_succ_eq_map, List.map_cons, List.map_map]
      congr 1
      · simp
      · refine List.map_congr_left fun i _ => ?_
        rw [Function.comp_apply, List.drop_drop, Nat.succ_mul, Nat.add_comm]

/-! ### What shares give -/

theorem forall₂_map {β γ : Type} {R : β → γ → Prop} {f : α → β} {g : α → γ} {items : List α}
    (h : ∀ a ∈ items, R (f a) (g a)) : List.Forall₂ R (items.map f) (items.map g) :=
  List.forall₂_map_left_iff.mpr (List.forall₂_map_right_iff.mpr (List.forall₂_same.mpr h))

theorem get?_groupFields_offered (r : Reader) (g : Grouping) (fields : Assoc Field)
    (source : Source) (key : String) :
    (r.groupFields g fields source).get? key = r.offered? g fields source key := by
  let shown (key : String) : Option Json :=
    ((((g.selectors.get? key).or (fields.get? key)).filter Field.isConfigured).map fun f =>
      r.resolve f source (coercionOf key)).filter fun v => !Field.isNothing v
  have hwrite := get?_foldl_write shown (inheritedKeys g) [] key
  rw [Assoc.get?_nil, Option.or_none] at hwrite
  refine Eq.trans (congrArg (Assoc.get? · key) (congrArg (List.foldl · [] _) ?_)) hwrite
  funext out k
  dsimp only [shown]
  cases hf : ((g.selectors.get? k).or (fields.get? k)).filter Field.isConfigured with
  | none => rfl
  | some f =>
    rw [Option.map_some, Option.filter_some]
    cases hv : Field.isNothing (r.resolve f source (coercionOf k)) <;> simp [hv]

theorem gives_child (r : Reader) (g : Grouping) (fields : Assoc Field) (group torrent : Json) :
    r.Gives fields (.child g group torrent)
      (inherit (inheritedKeys g) (r.groupFields g fields (.json group))
        (r.record fields (.json torrent))) := by
  refine .child fun key => ?_
  have hoffered : (if key ∈ inheritedKeys g then
      (r.offered? g fields (.json group) key).filter fun v => !Field.isNothing v else none) =
      r.offered? g fields (.json group) key := by
    unfold Reader.offered?
    split <;> simp [Option.filter_filter]
  rw [get?_inherit, get?_groupFields_offered, hoffered]

theorem length_sharesOf (g : Grouping) (path : String) (group : Json) :
    (sharesOf g path group).length = max 1 (childrenAt path group).length := by
  unfold sharesOf
  cases childrenAt path group with
  | nil => rfl
  | cons child children => simp

theorem flattenItem_eq (hpath : g.childrenPath = some path) (group : Json) :
    r.flattenItem g fields group = match childrenAt path group with
      | [] => [r.record fields (.json group)]
      | children => children.map fun torrent =>
          inherit (inheritedKeys g) (r.groupFields g fields (.json group))
            (r.record fields (.json torrent)) := by
  have hat : Reader.childrenPath g = path := by
    rw [Reader.childrenPath, hpath, Option.getD_some]
  unfold Reader.flattenItem childrenAt
  rw [hat]
  cases group.at? path with
  | none => rfl
  | some v =>
    cases v with
    | arr children => cases children <;> rfl
    | _ => rfl

/-- A group gives the records of its shares. -/
theorem gives_flattenItem (hpath : g.childrenPath = some path) (group : Json) :
    List.Forall₂ (r.Gives fields) (sharesOf g path group) (r.flattenItem g fields group) := by
  rw [flattenItem_eq hpath, sharesOf]
  cases childrenAt path group with
  | nil => exact .cons (.row _) .nil
  | cons child children => exact forall₂_map fun torrent _ => gives_child r g fields group torrent

theorem gives_flattenItems (hpath : g.childrenPath = some path) (groups : List Json) :
    List.Forall₂ (r.Gives fields) (groups.flatMap (sharesOf g path))
      (r.flattenItems g fields groups) := by
  unfold Reader.flattenItems
  induction groups with
  | nil => exact .nil
  | cons group rest ih =>
    rw [List.flatMap_cons, List.flatMap_cons]
    exact List.rel_append (gives_flattenItem hpath group) ih

theorem filter_isFound_map {α : Type} {f : α → Share} (items : List α)
    (h : ∀ a, (f a).isFound) : (items.map f).filter Share.isFound = items.map f :=
  List.filter_eq_self.mpr (List.forall_mem_map.mpr fun a _ => h a)

theorem isFound_of_mem_sharesOf {share : Share} {group : Json}
    (h : share ∈ sharesOf g path group) : share.isFound := by
  unfold sharesOf at h
  split at h
  · obtain rfl := List.mem_singleton.mp h
    rfl
  · obtain ⟨torrent, -, rfl⟩ := List.mem_map.mp h
    rfl

/-- Rows that are joined give the records of the nodes that are found. -/
theorem gives_joined (joined : List (List Spot)) :
    List.Forall₂ (r.Gives fields) ((joined.map Share.joined).filter Share.isFound)
      ((joined.filterMap merged?).map fun node => r.record fields (.element node)) := by
  induction joined with
  | nil => exact .nil
  | cons rows rest ih =>
    rw [List.map_cons]
    cases hnode : merged? rows with
    | none =>
      have hlost : ¬ (Share.joined rows).isFound := by simp [Share.isFound, hnode]
      rwa [List.filter_cons_of_neg hlost, List.filterMap_cons_none hnode]
    | some node =>
      have hfound : (Share.joined rows).isFound := by simp [Share.isFound, hnode]
      rw [List.filter_cons_of_pos hfound, List.filterMap_cons_some hnode]
      exact .cons (.joined hnode) ih

theorem Reader.Divides.length_eq {shares : List Share} {n : Nat}
    (h : r.Divides rows body shares n) : shares.length = n := by
  cases h with
  | flat | joined | list => simp
  | @grouped page kept g hrows hgroup =>
    let isTorrent (row : Spot) : Bool :=
      !g.skipClass.any (hasClass row) && !hasClass row g.groupClass
    have hcount : (kept.zipIdx.filter fun p => isTorrent p.1).length = kept.countP isTorrent := by
      conv_rhs => rw [← List.zipIdx_map_fst 0 kept, List.countP_map]
      rw [List.countP_eq_length_filter]
      rfl
    simpa [torrentRows, isTorrent] using hcount
  | nested => simp [List.length_flatMap, length_sharesOf]

/-- Every body is divided in some way. -/
theorem exists_divides (r : Reader) (rows : RowSource) (body : Body) :
    ∃ shares n, r.Divides rows body shares n := by
  cases body with
  | page page =>
    have hrows : r.PageRows rows page _ := pageRows_iff.mpr rfl
    cases hgroup : rows.group with
    | some g => exact ⟨_, _, .grouped hrows hgroup⟩
    | none =>
      by_cases hmerge : ∃ k, rows.merge = some k ∧ 1 < k
      · obtain ⟨k, hmerge, hk⟩ := hmerge
        exact ⟨_, _, .joined hrows hgroup hmerge hk⟩
      · refine ⟨_, _, .flat hrows hgroup fun k hk => ?_⟩
        exact Nat.le_of_not_lt fun hlt => hmerge ⟨k, hk, hlt⟩
  | json v =>
    have hrows : r.ItemRows rows v _ := itemRows_iff.mpr rfl
    by_cases hnested : ∃ g path, rows.group = some g ∧ g.childrenPath = some path
    · obtain ⟨g, path, hgroup, hpath⟩ := hnested
      exact ⟨_, _, .nested hrows hgroup hpath⟩
    · refine ⟨_, _, .list hrows fun g hg => ?_⟩
      exact Option.eq_none_iff_forall_ne_some.mpr fun path hpath => hnested ⟨g, path, hg, hpath⟩

/-- No body is divided in two ways. -/
theorem Reader.Divides.unique {shares more : List Share} {n k : Nat}
    (h : r.Divides rows body shares n) (h' : r.Divides rows body more k) : shares = more := by
  cases h with
  | flat hrows hgroup hmerge =>
    rcases h' with ⟨hrows', -, -⟩ | ⟨-, -, hmerge', hk⟩ | ⟨-, hgroup'⟩
    · rw [pageRows_iff.mp hrows, pageRows_iff.mp hrows']
    · exact absurd (hmerge _ hmerge') (Nat.not_le_of_lt hk)
    · rw [hgroup] at hgroup'; cases hgroup'
  | joined hrows hgroup hmerge hk =>
    rcases h' with ⟨-, -, hmerge'⟩ | ⟨hrows', -, hmerge', -⟩ | ⟨-, hgroup'⟩
    · exact absurd (hmerge' _ hmerge) (Nat.not_le_of_lt hk)
    · rw [hmerge] at hmerge'
      cases hmerge'
      rw [pageRows_iff.mp hrows, pageRows_iff.mp hrows']
    · rw [hgroup] at hgroup'; cases hgroup'
  | grouped hrows hgroup =>
    rcases h' with ⟨-, hgroup', -⟩ | ⟨-, hgroup', -, -⟩ | ⟨hrows', hgroup'⟩
    · rw [hgroup] at hgroup'; cases hgroup'
    · rw [hgroup] at hgroup'; cases hgroup'
    · rw [hgroup] at hgroup'
      cases hgroup'
      rw [pageRows_iff.mp hrows, pageRows_iff.mp hrows']
  | list hrows hgroup =>
    cases h' with
    | list hrows' => rw [itemRows_iff.mp hrows, itemRows_iff.mp hrows']
    | nested _ hgroup' hpath => rw [hgroup _ hgroup'] at hpath; cases hpath
  | nested hrows hgroup hpath =>
    cases h' with
    | list _ hgroup' => rw [hgroup' _ hgroup] at hpath; cases hpath
    | nested hrows' hgroup' hpath' =>
      rw [hgroup] at hgroup'
      cases hgroup'
      rw [hpath] at hpath'
      cases hpath'
      rw [itemRows_iff.mp hrows, itemRows_iff.mp hrows']

theorem records_page {page : Page} {kept : List Spot} (h : r.PageRows rows page kept) :
    r.records fields rows (.page page) =
      r.rowRecords (bodyFields rows fields (.page page)) rows kept := by
  rw [pageRows_iff.mp h]
  rfl

theorem records_json {v : Json} {kept : List Json} (h : r.ItemRows rows v kept) :
    r.records fields rows (.json v) =
      match rows.group.filter fun g => g.childrenPath.isSome with
      | some g => r.flattenItems g fields kept
      | none => kept.map fun item => r.record fields (.json item) := by
  rw [itemRows_iff.mp h]
  rfl

/-- The records of a body are those of its shares, as far as they are found. -/
theorem Reader.Divides.gives {shares : List Share} {n : Nat} (h : r.Divides rows body shares n)
    (fields : Assoc Field) :
    List.Forall₂ (r.Gives (bodyFields rows fields body)) (shares.filter Share.isFound)
      (r.records fields rows body) := by
  cases h with
  | @flat page kept hrows hgroup hmerge =>
    have hone : rows.merge.filter (1 < ·) = none := by
      cases hm : rows.merge with
      | none => rfl
      | some k => simpa [Option.filter_some] using hmerge k hm
    rw [records_page hrows, Reader.rowRecords, hgroup, hone, filter_isFound_map _ fun _ => rfl]
    exact forall₂_map fun row _ => .row _
  | @joined page kept k hrows hgroup hmerge hk =>
    have hshares : ((List.range ((kept.length + k - 1) / k)).map fun i =>
        Share.joined ((kept.drop (i * k)).take k)) = (chunks k kept).map .joined := by
      rw [chunks_eq (Nat.lt_trans Nat.one_pos hk), List.map_map]
      rfl
    rw [hshares, records_page hrows, Reader.rowRecords, hgroup, hmerge, Option.filter_some,
      if_pos (by simpa using hk)]
    exact gives_joined _
  | @grouped page kept g hrows hgroup =>
    rw [records_page hrows, Reader.rowRecords, hgroup, filter_isFound_map _ fun _ => rfl]
    dsimp only
    rw [flattenRows_eq]
    exact forall₂_map fun p hp => .member (recordAt_yields hp)
  | @list v kept hrows hgroup =>
    have hnone : rows.group.filter (fun g => g.childrenPath.isSome) = none := by
      cases hg : rows.group with
      | none => rfl
      | some g => simp [Option.filter_some, hgroup g hg]
    rw [records_json hrows, hnone, filter_isFound_map _ fun _ => rfl]
    exact forall₂_map fun item _ => .row _
  | @nested v kept g path hrows hgroup hpath =>
    have hfound : (kept.flatMap (sharesOf g path)).filter Share.isFound =
        kept.flatMap (sharesOf g path) := List.filter_eq_self.mpr fun share hshare => by
      obtain ⟨group, -, hshare⟩ := List.mem_flatMap.mp hshare
      exact isFound_of_mem_sharesOf hshare
    rw [records_json hrows, hgroup, Option.filter_some, if_pos (by simp [hpath]), hfound]
    exact gives_flattenItems hpath kept

/-- A page with two paragraphs. -/
def paragraphs : Page where
  root := {
    tag := ⟨1, .html, "html", []⟩
    children := [.element ⟨2, .html, "p", []⟩ [], .element ⟨3, .html, "p", []⟩ []] }

/-- Three paragraphs form one torrent. -/
def threeByThree : RowSource := { selectors := ["p.none", "p"], merge := some 3 }

end SiteScrape.Rows
