import SiteScrape.Proofs.Positional

/-!
# Detected columns

A field whose mark stands in a header cell gets the selector of the column
where that cell begins (`get?_detectColumns`). In a row of cells the selector
stands for the first `td` in that place at any depth, which is the cell of
the row itself unless an earlier cell holds such an element
(`place?_of_cells`, `detected_cell`).
-/

namespace SiteScrape.Rows

open Html (Spot Page)
open Css (isTdAt)

variable {page : Page} {marks : ColumnMarks} {fields : Assoc Field} {name other : String}
variable {header row head cell : Spot} {before after : List Spot} {texts : List String}
variable {n column : Nat}

/-! ### The column of a field -/

/-- The markup of the cell contains one of the marks. -/
def isMarked (texts : List String) (cell : Spot) : Bool :=
  texts.any fun mark => Text.contains cell.outerMarkup mark

/-- The first marked cell begins behind all columns of the cells before it. -/
theorem find?_positions (column : Nat) (after : List Spot)
    (hbefore : ∀ c ∈ before, isMarked texts c = false) (hhead : isMarked texts head) :
    ((positions column (before ++ head :: after)).find? fun (_, cell) => isMarked texts cell) =
      some (column + widthOf before, head) := by
  induction before generalizing column with
  | nil => simp [positions, hhead, widthOf]
  | cons c rest ih =>
    obtain ⟨hc, hrest⟩ := List.forall_mem_cons.mp hbefore
    simp [positions, hc, ih _ hrest, widthOf, Nat.add_assoc]

theorem markedColumn?_eq (hcells : cells header = before ++ head :: after)
    (hbefore : ∀ c ∈ before, isMarked texts c = false) (hhead : isMarked texts head) :
    markedColumn? header texts = some (1 + widthOf before) := by
  have h := find?_positions 1 after hbefore hhead
  rw [← hcells] at h
  simp only [isMarked] at h
  simp [markedColumn?, h]

/-- Fields of other names stay as they are. -/
theorem get?_placeField_of_ne (h : other ≠ name) :
    (placeField header fields other texts).get? name = fields.get? name := by
  unfold placeField
  split
  · rfl
  · split
    · simp [Assoc.get?_place, h]
    · rfl

/-- A field with selectors of its own keeps them. -/
theorem get?_foldl_placeField (markers : Assoc (List String))
    (h : hasSelectors fields name) :
    (markers.foldl (fun fields (key, texts) => placeField header fields key texts) fields).get?
      name = fields.get? name := by
  induction markers generalizing fields with
  | nil => rfl
  | cons m rest ih =>
    obtain ⟨key, texts⟩ := m
    have hstep : (placeField header fields key texts).get? name = fields.get? name := by
      by_cases hkey : key = name
      · subst hkey
        simp [placeField, h]
      · exact get?_placeField_of_ne hkey
    rw [List.foldl_cons, ih (by simpa [hasSelectors, hstep] using h), hstep]

/-- The field gets the selector of its column. -/
theorem get?_detectColumns (hheader : (elements page marks.header).head? = some header)
    (htexts : marks.markers.get? name = some texts) (hfree : hasSelectors fields name = false)
    (hcolumn : markedColumn? header texts = some column) :
    (detectColumns page marks fields).get? name =
      some { (fields.get? name).getD {} with selectors := [columnSelector column] } := by
  unfold detectColumns
  rw [hheader]
  generalize marks.markers = markers at htexts
  dsimp only
  induction markers generalizing fields with
  | nil => simp at htexts
  | cons m rest ih =>
    obtain ⟨key, marks⟩ := m
    rw [List.foldl_cons]
    by_cases hkey : key = name
    · subst hkey
      obtain rfl : marks = texts := by simpa [Assoc.get?] using htexts
      have hplaced : (placeField header fields key marks).get? key =
          some { (fields.get? key).getD {} with selectors := [columnSelector column] } := by
        simp [placeField, hfree, hcolumn, Assoc.get?_place]
      rw [get?_foldl_placeField rest (by simp [hasSelectors, hplaced]), hplaced]
    · have hstep : (placeField header fields key marks).get? name = fields.get? name :=
        get?_placeField_of_ne hkey
      have hfree' : hasSelectors (placeField header fields key marks) name = false := by
        simpa [hasSelectors, hstep] using hfree
      rw [ih hfree' (by simpa [Assoc.get?, hkey] using htexts), hstep]

/-! ### The cell in a row -/

/-- A row of `td`s has no other children. -/
theorem cells_eq (h : ∀ c ∈ row.childSpots, c.tag.name = "td") : cells row = row.childSpots :=
  List.filter_eq_self.mpr fun c hc => by simp [h c hc]

/-- Cells of one column each stand in the columns of their numbers. -/
theorem getElem?_positions {list : List Spot} (h : ∀ c ∈ list, columnSpan c = 1) :
    (positions column list)[n]? = list[n]?.map fun cell => (column + n, cell) := by
  induction list generalizing column n with
  | nil => simp [positions]
  | cons c rest ih =>
    obtain ⟨hc, hrest⟩ := List.forall_mem_cons.mp h
    cases n with
    | zero => simp [positions]
    | succ n => simp [positions, hc, ih hrest, Nat.add_assoc, Nat.add_comm 1]

/-- The elements inside the first `n` cells of a row. -/
def insideFirst (n : Nat) (row : Spot) : List Spot :=
  ((cells row).take n).flatMap Spot.descendants

theorem isTdAt_iff {e : Spot} (hn : n ≤ 2147483647) :
    isTdAt n e ↔ e.tag.name = "td" ∧ e.place = n := by
  have hclamp : Css.Token.clampWhole n = n := by
    unfold Css.Token.clampWhole
    omega
  simp only [isTdAt, hclamp, Bool.and_eq_true, beq_iff_eq, Int.natCast_inj]

/-- No element is in a place beyond the greatest number. -/
theorem le_of_isTdAt {e : Spot} (h : isTdAt n e) (hplace : e.place = n) : n ≤ 2147483647 := by
  simp only [isTdAt, hplace, Css.Token.clampWhole, Bool.and_eq_true, beq_iff_eq] at h
  omega

theorem find?_flatMap_cons {p : Spot → Bool} {list : List Spot} (h : ∀ c ∈ list, p c = false) :
    (list.flatMap fun c => c :: c.descendants).find? p =
      (list.flatMap Spot.descendants).find? p := by
  induction list with
  | nil => rfl
  | cons c rest ih =>
    obtain ⟨hc, hrest⟩ := List.forall_mem_cons.mp h
    simp [hc, ih hrest]

section

variable (hrow : ∀ c ∈ row.childSpots, c.tag.name = "td") (hcell : (cells row)[n]? = some cell)
include hrow hcell

/-- The selector finds an element inside the cells before, if there is one in
that place, and otherwise the cell of the row. -/
theorem find?_isTdAt (hn : n + 1 ≤ 2147483647) :
    row.descendants.find? (isTdAt (n + 1)) =
      ((insideFirst n row).find? (isTdAt (n + 1))).or (some cell) := by
  rw [insideFirst, cells_eq hrow] at *
  have hsplit : row.childSpots = row.childSpots.take n ++ cell :: row.childSpots.drop (n + 1) := by
    obtain ⟨hlt, rfl⟩ := List.getElem?_eq_some_iff.mp hcell
    rw [← List.drop_eq_getElem_cons, List.take_append_drop]
  have hbefore : ∀ c ∈ row.childSpots.take n, isTdAt (n + 1) c = false := by
    intro c hc
    obtain ⟨i, hi⟩ := List.mem_iff_getElem?.mp hc
    rw [List.getElem?_take] at hi
    split at hi
    · next hlt =>
      refine Bool.eq_false_iff.mpr fun hfound => ?_
      have hplace := ((isTdAt_iff hn).mp hfound).2
      rw [Spot.place_of_child hi] at hplace
      omega
    · simp at hi
  have hfound : isTdAt (n + 1) cell :=
    (isTdAt_iff hn).mpr ⟨hrow cell (List.mem_of_getElem? hcell), Spot.place_of_child hcell⟩
  rw [Spot.descendants_eq]
  conv => lhs; rw [hsplit]
  rw [List.flatMap_append, List.find?_append, find?_flatMap_cons hbefore, List.flatMap_cons,
    List.cons_append, List.find?_cons_of_pos hfound]

/-- An element inside a cell is none of the cells. -/
theorem ne_of_mem_insideFirst {e : Spot} (he : e ∈ insideFirst n row) : e ≠ cell := by
  rintro rfl
  rw [insideFirst, cells_eq hrow] at *
  obtain ⟨c, hc, he⟩ := List.mem_flatMap.mp he
  have hdeep := Spot.depth_lt_of_descendant he
  rw [Spot.depth_of_child (List.mem_of_getElem? hcell),
    Spot.depth_of_child (List.mem_of_mem_take hc)] at hdeep
  exact Nat.lt_irrefl _ hdeep

/-- The selector of a column stands for the cell of the row exactly if no cell
before it has a `td` in that place inside. -/
theorem place?_of_cells :
    Field.place? (.element row) (columnSelector (n + 1)) = some (.element cell) ↔
      n + 1 ≤ 2147483647 ∧
        ∀ e ∈ insideFirst n row, ¬ (e.tag.name = "td" ∧ e.place = n + 1) := by
  have hplace : cell.place = n + 1 := by
    rw [cells_eq hrow] at hcell
    exact Spot.place_of_child hcell
  have hiff : Field.place? (.element row) (columnSelector (n + 1)) = some (.element cell) ↔
      row.descendants.find? (isTdAt (n + 1)) = some cell := by
    simp [Css.place?_columnSelector]
  rw [hiff]
  constructor
  · intro h
    have hn := le_of_isTdAt (List.find?_some h) hplace
    refine ⟨hn, fun e he hfound => ?_⟩
    rw [find?_isTdAt hrow hcell hn] at h
    cases hinside : (insideFirst n row).find? (isTdAt (n + 1)) with
    | none => exact List.find?_eq_none.mp hinside e he ((isTdAt_iff hn).mpr hfound)
    | some e' =>
      refine ne_of_mem_insideFirst hrow hcell (List.mem_of_find?_eq_some hinside) ?_
      simpa [hinside] using h
  · rintro ⟨hn, hnone⟩
    have hinside : (insideFirst n row).find? (isTdAt (n + 1)) = none :=
      List.find?_eq_none.mpr fun e he hfound => hnone e he ((isTdAt_iff hn).mp hfound)
    rw [find?_isTdAt hrow hcell hn, hinside, Option.none_or]

end

/-- The field of a marked header cell gets the selector of the column where the
cell begins. In a row of single cells that is wide enough, the selector stands
for the cell of that column exactly if no cell before it has a `td` in that
place inside. -/
theorem detected_cell (hheader : (elements page marks.header).head? = some header)
    (htexts : marks.markers.get? name = some texts) (hfree : hasSelectors fields name = false)
    (hcells : cells header = before ++ head :: after)
    (hbefore : ∀ c ∈ before, isMarked texts c = false) (hhead : isMarked texts head)
    (hrow : ∀ c ∈ row.childSpots, c.tag.name = "td" ∧ columnSpan c = 1)
    (hwide : widthOf before + 1 ≤ row.childSpots.length) :
    ∃ f cell, (detectColumns page marks fields).get? name = some f ∧
      f.selectors = [columnSelector (widthOf before + 1)] ∧
      (cells row)[widthOf before]? = some cell ∧
      (positions 1 (cells row))[widthOf before]? = some (widthOf before + 1, cell) ∧
      (Field.place? (.element row) (columnSelector (widthOf before + 1)) = some (.element cell) ↔
        widthOf before + 1 ≤ 2147483647 ∧
          ∀ e ∈ insideFirst (widthOf before) row,
            ¬ (e.tag.name = "td" ∧ e.place = widthOf before + 1)) := by
  have hcolumn := markedColumn?_eq hcells hbefore hhead
  have hnames : ∀ c ∈ row.childSpots, c.tag.name = "td" := fun c hc => (hrow c hc).1
  obtain ⟨cell, hcell⟩ : ∃ cell, (cells row)[widthOf before]? = some cell := by
    rw [cells_eq hnames]
    exact ⟨_, List.getElem?_eq_getElem hwide⟩
  have hpositions : (positions 1 (cells row))[widthOf before]? =
      some (widthOf before + 1, cell) := by
    have hspans : ∀ c ∈ cells row, columnSpan c = 1 := fun c hc =>
      (hrow c (List.mem_filter.mp hc).1).2
    rw [getElem?_positions hspans, hcell, Nat.add_comm]
    rfl
  refine ⟨_, cell, get?_detectColumns hheader htexts hfree hcolumn, ?_, hcell, hpositions,
    place?_of_cells hnames hcell⟩
  rw [Nat.add_comm]

/-- A table of names and sizes with one row. -/
def sizeTable (name : List Html.Node) : Page where
  root := {
    tag := ⟨1, .html, "tbody", []⟩
    children := [
      .element ⟨2, .html, "tr", []⟩ [
        .element ⟨3, .html, "th", []⟩ [.text "Name"],
        .element ⟨4, .html, "th", []⟩ [.element ⟨5, .html, "a", [⟨.none, "href", "?sort=5"⟩]⟩ []]],
      .element ⟨6, .html, "tr", []⟩ [
        .element ⟨7, .html, "td", []⟩ name,
        .element ⟨12, .html, "td", []⟩ [.text "1 GB"]]] }

/-- The size stands below the link that sorts by it. -/
def sizeMarks : ColumnMarks := { header := ["tr"], markers := [("size", ["sort=5"])] }

/-- The child of that number; an element without it stands for itself. -/
def child (s : Spot) (i : Nat) : Spot := (s.childSpots[i]?).getD s

theorem sizeTable_cells (name : List Html.Node) :
    ∀ c ∈ (child (sizeTable name).root 1).childSpots, c.tag.name = "td" ∧ columnSpan c = 1 := by
  intro c hc
  rcases List.mem_cons.mp hc with rfl | hc
  · exact ⟨rfl, by cbv⟩
  · obtain rfl := List.mem_singleton.mp hc
    exact ⟨rfl, by cbv⟩

/-- A plain name leaves the size where it is. -/
theorem detected_cell_of_plain_name :
    let page := sizeTable [.text "A"]
    let header := child page.root 0
    let row := child page.root 1
    (elements page sizeMarks.header).head? = some header ∧
      sizeMarks.markers.get? "size" = some ["sort=5"] ∧ hasSelectors [] "size" = false ∧
      cells header = [child header 0] ++ child header 1 :: [] ∧
      (∀ c ∈ [child header 0], isMarked ["sort=5"] c = false) ∧
      isMarked ["sort=5"] (child header 1) ∧
      (∀ c ∈ row.childSpots, c.tag.name = "td" ∧ columnSpan c = 1) ∧
      widthOf [child header 0] + 1 ≤ row.childSpots.length ∧
      ∃ f cell, (detectColumns page sizeMarks []).get? "size" = some f ∧
        f.selectors = [columnSelector 2] ∧ (cells row)[1]? = some cell ∧
        Field.place? (.element row) (columnSelector 2) = some (.element cell) := by
  intro page header row
  have hheader : (elements page sizeMarks.header).head? = some header := by cbv
  have hbefore : ∀ c ∈ [child header 0], isMarked ["sort=5"] c = false := by
    intro c hc
    obtain rfl := List.mem_singleton.mp hc
    decide +kernel
  have hhead : isMarked ["sort=5"] (child header 1) := by decide +kernel
  have hwidth : widthOf [child header 0] = 1 := by cbv
  have hwide : widthOf [child header 0] + 1 ≤ row.childSpots.length := by
    rw [hwidth]
    decide
  refine ⟨hheader, rfl, rfl, rfl, hbefore, hhead, sizeTable_cells _, hwide, ?_⟩
  obtain ⟨f, cell, hf, hselectors, hcell, -, hplace⟩ :=
    detected_cell hheader (rfl : sizeMarks.markers.get? "size" = some ["sort=5"])
      (rfl : hasSelectors [] "size" = false) (rfl : cells header = [child header 0] ++ _ :: [])
      hbefore hhead (sizeTable_cells _) hwide
  rw [hwidth] at hselectors hcell hplace
  refine ⟨f, cell, hf, hselectors, hcell, hplace.mpr ⟨by decide, fun e he => ?_⟩⟩
  have hnone : e ∉ insideFirst 1 row := List.not_mem_nil
  exact absurd he hnone

/-- A name with a table of its own. -/
def nestedName : List Html.Node :=
  [.element ⟨8, .html, "table", []⟩ [.element ⟨9, .html, "tr", []⟩ [
    .element ⟨10, .html, "td", []⟩ [.text "A"], .element ⟨11, .html, "td", []⟩ [.text "B"]]]]

/-- The second cell inside the name is read as the size. -/
theorem detected_cell_nested :
    let page := sizeTable nestedName
    let header := child page.root 0
    let row := child page.root 1
    (elements page sizeMarks.header).head? = some header ∧
      cells header = [child header 0, child header 1] ∧
      isMarked ["sort=5"] (child header 0) = false ∧ columnSpan (child header 0) = 1 ∧
      isMarked ["sort=5"] (child header 1) ∧
      (∀ c ∈ row.childSpots, c.tag.name = "td" ∧ columnSpan c = 1) ∧
      (cells row)[1]? = some (child row 1) ∧ (child row 1).text = "1 GB" ∧
      ((detectColumns page sizeMarks []).get? "size").map Field.selectors =
        some [columnSelector 2] ∧
      (Field.place? (.element row) (columnSelector 2)).map (fun p => p.element?.map Spot.text) =
        some (some "B") := by
  intro page header row
  have hheader : (elements page sizeMarks.header).head? = some header := by cbv
  have hcolumn : markedColumn? header ["sort=5"] = some 2 := by decide +kernel
  have hfield := get?_detectColumns hheader (rfl : sizeMarks.markers.get? "size" = _)
    (rfl : hasSelectors [] "size" = false) hcolumn
  exact ⟨hheader, rfl, by decide +kernel, by decide +kernel, by decide +kernel, sizeTable_cells _,
    rfl, rfl, by rw [hfield]; rfl, by decide +kernel⟩

end SiteScrape.Rows
