import SiteScrape.Rows.Columns
import SiteScrape.Rows.Groups

/-!
# Sums of columns

A page says how many columns a cell takes, and nothing limits the number. All
sums over the cells of a row are at most the width of the row
(`spannedWidth_le`, `le_of_mem_positions`), and the padding of a row is at most
what its header is wider. So a bound holds for everything that is computed of
two rows exactly if it holds for their widths and for the markup of the padding
(`staysBelow_iff`). Cells as wide as a browser allows keep far below one of 63
bits (`staysBelow_of_columnSpan_le`).
-/

namespace SiteScrape.Rows

open SiteScrape.Html (Spot)

variable {header row : Spot} {bound : Nat}

/-! ### Sums over cells -/

theorem widthOf_takeWhile_le (p : Spot → Bool) (cs : List Spot) :
    widthOf (cs.takeWhile p) ≤ widthOf cs := by
  induction cs with
  | nil => exact Nat.le_refl _
  | cons c cs ih =>
    rw [List.takeWhile_cons]
    split
    · exact Nat.add_le_add_left ih _
    · exact Nat.zero_le _

theorem spannedWidth_le (header : Spot) : spannedWidth header ≤ width header :=
  widthOf_takeWhile_le _ _

/-- Every cell begins before the columns of all cells end. -/
theorem lt_of_mem_positions {p : Nat × Spot} {column : Nat} {cs : List Spot}
    (h : p ∈ positions column cs) : p.1 < column + widthOf cs := by
  induction cs generalizing column with
  | nil => cases h
  | cons c cs ih =>
    rw [positions, List.mem_cons] at h
    rw [widthOf]
    rcases h with rfl | h
    · have : 0 < columnSpan c := span_pos _ c
      simp only
      omega
    · have := ih h
      omega

theorem widthOf_le {most : Nat} {cs : List Spot} (h : ∀ c ∈ cs, columnSpan c ≤ most) :
    widthOf cs ≤ cs.length * most := by
  induction cs with
  | nil => exact Nat.zero_le _
  | cons c cs ih =>
    have hc := h c List.mem_cons_self
    have hcs := ih fun d hd => h d (List.mem_cons_of_mem _ hd)
    rw [widthOf, List.length_cons, Nat.succ_mul]
    omega

/-! ### The markup of the padding -/

/-- The empty cells that stand in the markup of a padded row before its own. -/
def emptyCells (pad : Nat) : String := String.join (List.replicate pad "<td></td>")

theorem utf8ByteSize_emptyCells (pad : Nat) : (emptyCells pad).utf8ByteSize = 9 * pad := by
  have hjoin (s : String) : ((List.replicate pad "<td></td>").foldl (· ++ ·) s).utf8ByteSize =
      s.utf8ByteSize + 9 * pad := by
    induction pad generalizing s with
    | zero => rfl
    | succ pad ih =>
      have hcell : "<td></td>".utf8ByteSize = 9 := by decide
      rw [List.replicate_succ, List.foldl_cons, ih, String.utf8ByteSize_append, hcell]
      omega
  exact (hjoin "").trans (Nat.zero_add _)

/-! ### Bounds -/

/-- Everything that is computed of the columns of a header row and a row of its
group is below a bound. -/
structure StaysBelow (bound : Nat) (r : Reader) (g : Grouping) (fields : Assoc Field)
    (header row : Spot) : Prop where
  widths : width header < bound ∧ width row < bound
  spanned : (r.header g fields header).spanned < bound
  /-- The columns in which cells begin, and the one behind them. -/
  columns : (∀ p ∈ positions 1 (cells header), p.1 < bound) ∧ 1 + width header < bound
  markup : (emptyCells (padding row (r.header g fields header))).utf8ByteSize < bound

variable {r : Reader} {g : Grouping} {fields : Assoc Field}

theorem staysBelow_iff : StaysBelow bound r g fields header row ↔
    1 + width header < bound ∧ width row < bound ∧
      9 * min (spannedWidth header) (width header - width row) < bound := by
  have hmarkup := utf8ByteSize_emptyCells (padding row (r.header g fields header))
  constructor
  · intro h
    exact ⟨h.columns.2, h.widths.2, hmarkup ▸ h.markup⟩
  · rintro ⟨hheader, hrow, hpadding⟩
    have hspanned := spannedWidth_le header
    have hwidth : width header < bound := by omega
    exact ⟨⟨hwidth, hrow⟩, Nat.lt_of_le_of_lt hspanned hwidth,
      ⟨fun p hp => Nat.lt_trans (lt_of_mem_positions hp) hheader, hheader⟩, hmarkup ▸ hpadding⟩

/-- A browser lets a cell take at most a thousand columns. -/
theorem staysBelow_of_columnSpan_le (hheader : ∀ c ∈ cells header, columnSpan c ≤ 1000)
    (hrow : ∀ c ∈ cells row, columnSpan c ≤ 1000) (hcells : (cells header).length < 0x2000000000000)
    (hrowCells : (cells row).length < 0x2000000000000) :
    StaysBelow 0x8000000000000000 r g fields header row := by
  have hwidth : width header ≤ (cells header).length * 1000 := widthOf_le hheader
  have hrowWidth : width row ≤ (cells row).length * 1000 := widthOf_le hrow
  exact staysBelow_iff.mpr ⟨by omega, by omega, by omega⟩

/-- What is computed of the columns of two rows stays below a bound exactly if
the width of the header, the width of the row and nine times the padding do. It
stays below one of 63 bits if no cell is wider than a browser allows. -/
theorem row_arithmetic (r : Reader) (g : Grouping) (fields : Assoc Field) (header row : Spot) :
    (∀ bound, StaysBelow bound r g fields header row ↔
      1 + width header < bound ∧ width row < bound ∧
        9 * min (spannedWidth header) (width header - width row) < bound) ∧
    ((∀ c ∈ cells header, columnSpan c ≤ 1000) → (∀ c ∈ cells row, columnSpan c ≤ 1000) →
      (cells header).length < 0x2000000000000 → (cells row).length < 0x2000000000000 →
      StaysBelow 0x8000000000000000 r g fields header row) :=
  ⟨fun _ => staysBelow_iff, staysBelow_of_columnSpan_le⟩

/-- A row of two cells that each take as many columns as `span` says. -/
def wideRow (span : String) : Spot where
  tag := ⟨0, .html, "tr", []⟩
  children := [
    .element ⟨1, .html, "td", [⟨.none, "colspan", span⟩, ⟨.none, "rowspan", "2"⟩]⟩ [],
    .element ⟨2, .html, "td", [⟨.none, "colspan", span⟩]⟩ []]

/-- Two cells of a thousand columns each, above two of one column each. -/
theorem row_arithmetic_of_thousands :
    let header := wideRow "1000"
    let row := wideRow "1"
    (∀ c ∈ cells header, columnSpan c ≤ 1000) ∧ (∀ c ∈ cells row, columnSpan c ≤ 1000) ∧
      (cells header).length < 0x2000000000000 ∧ (cells row).length < 0x2000000000000 ∧
      ∀ r g fields, StaysBelow 0x8000000000000000 r g fields header row := by
  intro header row
  have hheader : ∀ c ∈ cells header, columnSpan c ≤ 1000 := by decide
  have hrow : ∀ c ∈ cells row, columnSpan c ≤ 1000 := by decide
  have hlength (span : String) : (cells (wideRow span)).length < 0x2000000000000 := by
    have htwo : (cells (wideRow span)).length = 2 := rfl
    omega
  exact ⟨hheader, hrow, hlength _, hlength _, fun r g fields =>
    (row_arithmetic r g fields header row).2 hheader hrow (hlength _) (hlength _)⟩

/-- Two cells of `2^62` columns each make a row that is too wide, and a row below
it gets more padding than there is room for. -/
theorem row_arithmetic_too_wide :
    let header := wideRow "4611686018427387904"
    let row := wideRow "1"
    width header = 0x8000000000000000 ∧
      9 * min (spannedWidth header) (width header - width row) = 41505174165846491136 ∧
      ∀ r g fields, ¬ StaysBelow 0x8000000000000000 r g fields header row := by
  intro header row
  have hwidth : width header = 0x8000000000000000 := by decide +kernel
  refine ⟨hwidth, by decide +kernel, fun r g fields h => ?_⟩
  have := h.widths.1
  omega

end SiteScrape.Rows
