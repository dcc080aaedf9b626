import Mathlib
import SiteScrape.Field.Resolve
import SiteScrape.Proofs.Subtrees
import SiteScrape.Rows.Columns

/-!
# Selectors of columns

The selector of column `n` is read as one compound, a `td` in place `n`
(`read?_columnSelector`): a number written in decimal comes back from the
tokens as itself (`value_digits`), up to the greatest size that a token holds.
In a row it finds the first such element at any depth
(`place?_columnSelector`).
-/

namespace SiteScrape.Css

namespace Token

variable {cs : List Char} {c d : Char}

/-! ### Whole numbers -/

/-- The value of digits is that of the number they write. -/
theorem value_digits (n : Nat) :
    (Nat.toDigits 10 n).foldl (fun n d => n * 10 + (hexValue d : Int)) 0 = (n : Int) := by
  have hall : ∀ c ∈ Nat.toDigits 10 n, c.isDigit := fun c =>
    Nat.isDigit_of_mem_toDigits (by decide) (by decide)
  have hvalue : ∀ cs : List Char, (∀ c ∈ cs, c.isDigit) → ∀ m : Nat,
      cs.foldl (fun n d => n * 10 + (hexValue d : Int)) (m : Int) =
        (Nat.ofDigitChars 10 cs m : Int) := by
    intro cs hcs
    induction cs with
    | nil => simp
    | cons c cs ih =>
      intro m
      obtain ⟨hc, hcs⟩ := List.forall_mem_cons.mp hcs
      rw [List.foldl_cons, Nat.ofDigitChars_cons, ← ih hcs]
      congr 1
      simp [hexValue, hc]
      omega
  have := hvalue _ hall 0
  rwa [Nat.ofDigitChars_ten_toDigits] at this

theorem beq_of_digit (hc : c.isDigit) (hd : d.isDigit = false) : (c == d) = false := by
  refine beq_false_of_ne ?_
  rintro rfl
  rw [hc] at hd
  cases hd

/-- Digits in front of a closing bracket are a number without a sign. -/
theorem numeric_digits (hcs : ∀ c ∈ cs, c.isDigit) (hne : cs ≠ []) :
    numeric (cs ++ [')']) =
      (.number false
        (some (clampWhole (cs.foldl (fun n d => n * 10 + (hexValue d : Int)) 0))), [')']) := by
  obtain ⟨c, ds, rfl⟩ := List.exists_cons_of_ne_nil hne
  have hc := hcs c (by simp)
  have htake : (c :: (ds ++ [')'])).takeWhile Char.isDigit = c :: ds := by
    rw [← List.cons_append, List.takeWhile_append_of_pos hcs]
    simp
  have hdrop : (c :: (ds ++ [')'])).dropWhile Char.isDigit = [')'] := by
    rw [← List.cons_append, List.dropWhile_append_of_pos hcs]
    simp
  have hplus : c ≠ '+' := by rintro rfl; exact absurd hc (by decide)
  have hminus : c ≠ '-' := by rintro rfl; exact absurd hc (by decide)
  simp [numeric, hplus, hminus, htake, hdrop, startsIdent, isNameStart]

/-- The number is the first token. -/
theorem first_digits {n : Nat} (h : Nat.toDigits 10 n = c :: cs) :
    first c (cs ++ [')']) = (some (.number false (some (clampWhole n))), [')']) := by
  have hall : ∀ d ∈ c :: cs, d.isDigit := fun d hd =>
    Nat.isDigit_of_mem_toDigits (b := 10) (n := n) (by decide) (by decide) (h ▸ hd)
  have hc := hall c (by simp)
  have hnum : numeric (c :: cs ++ [')']) = _ := numeric_digits hall (by simp)
  rw [← h, value_digits, h, List.cons_append] at hnum
  simp [first, isSpace, isNewline, beq_of_digit hc, hc, hnum]

end Token

/-! ### The selector of a column -/

open Html (Spot)
open Rows (columnSelector)

theorem ofText_columnSelector (n : Nat) :
    Token.ofText (columnSelector n) =
      [.ident "td", .delim ':', .openBlock (.call "nth-child"),
        .number false (some (Token.clampWhole n)), .closeBlock ')'] := by
  obtain ⟨c, cs, hdigits⟩ := List.exists_cons_of_ne_nil (Nat.toDigits_ne_nil (n := n) (b := 10))
  have htext : (columnSelector n).toList = "td:nth-child(".toList ++ c :: (cs ++ [')']) := by
    simp [columnSelector, hdigits]
  have hname (rest : List Char) :
      Token.first 't' ('d' :: ':' :: rest) = (some (.ident "td"), ':' :: rest) := by cbv
  have hcolon (rest : List Char) :
      Token.first ':' ('n' :: rest) = (some (.delim ':'), 'n' :: rest) := by cbv
  have hcall (rest : List Char) :
      Token.first 'n' ('t' :: 'h' :: '-' :: 'c' :: 'h' :: 'i' :: 'l' :: 'd' :: '(' :: rest) =
        (some (.openBlock (.call "nth-child")), rest) := by cbv
  have hclose : Token.first ')' [] = (some (.closeBlock ')'), []) := by cbv
  obtain ⟨fuel, hfuel⟩ : ∃ fuel, (columnSelector n).length = fuel + 6 := by
    refine ⟨(columnSelector n).length - 6, ?_⟩
    rw [← String.length_toList, htext]
    simp
  rw [Token.ofText, hfuel, htext]
  simp [Token.scan, hname, hcolon, hcall, Token.first_digits hdigits, hclose]

/-- What stands for a `td` in one place. -/
def tdAt (place : Int) : Selector := ⟨[.last [.name "td", .nth ⟨0, place, false, false⟩]]⟩

theorem read?_columnSelector (n : Nat) :
    Selector.read? (columnSelector n) = some (tdAt (Token.clampWhole n)) := by
  have hpieces : Piece.ofText (columnSelector n) =
      [.token (.ident "td"), .token (.delim ':'),
        .block (.call "nth-child") [.token (.number false (some (Token.clampWhole n)))]] := by
    rw [Piece.ofText, ofText_columnSelector]
    rfl
  rw [Selector.read?, hpieces]
  generalize Token.clampWhole n = place
  cbv

/-- The element is what the selector of a column is about: a `td` in that
place among its siblings. -/
def isTdAt (n : Nat) (e : Spot) : Bool :=
  e.tag.name == "td" && (e.place : Int) == Token.clampWhole n

theorem holds_tdAt (n : Nat) (scope : Option Nat) (e : Spot) :
    (tdAt (Token.clampWhole n)).holds scope e = isTdAt n e := by
  have hname : spelledIn e.tag "td" = "td" := by
    unfold spelledIn
    split <;> cbv
  have hplace : Nth.placeOf ⟨0, Token.clampWhole n, false, false⟩ e = e.place := by
    simp [Nth.placeOf, Spot.place]
  simp [tdAt, Selector.holds, anyHolds, Complex.holds, allHold, Simple.holds, hname, Nth.holds, hplace,
    isTdAt]

/-- In a row, the selector of a column stands for the first `td` in that place
at any depth. -/
theorem place?_columnSelector (n : Nat) (row : Spot) :
    Field.place? (.element row) (columnSelector n) =
      (row.descendants.find? (isTdAt n)).map .element := by
  have hself : columnSelector n ≠ Field.selfPlace := by
    intro h
    have := congrArg (·.toList.head?) h
    simp [columnSelector, Field.selfPlace] at this
  have hbelow : (tdAt (Token.clampWhole n)).below row = row.descendants.filter (isTdAt n) :=
    List.filter_congr fun e _ => holds_tdAt n _ e
  simp [Field.place?, hself, read?_columnSelector, hbelow]

end SiteScrape.Css
