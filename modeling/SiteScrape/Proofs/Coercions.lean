import Mathlib.Data.List.TakeWhile
import SiteScrape.Field.Resolve
import SiteScrape.Record.Lenient

/-!
# What is read of a text

A text loses the blanks around it, and becomes a number if it spells one of 64
bits, unless it is an identifier. Written again it is what `Coercion.textOf`
says (`text?_finish`); a text that is not blank stays something on the way
(`isNothing_finish`).
-/

namespace SiteScrape

/-! ### Trimming -/

namespace Text

variable {p : Char → Bool} {cs : List Char} {s : String}

/-- No character at an end satisfies `p`. -/
structure Ends (p : Char → Bool) (cs : List Char) : Prop where
  head : ∀ c, cs.head? = some c → p c = false
  last : ∀ c, cs.getLast? = some c → p c = false

theorem isBlank_of_isDigit {c : Char} (h : c.isDigit = true) : isBlank c = false := by
  have hrange : 48 ≤ c.toNat ∧ c.toNat ≤ 57 := by
    simpa [Char.isDigit, UInt32.le_iff_toNat_le] using h
  have hdigits : ∀ n < 58, 48 ≤ n → isBlank (Char.ofNat n) = false := by decide
  exact Char.ofNat_toNat c ▸ hdigits c.toNat (by omega) hrange.1

theorem dropWhile_eq_self (h : ∀ c, cs.head? = some c → p c = false) : cs.dropWhile p = cs := by
  cases cs with
  | nil => rfl
  | cons c rest => rw [List.dropWhile_cons_of_neg (by simp [h c rfl])]

theorem head_of_dropWhile {c : Char} (h : (cs.dropWhile p).head? = some c) : p c = false := by
  simpa [h] using List.head?_dropWhile_not p cs

theorem Ends.trimBoth_eq (h : Ends p cs) : trimBoth p cs = cs := by
  have hlast : cs.reverse.dropWhile p = cs.reverse :=
    dropWhile_eq_self fun c hc => h.last c (by simpa using hc)
  rw [trimBoth, trimLeft, dropWhile_eq_self h.head, trimRight, hlast, List.reverse_reverse]

theorem trimBoth_subset (p : Char → Bool) (cs : List Char) : trimBoth p cs ⊆ cs := by
  intro c hc
  rw [trimBoth, trimRight, List.mem_reverse] at hc
  exact List.dropWhile_subset p (List.mem_reverse.mp (List.dropWhile_subset p hc))

theorem ends_trimBoth (p : Char → Bool) (cs : List Char) : Ends p (trimBoth p cs) where
  last c hc := head_of_dropWhile (by simpa [trimBoth, trimRight] using hc)
  head c hc := by
    -- what is left at the end is the first part of what is left at the start
    obtain ⟨dropped, hdropped⟩ : trimBoth p cs <+: cs.dropWhile p := by
      rw [trimBoth, trimRight, ← List.reverse_suffix, List.reverse_reverse]
      exact List.dropWhile_suffix p
    have hfront : (cs.dropWhile p).head? = some c := by
      rw [← hdropped, List.head?_append, hc, Option.some_or]
    exact head_of_dropWhile hfront

@[simp] theorem trim_trim (s : String) : trim (trim s) = trim s := by
  simp only [trim, String.toList_ofList, (ends_trimBoth isBlank s.toList).trimBoth_eq]

theorem trim_eq_empty_iff : trim s = "" ↔ isBlankText s = true := by
  have hempty : trim s = "" ↔ (s.toList.dropWhile isBlank).reverse.dropWhile isBlank = [] := by
    simp [trim, trimBoth, trimRight, trimLeft]
  have hblank : isBlankText s = true ↔ s.toList.dropWhile isBlank = [] := by
    simp [isBlankText, List.dropWhile_eq_nil_iff]
  rw [hempty, hblank, List.dropWhile_eq_nil_iff]
  refine ⟨fun h => ?_, fun h => by simp [h]⟩
  cases hc : s.toList.dropWhile isBlank with
  | nil => rfl
  | cons c rest =>
    have hhead : isBlank c = false := head_of_dropWhile (by rw [hc]; rfl)
    rw [h c (by simp [hc])] at hhead
    cases hhead

end Text

/-! ### Texts that become numbers and texts again -/

theorem finish_numeric (t : String) : Coercion.numeric.finish (.str t) =
    ((Decimal.int64? (Text.trim t)).map Json.ofInt64).getD (.str (Text.trim t)) := rfl

/-- How a text is written in the end: without the blanks around it, and a whole
number of 64 bits in its shortest form. -/
def Coercion.textOf (c : Coercion) (t : String) : String :=
  match c with
  | .keep => Text.trim t
  | .numeric => ((Decimal.int64? (Text.trim t)).map fun n => toString n.toInt).getD (Text.trim t)

theorem Json.asText_num (n : Number) : (Json.num n).asText = Json.numberText n := by
  rw [Json.asText, Json.text] <;> simp

theorem repr_int_ne_empty (n : Int) : n.repr ≠ "" := by
  intro h
  have htoList := congrArg String.toList h
  cases n with
  | ofNat n => simp [Int.repr] at htoList
  | negSucc n => simp [Int.repr] at htoList

theorem text?_ofInt64 (n : Int64) : Lenient.text? (.ofInt64 n) = some (toString n.toInt) := by
  have htext : (Json.num (.ofInt64 n)).asText = toString n.toInt := Json.asText_num _
  unfold Lenient.text? Json.ofInt64
  simp [htext, repr_int_ne_empty]

section

variable {c : Coercion} {t : String} (h : Text.isBlankText t = false)
include h

theorem trim_ne_empty : Text.trim t ≠ "" := by
  rw [ne_eq, Text.trim_eq_empty_iff, h]
  exact Bool.false_ne_true

/-- What is read of a text is something. -/
theorem isNothing_finish : Field.isNothing (c.finish (.str t)) = false := by
  have htrim : Field.isNothing (.str (Text.trim t)) = false := by
    refine Bool.eq_false_iff.mpr fun hblank => trim_ne_empty h ?_
    rw [← Text.trim_trim, Text.trim_eq_empty_iff]
    exact hblank
  cases c with
  | keep => exact htrim
  | numeric =>
    rw [finish_numeric]
    cases Decimal.int64? (Text.trim t) with
    | none => exact htrim
    | some n => rfl

/-- The text that a record makes of what is read of a text. -/
theorem text?_finish : Lenient.text? (c.finish (.str t)) = some (c.textOf t) := by
  have htext : Lenient.text? (.str (Text.trim t)) = some (Text.trim t) := by
    simp [Lenient.text?, trim_ne_empty h]
  cases c with
  | keep => exact htext
  | numeric =>
    rw [finish_numeric, Coercion.textOf]
    cases Decimal.int64? (Text.trim t) with
    | none => exact htext
    | some n => exact text?_ofInt64 n

end

/-- A candidate that wins yields no blank text. -/
theorem Field.not_blank_of_winner? {resolver : Resolver} {now : Int} {f : Field} {source : Source}
    {place t : String} (h : f.winner? resolver now source = some (place, .str t)) :
    Text.isBlankText t = false := by
  obtain ⟨candidate, -, hyield⟩ := List.exists_of_findSome?_eq_some h
  obtain ⟨v, hv, hpair⟩ := Option.map_eq_some_iff.mp hyield
  obtain ⟨-, rfl⟩ := Prod.mk.inj hpair
  simpa [Field.isNothing] using (Option.filter_eq_some_iff.mp hv).2

end SiteScrape
