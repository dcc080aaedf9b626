import Mathlib.Data.List.TakeWhile
import SiteScrape.Decimal.Whole
import SiteScrape.Json.Reader
import SiteScrape.Json.Writer
import SiteScrape.Proofs.Occurrences
import SiteScrape.Proofs.ScaledNumbers

/-!
# Numbers are read off their texts

A number in JSON text is a sign, digits, perhaps a fraction and perhaps an
exponent; `number?_whole`, `number?_fraction` and `number?_exponent` say what is
read off each form. A written whole number is read as itself (`number?_int`), and
the shortest decimal of a finite double as some double (`exists_number_ofFloat`).
The only way to refuse one would be a product beyond the range of doubles; the
interval around the double keeps its decimal below that (`fits_shortest`), save for
the three greatest doubles, which are read off their texts one by one.
-/

namespace SiteScrape.Json

variable {cs whole fraction rest : List Char} {n : Nat}

/-! ### Digits -/

/-- Digits and nothing else. -/
def AreDigits (cs : List Char) : Prop := ∀ c ∈ cs, c.isDigit = true

/-- Digits that a number may begin with: at least one, and no zero before others. -/
structure IsWhole (cs : List Char) : Prop where
  digits : AreDigits cs
  ne_nil : cs ≠ []
  lead : cs.head? = some '0' → cs.length = 1

theorem digit_lt {c : Char} (h : c.isDigit = true) : c.toNat - '0'.toNat < 10 := by
  simp only [Char.isDigit, Bool.and_eq_true, decide_eq_true_eq, ge_iff_le, UInt32.le_iff_toNat_le] at h
  have hnine : c.toNat ≤ 57 := h.2
  show c.toNat - 48 < 10
  omega

theorem ofDigitChars_lt (h : AreDigits cs) : Nat.ofDigitChars 10 cs 0 < 10 ^ cs.length := by
  induction cs with
  | nil => simp
  | cons c rest ih =>
    obtain ⟨hc, hrest⟩ := List.forall_mem_cons.mp h
    have hlt := digit_lt hc
    have ih := ih hrest
    rw [Nat.ofDigitChars_cons, Nat.ofDigitChars_eq_ofDigitChars_zero, List.length_cons, pow_succ]
    have hmul : 10 ^ rest.length * (10 * 0 + (c.toNat - '0'.toNat)) ≤ 10 ^ rest.length * 9 :=
      Nat.mul_le_mul_left _ (by omega)
    omega

theorem natOf_toDigits (n : Nat) : Decimal.natOf (Nat.toDigits 10 n) = n :=
  Nat.ofDigitChars_ten_toDigits

theorem areDigits_toDigits (n : Nat) : AreDigits (Nat.toDigits 10 n) :=
  fun _ => Nat.isDigit_of_mem_toDigits (by decide) (by decide)

/-- Digits of a number of 64 bits are read as it. -/
theorem index?_toDigits (h : n < 0x10000000000000000) :
    Decimal.index? (String.ofList (Nat.toDigits 10 n)) = some n := by
  have hdigit : ∀ c ∈ Nat.toDigits 10 n, c.isDigit = true := areDigits_toDigits n
  have hread : Decimal.digits? (Nat.toDigits 10 n) = some n := by
    rw [Decimal.digits?, if_pos (by simpa [Nat.toDigits_ne_nil] using hdigit), natOf_toDigits]
  rw [Decimal.index?, Decimal.natBelow?, String.toList_ofList]
  split
  · next hplus => exact absurd (hdigit '+' (hplus ▸ List.mem_cons_self)) (by decide)
  · simp [hread, h]

theorem isWhole_toDigits (n : Nat) : IsWhole (Nat.toDigits 10 n) := by
  refine ⟨areDigits_toDigits n, Nat.toDigits_ne_nil, fun hlead => ?_⟩
  obtain ⟨rest, hrest⟩ := List.head?_eq_some_iff.mp hlead
  -- with a zero in front the number would have one digit less
  have hdigits : AreDigits rest := fun c hc =>
    areDigits_toDigits n c (hrest ▸ List.mem_cons_of_mem _ hc)
  have hn : Nat.ofDigitChars 10 rest 0 = n := by
    have hvalue := natOf_toDigits n
    rw [hrest] at hvalue
    exact hvalue
  by_contra hlength
  have hpos : 0 < rest.length := by
    rw [hrest, List.length_cons] at hlength
    omega
  have hlt := ofDigitChars_lt hdigits
  rw [hn] at hlt
  have hle := (Nat.length_toDigits_le_iff (by decide) hpos).mpr hlt
  rw [hrest, List.length_cons] at hle
  omega

/-- Digits end where something else begins. -/
theorem takeDigits_append (h : AreDigits cs) (hrest : ∀ c, rest.head? = some c → c.isDigit = false) :
    takeDigits (cs ++ rest) = (cs, rest) := by
  rw [takeDigits, Text.takeWhile_append_stop hrest, Text.dropWhile_append_stop hrest,
    List.takeWhile_eq_self_iff.mpr h, List.dropWhile_eq_nil_iff.mpr h, List.nil_append]

theorem takeDigits_self (h : AreDigits cs) : takeDigits cs = (cs, []) := by
  have happend : takeDigits (cs ++ []) = (cs, []) := takeDigits_append h fun c hc => nomatch hc
  rwa [List.append_nil] at happend

/-! ### Collected digits -/

theorem le_ofDigitChars (cs : List Char) (n : Nat) : n * 10 ^ cs.length ≤ Nat.ofDigitChars 10 cs n := by
  rw [Nat.ofDigitChars_eq_ofDigitChars_zero, Nat.mul_comm]
  exact Nat.le_add_right _ _

theorem collectWhole_of_fits (h : Nat.ofDigitChars 10 cs n < 0x10000000000000000) :
    collectWhole n cs = ⟨Nat.ofDigitChars 10 cs n, 0⟩ := by
  induction cs generalizing n with
  | nil => simp [collectWhole]
  | cons c rest ih =>
    rw [Nat.ofDigitChars_cons] at h ⊢
    have hle := le_ofDigitChars rest (10 * n + (c.toNat - '0'.toNat))
    have hpos : 0 < 10 ^ rest.length := by positivity
    have hfits : 10 * n + (c.toNat - '0'.toNat) < 0x10000000000000000 :=
      ((Nat.le_mul_of_pos_right _ hpos).trans hle).trans_lt h
    rw [collectWhole]
    simp only [if_pos hfits]
    exact ih h

/-- Digits that do not fit make the number smaller at worst. -/
theorem collectFraction_spec (s : Significand) (cs : List Char) : ∃ j k : Nat, j + k = cs.length ∧
      (collectFraction s cs).exponent = s.exponent - j ∧
      (collectFraction s cs).digits * 10 ^ k ≤ Nat.ofDigitChars 10 cs s.digits := by
  induction cs generalizing s with
  | nil => exact ⟨0, 0, rfl, by simp [collectFraction], by simp [collectFraction]⟩
  | cons c rest ih =>
    rw [collectFraction]
    by_cases hfits : 10 * s.digits + (c.toNat - '0'.toNat) < 0x10000000000000000
    · simp only [if_pos hfits]
      obtain ⟨j, k, hjk, hexp, hle⟩ :=
        ih ⟨10 * s.digits + (c.toNat - '0'.toNat), s.exponent - 1⟩
      refine ⟨j + 1, k, by rw [List.length_cons]; omega, ?_, by rwa [Nat.ofDigitChars_cons]⟩
      rw [hexp]
      push_cast
      ring
    · simp only [if_neg hfits]
      exact ⟨0, rest.length + 1, by rw [List.length_cons]; omega, by simp,
        le_ofDigitChars (c :: rest) s.digits⟩

/-! ### The parts of a number -/

/-- With a minus sign if the number is negative. -/
def marked (negative : Bool) (cs : List Char) : List Char := if negative then '-' :: cs else cs

theorem IsWhole.head_ne (h : IsWhole whole) : whole.head? ≠ some '-' := by
  intro hminus
  obtain ⟨ws, rfl⟩ := List.head?_eq_some_iff.mp hminus
  exact absurd (h.digits '-' List.mem_cons_self) (by decide)

theorem IsWhole.not_refused (h : IsWhole whole) :
    (whole.isEmpty || (whole.head? == some '0' && decide (whole.length ≠ 1))) = false := by
  have hne := h.ne_nil
  have hlead := h.lead
  simp only [Bool.or_eq_false_iff, List.isEmpty_eq_false_iff, Bool.and_eq_false_iff,
    beq_eq_false_iff_ne, decide_eq_false_iff_not, not_not]
  exact ⟨hne, by tauto⟩

theorem takeMinus_marked (negative : Bool) (h : cs.head? ≠ some '-') :
    takeMinus (marked negative cs) = (negative, cs) := by
  cases negative with
  | true => rfl
  | false =>
    rw [marked, if_neg Bool.false_ne_true]
    unfold takeMinus
    split
    · exact absurd rfl h
    · rfl

/-- A whole number alone. -/
theorem number?_whole (negative : Bool) (h : IsWhole whole) :
    number? (marked negative whole) = wholeNumber negative whole := by
  unfold number?
  rw [takeMinus_marked negative h.head_ne]
  simp only [takeDigits_self h.digits, h.not_refused]
  rfl

/-- A whole number, a point and a fraction. -/
theorem number?_fraction (negative : Bool) (h : IsWhole whole) (hfraction : AreDigits fraction)
    (hne : fraction ≠ []) : number? (marked negative (whole ++ '.' :: fraction)) =
      decimalNumber negative whole fraction false [] := by
  have htake : takeDigits (whole ++ '.' :: fraction) = (whole, '.' :: fraction) :=
    takeDigits_append h.digits (by rintro _ ⟨⟩; decide)
  have hhead : (whole ++ '.' :: fraction).head? ≠ some '-' := by
    rw [List.head?_append_of_ne_nil _ h.ne_nil]
    exact h.head_ne
  unfold number?
  rw [takeMinus_marked negative hhead]
  simp only [htake, h.not_refused, takeDigits_self hfraction, List.isEmpty_eq_false_iff.mpr hne]
  rfl

/-- The sign that an exponent shows. -/
def exponentSign (negative : Bool) : Char := if negative then '-' else '+'

theorem exponentPart_eq (negative lowered : Bool) (whole fraction : List Char)
    (h : AreDigits cs) (hne : cs ≠ []) :
    number?.exponentPart negative whole fraction 'e' (exponentSign lowered :: cs) =
      decimalNumber negative whole fraction lowered cs := by
  cases lowered <;>
    · unfold number?.exponentPart exponentSign
      simp [takeSign, takeDigits_self h, hne]

/-- A whole number, perhaps a point and a fraction, and an exponent. -/
theorem number?_exponent (negative lowered : Bool) (h : IsWhole whole)
    (hfraction : AreDigits fraction) (hcs : AreDigits cs) (hne : cs ≠ []) :
    number? (marked negative (whole ++ ((if fraction.isEmpty then [] else '.' :: fraction) ++
        'e' :: exponentSign lowered :: cs))) =
      decimalNumber negative whole fraction lowered cs := by
  have hpart := exponentPart_eq negative lowered whole fraction hcs hne
  have htake : takeDigits (fraction ++ 'e' :: exponentSign lowered :: cs) =
      (fraction, 'e' :: exponentSign lowered :: cs) :=
    takeDigits_append hfraction (by rintro _ ⟨⟩; decide)
  generalize htail : (if fraction.isEmpty then [] else '.' :: fraction) ++
    'e' :: exponentSign lowered :: cs = tail
  have hstop : ∀ c, tail.head? = some c → c.isDigit = false := by
    rw [← htail]
    cases fraction with
    | nil => rintro _ ⟨⟩; decide
    | cons f fs => rintro _ ⟨⟩; decide
  have hhead : (whole ++ tail).head? ≠ some '-' := by
    rw [List.head?_append_of_ne_nil _ h.ne_nil]
    exact h.head_ne
  unfold number?
  rw [takeMinus_marked negative hhead]
  simp only [takeDigits_append h.digits hstop, h.not_refused]
  rw [← htail]
  cases fraction with
  | nil => exact hpart
  | cons f fs =>
    rw [List.cons_append] at htake
    simp only [List.isEmpty_cons, Bool.false_eq_true, if_false, List.cons_append, htake]
    exact hpart

/-! ### Doubles that are not too large -/

theorem exists_decimalNumber (negative lowered : Bool) {exponent : List Char} {s : Significand}
    {x : Int} (hs : collectFraction (collectWhole 0 whole) fraction = s)
    (hx : s.exponent + (if lowered then -(Decimal.natOf exponent : Int)
      else Decimal.natOf exponent) = x)
    (hlimit : Decimal.natOf exponent ≤ exponentLimit ∨ lowered = true)
    (h : ∀ fuel, (Decimal.scaled fuel (Float.ofNat s.digits)
      (max (-0x80000000) (min 0x7fffffff x))).isSome = true) :
    ∃ g, decimalNumber negative whole fraction lowered exponent = some (.float g) := by
  unfold decimalNumber
  by_cases hlarge : Decimal.natOf exponent > exponentLimit
  · have hlowered := hlimit.resolve_left (Nat.not_le.mpr hlarge)
    simp only [if_pos hlarge, hlowered, Bool.not_true, Bool.and_false, Bool.false_eq_true, if_false]
    exact ⟨_, rfl⟩
  · obtain ⟨g, hg⟩ := Option.isSome_iff_exists.mp
      (h ((max (-0x80000000) (min 0x7fffffff x)).natAbs / 308 + 1))
    simp only [if_neg hlarge, hs, hx]
    rw [hg]
    exact ⟨_, rfl⟩

/-- Digits of which at least one stands behind the point, and few before it. -/
theorem exists_decimalNumber_plain (negative : Bool) (h : AreDigits whole)
    (hlength : whole.length ≤ 16) (hfraction : AreDigits fraction) (hne : fraction ≠ []) :
    ∃ g, decimalNumber negative whole fraction false [] = some (.float g) := by
  obtain ⟨c, rest, rfl⟩ := List.exists_cons_of_ne_nil hne
  have hc := digit_lt (hfraction c List.mem_cons_self)
  have hwhole : Nat.ofDigitChars 10 whole 0 < 10 ^ 16 :=
    (ofDigitChars_lt h).trans_le (Nat.pow_le_pow_right (by decide) hlength)
  have hfits : 10 * Nat.ofDigitChars 10 whole 0 + (c.toNat - '0'.toNat) < 0x10000000000000000 := by
    omega
  obtain ⟨j, _, -, hexp, -⟩ := collectFraction_spec
    ⟨10 * Nat.ofDigitChars 10 whole 0 + (c.toNat - '0'.toNat), 0 - 1⟩ rest
  refine exists_decimalNumber negative false rfl rfl (.inl (Nat.zero_le _)) fun fuel => ?_
  rw [collectWhole_of_fits (by omega), collectFraction]
  simp only [if_pos hfits, hexp]
  refine Decimal.isSome_scaled_of_neg fuel _ ?_
  show max _ (min _ (0 - 1 - (j : Int) + 0)) < 0
  omega

/-- However many of its digits are left out, the number is not too large. -/
def Fits (d : Decimal.Digits) : Prop :=
  ∀ n k t : Nat, n * 10 ^ t ≤ d.value → (k : Int) = d.exponent + t → n * 10 ^ k ≤ Decimal.greatest

theorem lt_of_pow_le_greatest {k : Nat} (h : 10 ^ k ≤ Decimal.greatest) : k < 309 := by
  by_contra hk
  obtain ⟨j, rfl⟩ : ∃ j, k = 155 + 154 + j := ⟨k - 309, by omega⟩
  have hlarge : Decimal.greatest < 10 ^ 155 * 10 ^ 154 := by decide +kernel
  rw [pow_add, pow_add] at h
  have hle := le_trans (Nat.le_mul_of_pos_right (10 ^ 155 * 10 ^ 154) (show 0 < 10 ^ j by positivity)) h
  exact absurd hlarge (Nat.not_lt.mpr hle)

/-- One digit, the others behind the point, and an exponent. -/
theorem exists_decimalNumber_scientific (negative lowered : Bool) {c : Char} {exponent : List Char}
    {d : Decimal.Digits} (h : AreDigits (c :: rest)) (hvalue : Nat.ofDigitChars 10 (c :: rest) 0 = d.value)
    (hpos : 10 ^ rest.length ≤ d.value)
    (hexponent : (if lowered then -(Decimal.natOf exponent : Int) else Decimal.natOf exponent) =
      d.exponent + rest.length) (hfits : Fits d) :
    ∃ g, decimalNumber negative [c] rest lowered exponent = some (.float g) := by
  have hc := digit_lt (h c List.mem_cons_self)
  have hwhole : collectWhole 0 [c] = ⟨c.toNat - '0'.toNat, 0⟩ := by
    have hfits : Nat.ofDigitChars 10 [c] 0 = c.toNat - '0'.toNat := by
      rw [Nat.ofDigitChars_cons, Nat.ofDigitChars_nil]
      omega
    rw [collectWhole_of_fits (by omega), hfits]
  obtain ⟨j, t, hjt, hexp, hle⟩ := collectFraction_spec ⟨c.toNat - '0'.toNat, 0⟩ rest
  have hvalue : Nat.ofDigitChars 10 rest (c.toNat - '0'.toNat) = d.value := by
    rw [← hvalue, Nat.ofDigitChars_cons, Nat.mul_zero, Nat.zero_add]
  simp only [hvalue] at hle
  refine exists_decimalNumber negative lowered (by rw [hwhole]) rfl ?_ fun fuel => ?_
  · cases lowered with
    | true => exact .inr rfl
    | false =>
      have hk := hfits 1 (Decimal.natOf exponent) rest.length (by rwa [Nat.one_mul]) hexponent
      rw [Nat.one_mul] at hk
      have hlt := lt_of_pow_le_greatest hk
      exact .inl (hlt.le.trans (by decide))
  · rw [hexponent, hexp]
    by_cases hneg : d.exponent + t < 0
    · exact Decimal.isSome_scaled_of_neg fuel _ (by simp only; omega)
    · obtain ⟨k, hk⟩ := Int.eq_ofNat_of_zero_le (Int.not_lt.mp hneg)
      have hproduct := hfits _ k t hle hk.symm
      have hshift : max (-0x80000000) (min 0x7fffffff (0 - (j : Int) + (d.exponent + rest.length))) =
          (min 0x7fffffff k : Nat) := by omega
      simp only [hshift]
      refine Decimal.isSome_scaled fuel (le_trans (Nat.mul_le_mul_left _ ?_) hproduct)
      exact Nat.pow_le_pow_right (by decide) (Nat.min_le_right _ _)

/-! ### Shortest decimals -/

section Shortest

open Decimal (Digits Interval Ratio gridHit firstHit shortest)

/-- What a grid finds is one of the two neighbours, and in the interval. -/
theorem gridHit_spec {i : Interval} {r : Ratio} {e : Int} {d : Digits} (h : gridHit i r e = some d) :
    0 < d.value ∧ i.contains (.ofDecimal d.value d.exponent) = true := by
  have hneighbour : ∀ {n : Nat}, d = ⟨n, e⟩ → 0 < n → i.contains (.ofDecimal n e) = true →
      0 < d.value ∧ i.contains (.ofDecimal d.value d.exponent) = true := by
    rintro n rfl hpos hin
    exact ⟨hpos, hin⟩
  unfold gridHit at h
  generalize r.floorAt e = below at h
  have hbelow : (decide (below ≠ 0) && i.contains (.ofDecimal below e)) = true → d = ⟨below, e⟩ →
      0 < d.value ∧ i.contains (.ofDecimal d.value d.exponent) = true := by
    intro hlow hd
    obtain ⟨hne, hin⟩ := Bool.and_eq_true_iff.mp hlow
    exact hneighbour hd (Nat.pos_of_ne_zero (of_decide_eq_true hne)) hin
  have habove : i.contains (.ofDecimal (below + 1) e) = true → d = ⟨below + 1, e⟩ →
      0 < d.value ∧ i.contains (.ofDecimal d.value d.exponent) = true :=
    fun hin hd => hneighbour hd (Nat.succ_pos _) hin
  simp only at h
  split at h
  next hboth =>
    obtain ⟨hlow, hhigh⟩ := Bool.and_eq_true_iff.mp hboth
    have heven : d = ⟨below, e⟩ ∨ d = ⟨below + 1, e⟩ := by
      split at h
      · exact .inl (Option.some.inj h).symm
      · split at h
        · exact .inr (Option.some.inj h).symm
        · split at h
          · exact .inl (Option.some.inj h).symm
          · exact .inr (Option.some.inj h).symm
    exact heven.elim (hbelow hlow) (habove hhigh)
  next =>
    split at h
    next hlow => exact hbelow hlow (Option.some.inj h).symm
    next =>
      split at h
      next hhigh => exact habove hhigh (Option.some.inj h).symm
      next => cases h

theorem firstHit_spec {i : Interval} {r : Ratio} {steps : Nat} {e : Int} {d : Digits}
    (h : firstHit i r steps e = some d) :
    0 < d.value ∧ i.contains (.ofDecimal d.value d.exponent) = true := by
  induction steps generalizing e with
  | zero => cases h
  | succ steps ih =>
    rw [firstHit] at h
    split at h
    next hit =>
      cases h
      exact gridHit_spec hit
    next => exact ih h

theorem ofDyadic_eq (m : Nat) (q : Int) :
    Ratio.ofDyadic m q = ⟨m * 2 ^ q.toNat, 2 ^ (-q).toNat⟩ := by
  cases q with
  | ofNat k => simp [Ratio.ofDyadic, Nat.shiftLeft_eq]
  | negSucc k => simp [Ratio.ofDyadic, Nat.shiftLeft_eq, Int.neg_negSucc]

theorem ofDecimal_eq (m : Nat) (e : Int) :
    Ratio.ofDecimal m e = ⟨m * 10 ^ e.toNat, 10 ^ (-e).toNat⟩ := by
  have htenTo : ∀ k, Decimal.tenTo k = 10 ^ k := fun _ => rfl
  cases e with
  | ofNat k => simp [Ratio.ofDecimal, htenTo]
  | negSucc k => simp [Ratio.ofDecimal, htenTo, Int.neg_negSucc]

theorem le_upper_of_contains {i : Interval} {r : Ratio} (h : i.contains r = true) :
    r.num * i.upper.den ≤ i.upper.num * r.den := by
  unfold Interval.contains at h
  split at h
  · exact of_decide_eq_true (Bool.and_eq_true_iff.mp h).2
  · exact (of_decide_eq_true (Bool.and_eq_true_iff.mp h).2).le

/-- A decimal below the upper end of the interval fits if the upper end does. -/
theorem fits_of_contains {m : Nat} {q : Int} {d : Digits}
    (h : (Interval.around m q).contains (.ofDecimal d.value d.exponent) = true)
    (hupper : (2 * m + 1) * 2 ^ (q - 1).toNat ≤ Decimal.greatest * 2 ^ (-(q - 1)).toNat) : Fits d := by
  have hle := le_upper_of_contains h
  rw [show (Interval.around m q).upper = .ofDyadic (2 * m + 1) (q - 1) from rfl,
    ofDyadic_eq, ofDecimal_eq] at hle
  simp only at hle
  intro n k t hn hk
  have hplaces : k + (-d.exponent).toNat = t + d.exponent.toNat := by omega
  have hden : 0 < 10 ^ (-d.exponent).toNat := by positivity
  have htwo : 0 < 2 ^ (-(q - 1)).toNat := by positivity
  refine Nat.le_of_mul_le_mul_right ?_ htwo
  refine le_trans (Nat.le_of_mul_le_mul_right ?_ hden) hupper
  calc n * 10 ^ k * 2 ^ (-(q - 1)).toNat * 10 ^ (-d.exponent).toNat
      = n * 10 ^ t * 10 ^ d.exponent.toNat * 2 ^ (-(q - 1)).toNat := by
        rw [mul_right_comm, mul_assoc n, ← pow_add, hplaces, pow_add, ← mul_assoc n]
    _ ≤ d.value * 10 ^ d.exponent.toNat * 2 ^ (-(q - 1)).toNat := by gcongr
    _ ≤ (2 * m + 1) * 2 ^ (q - 1).toNat * 10 ^ (-d.exponent).toNat := hle

/-- Where half a step above a double is no more than the greatest product of digits and a
power of ten, its shortest decimal fits. -/
theorem fits_shortest {m : Nat} {q : Int} (hm : m < 2 ^ 53) (hq : q ≤ 971)
    (htop : q = 971 → m ≤ 2 ^ 53 - 4) : Fits (shortest m q) := by
  unfold shortest
  cases hit : firstHit (.around m q) (.ofDyadic m q) 25 (Decimal.topExponent m q) with
  | none =>
    intro n k t hn _
    have hzero : n = 0 := by
      have hpos : 0 < 10 ^ t := by positivity
      simp only [Option.getD_none, Nat.le_zero, Nat.mul_eq_zero] at hn
      omega
    rw [hzero, Nat.zero_mul]
    exact Nat.zero_le _
  | some d =>
    refine fits_of_contains (firstHit_spec hit).2 ?_
    have hone : 1 ≤ 2 ^ (-(q - 1)).toNat := Nat.one_le_two_pow
    refine le_trans ?_ (Nat.le_mul_of_pos_right _ hone)
    unfold Decimal.greatest
    by_cases h : q = 971
    · have hm : 2 * m + 1 ≤ 0x3ffffffffffff9 := by
        have hm := htop h
        omega
      have hplace : (q - 1).toNat = 970 := by omega
      rw [hplace]
      gcongr
    · have hpow : 2 ^ (q - 1).toNat * 2 ≤ 2 ^ 970 :=
        (pow_succ 2 _).symm.trans_le (pow_le_pow_right₀ (by decide) (by omega))
      calc (2 * m + 1) * 2 ^ (q - 1).toNat ≤ (0x3ffffffffffff9 * 2) * 2 ^ (q - 1).toNat :=
            Nat.mul_le_mul_right _ (by omega)
        _ = 0x3ffffffffffff9 * (2 ^ (q - 1).toNat * 2) := by ring
        _ ≤ 0x3ffffffffffff9 * 2 ^ 970 := Nat.mul_le_mul_left _ hpow

end Shortest

/-! ### Written doubles -/

section Written

open Decimal (Digits digitsOf zeros written)

theorem digitsOf_eq (n : Nat) : digitsOf n = Nat.toDigits 10 n := by
  rw [digitsOf, Nat.toList_repr]

theorem head_toDigits_ne (h : 0 < n) : (Nat.toDigits 10 n).head? ≠ some '0' := by
  intro hlead
  have hlength := (isWhole_toDigits n).lead hlead
  obtain ⟨rest, hrest⟩ := List.head?_eq_some_iff.mp hlead
  have hvalue := natOf_toDigits n
  rw [hrest, List.length_cons] at hlength
  rw [hrest, List.eq_nil_of_length_eq_zero (Nat.succ.inj hlength)] at hvalue
  have hzero : Decimal.natOf ['0'] = 0 := rfl
  omega

theorem areDigits_zeros (n : Nat) : AreDigits (zeros n) := by
  intro c hc
  rw [List.eq_of_mem_replicate hc]
  rfl

theorem AreDigits.append (h : AreDigits cs) (hrest : AreDigits rest) : AreDigits (cs ++ rest) :=
  fun c hc => (List.mem_append.mp hc).elim (h c) (hrest c)

theorem IsWhole.of_head_ne (h : AreDigits cs) (hne : cs ≠ []) (hlead : cs.head? ≠ some '0') :
    IsWhole cs :=
  ⟨h, hne, fun h => absurd h hlead⟩

/-- Digits with a point among or behind them. -/
theorem exists_number_plain (negative : Bool) (h : IsWhole whole) (hlength : whole.length ≤ 16)
    (hfraction : AreDigits fraction) (hne : fraction ≠ []) :
    ∃ g, number? (marked negative (whole ++ '.' :: fraction)) = some (.float g) := by
  rw [number?_fraction negative h hfraction hne]
  exact exists_decimalNumber_plain negative h.digits hlength hfraction hne

theorem pow_le_of_toDigits {n : Nat} {c : Char} (hn : 0 < n)
    (h : Nat.toDigits 10 n = c :: rest) : 10 ^ rest.length ≤ n := by
  by_contra hlt
  cases hr : rest.length with
  | zero =>
    rw [hr] at hlt
    omega
  | succ k =>
    have hle := (Nat.length_toDigits_le_iff (by decide) (by omega)).mpr (Nat.lt_of_not_le hlt)
    rw [h, List.length_cons] at hle
    omega

/-- One digit, the others behind the point, and the place of the first as an exponent. -/
theorem exists_number_scientific (negative : Bool) {c : Char} {d : Digits} {top : Int}
    (hds : Nat.toDigits 10 d.value = c :: rest) (hpos : 0 < d.value) (hfits : Fits d)
    (htop : top = d.exponent + rest.length) :
    ∃ g, number? (marked negative (c :: ((if rest.isEmpty then [] else '.' :: rest) ++
      'e' :: (if top < 0 then '-' else '+') :: digitsOf top.natAbs))) = some (.float g) := by
  have hdigits := hds ▸ areDigits_toDigits d.value
  have hvalue := hds ▸ natOf_toDigits d.value
  have hlead : (c :: rest).head? ≠ some '0' := hds ▸ head_toDigits_ne hpos
  have hwhole : IsWhole [c] :=
    .of_head_ne (fun x hx => hdigits x (by rw [List.mem_singleton.mp hx]; exact List.mem_cons_self))
      (List.cons_ne_nil _ _) hlead
  have hrest : AreDigits rest := fun x hx => hdigits x (List.mem_cons_of_mem _ hx)
  have hexponent : (if decide (top < 0) then -(Decimal.natOf (digitsOf top.natAbs) : Int)
      else Decimal.natOf (digitsOf top.natAbs)) = d.exponent + rest.length := by
    rw [digitsOf_eq, natOf_toDigits]
    by_cases hneg : top < 0
    · simp only [hneg, decide_true, if_true]
      omega
    · simp only [hneg, decide_false, Bool.false_eq_true, if_false]
      omega
  obtain ⟨g, hg⟩ := exists_decimalNumber_scientific negative (decide (top < 0)) hdigits hvalue
    (pow_le_of_toDigits hpos hds) hexponent hfits
  have hplace : AreDigits (digitsOf top.natAbs) := digitsOf_eq _ ▸ areDigits_toDigits _
  have hread := number?_exponent negative (decide (top < 0)) hwhole hrest hplace
    (digitsOf_eq _ ▸ Nat.toDigits_ne_nil)
  rw [hg] at hread
  have hsign : exponentSign (decide (top < 0)) = if top < 0 then '-' else '+' := by
    simp only [exponentSign, decide_eq_true_eq]
  rw [hsign] at hread
  exact ⟨g, hread⟩

/-- Digits that are laid out around a point. -/
theorem exists_number_positional (negative : Bool) {ds : List Char} {e top : Int} (hdigits : AreDigits ds)
    (hne : ds ≠ []) (hlead : ds.head? ≠ some '0') (htop : top = e + ds.length - 1) (hfirst : top < 16) :
    ∃ g, number? (marked negative (if 0 ≤ e then ds ++ zeros e.toNat ++ ['.', '0']
      else if 0 ≤ top then ds.take (top.toNat + 1) ++ '.' :: ds.drop (top.toNat + 1)
      else '0' :: '.' :: zeros (-top - 1).toNat ++ ds)) = some (.float g) := by
  have hlength : 0 < ds.length := List.length_pos_iff.mpr hne
  split
  next hwhole =>
    have hds : IsWhole (ds ++ zeros e.toNat) :=
      .of_head_ne (hdigits.append (areDigits_zeros _)) (by simp [hne])
        (by rwa [List.head?_append_of_ne_nil _ hne])
    refine exists_number_plain negative hds ?_ (areDigits_zeros 1) (List.cons_ne_nil _ _)
    rw [List.length_append, zeros, List.length_replicate]
    omega
  next =>
    split
    next =>
      have hds : IsWhole (ds.take (top.toNat + 1)) := by
        refine .of_head_ne (fun c hc => hdigits c (List.mem_of_mem_take hc)) ?_ ?_
        · simp [hne]
        · rwa [List.head?_take, if_neg (Nat.succ_ne_zero _)]
      refine exists_number_plain negative hds ?_ (fun c hc => hdigits c (List.mem_of_mem_drop hc)) ?_
      · rw [List.length_take]
        omega
      · rw [Ne, List.drop_eq_nil_iff]
        omega
    next =>
      have hzero : IsWhole ['0'] := isWhole_toDigits 0
      refine exists_number_plain negative hzero (by decide) ((areDigits_zeros _).append hdigits) ?_
      simp [hne]

/-- A decimal that is not too large is read off its text, with or without a minus sign. -/
theorem exists_number_written (negative : Bool) {d : Digits} (hpos : d = ⟨0, 0⟩ ∨ 0 < d.value)
    (hfits : Fits d) : ∃ g, number? (marked negative (written d)) = some (.float g) := by
  obtain rfl | hpos := hpos
  · exact exists_number_plain negative (isWhole_toDigits 0) (by decide) (areDigits_zeros 1)
      (List.cons_ne_nil _ _)
  · have hne : Nat.toDigits 10 d.value ≠ [] := Nat.toDigits_ne_nil
    unfold written
    simp only
    split
    next hrange =>
      rw [digitsOf_eq] at hrange ⊢
      exact exists_number_positional negative (areDigits_toDigits d.value) hne (head_toDigits_ne hpos) rfl
        (of_decide_eq_true (Bool.and_eq_true_iff.mp hrange).2)
    next =>
      split
      next hds => exact absurd ((digitsOf_eq _).symm.trans hds) hne
      next c hds =>
        rw [hds]
        rw [digitsOf_eq] at hds
        exact exists_number_scientific negative hds hpos hfits (by simp)
      next c rest hsome hds =>
        obtain ⟨c', rest, rfl⟩ := List.exists_cons_of_ne_nil (show rest ≠ [] from hsome)
        rw [hds]
        rw [digitsOf_eq] at hds
        exact exists_number_scientific negative hds hpos hfits (by simp; ring)

end Written

/-! ### Every finite double, and every whole number -/

theorem shortest_spec (m : Nat) (q : Int) :
    Decimal.shortest m q = ⟨0, 0⟩ ∨ 0 < (Decimal.shortest m q).value := by
  unfold Decimal.shortest
  cases hit : Decimal.firstHit (.around m q) (.ofDyadic m q) 25 (Decimal.topExponent m q) with
  | none => exact .inl rfl
  | some d => exact .inr (firstHit_spec hit).1

/-- A double was read. -/
def isDouble : Option Number → Bool
  | some (.float _) => true
  | _ => false

theorem isDouble_iff {n : Option Number} : isDouble n = true ↔ ∃ g, n = some (.float g) := by
  cases n with
  | none => simp [isDouble]
  | some n => cases n <;> simp [isDouble]

/-- The three greatest doubles are read off their texts, though what exceeds the last of
them by little is refused. -/
theorem isDouble_greatest : ∀ negative, ∀ k < 3, isDouble (number? (marked negative
    (Decimal.written (Decimal.shortest (2 ^ 53 - 1 - k) 971)))) = true := by
  decide +kernel

theorem exists_number_shortest (negative : Bool) {m : Nat} {q : Int} (hm : m < 2 ^ 53) (hq : q ≤ 971) :
    ∃ g, number? (marked negative (Decimal.written (Decimal.shortest m q))) = some (.float g) := by
  by_cases htop : q = 971 → m ≤ 2 ^ 53 - 4
  · exact exists_number_written negative (shortest_spec m q) (fits_shortest hm hq htop)
  · obtain ⟨rfl, hlarge⟩ := Classical.not_imp.mp htop
    obtain ⟨k, hk, rfl⟩ : ∃ k < 3, m = 2 ^ 53 - 1 - k := ⟨2 ^ 53 - 1 - m, by omega, by omega⟩
    exact isDouble_iff.mp (isDouble_greatest negative k hk)

/-- The text of a finite double is read as a double. -/
theorem exists_number_ofFloat {f : Float} (h : Double.isFinite f = true) :
    ∃ cs g, Decimal.ofFloat f = some (String.ofList cs) ∧ number? cs = some (.float g) := by
  unfold Double.isFinite at h
  unfold Decimal.ofFloat
  cases hshape : Double.shape f with
  | infinite negative => rw [hshape] at h; cases h
  | nan => rw [hshape] at h; cases h
  | finite negative m q =>
    obtain ⟨hpart, hq⟩ := Double.isPart_of_shape hshape
    by_cases hm : m = 0
    · have hzero : AreDigits ['0'] := areDigits_zeros 1
      obtain ⟨g, hg⟩ := exists_number_plain negative (isWhole_toDigits 0) (by decide) hzero
        (List.cons_ne_nil _ _)
      refine ⟨_, g, rfl, ?_⟩
      simp only [hm, if_true]
      exact hg
    · obtain ⟨g, hg⟩ := exists_number_shortest negative hpart.lt hq
      refine ⟨_, g, rfl, ?_⟩
      simp only [hm, if_false]
      exact hg

theorem wholeNumber_plain {n : Nat} (hvalue : Decimal.natOf whole = n) (lo : -0x8000000000000000 ≤ (n : Int))
    (hi : (n : Int) < 0x10000000000000000) : wholeNumber false whole = some (.int n lo hi) := by
  subst hvalue
  exact dif_pos (show Decimal.natOf whole < 0x10000000000000000 by omega)

theorem wholeNumber_marked {n : Nat} (hvalue : Decimal.natOf whole = n + 1)
    (lo : -0x8000000000000000 ≤ Int.negSucc n) (hi : Int.negSucc n < 0x10000000000000000) :
    wholeNumber true whole = some (.int (Int.negSucc n) lo hi) := by
  unfold wholeNumber
  simp only [hvalue, if_true]
  exact dif_pos (show 0 < n + 1 ∧ n + 1 ≤ 0x8000000000000000 by omega)

/-- A whole number is read off its text as it is. -/
theorem number?_int {n : Int} (lo : -0x8000000000000000 ≤ n) (hi : n < 0x10000000000000000) :
    number? (toString n).toList = some (.int n lo hi) := by
  cases n with
  | ofNat n =>
    have htext : (toString (Int.ofNat n)).toList = marked false (Nat.toDigits 10 n) := by
      simp [Int.repr, marked]
    rw [htext, number?_whole false (isWhole_toDigits n)]
    exact wholeNumber_plain (natOf_toDigits n) lo hi
  | negSucc n =>
    have htext : (toString (Int.negSucc n)).toList = marked true (Nat.toDigits 10 (n + 1)) := by
      simp [Int.repr, marked]
    rw [htext, number?_whole true (isWhole_toDigits (n + 1))]
    exact wholeNumber_marked (natOf_toDigits (n + 1)) lo hi

/-! ### Words -/

/-- A text that stands for one value: it opens a word and all of it belongs to the word. -/
structure IsWord (cs : List Char) (v : Json) : Prop where
  opens : ∀ c, cs.head? = some c → c.isAlphanum = true ∨ c = '-'
  bare : ∀ c ∈ cs, isBareChar c = true
  value : bareValue? cs = some v

theorem isBareChar_of_isDigit {c : Char} (h : c.isDigit = true) : isBareChar c = true := by
  simp [isBareChar, Char.isAlphanum, h]

theorem AreDigits.bare (h : AreDigits cs) : ∀ c ∈ cs, isBareChar c = true :=
  fun c hc => isBareChar_of_isDigit (h c hc)

theorem areDigits_takeDigits {digits : List Char} (h : takeDigits cs = (digits, rest)) :
    cs = digits ++ rest ∧ AreDigits digits := by
  obtain ⟨rfl, rfl⟩ := Prod.mk.inj h
  exact ⟨List.takeWhile_append_dropWhile.symm, fun c hc => List.mem_takeWhile_imp hc⟩

theorem eq_of_takeSign {lowered : Bool} (h : takeSign cs = (lowered, rest)) :
    cs = rest ∨ cs = '-' :: rest ∨ cs = '+' :: rest := by
  unfold takeSign at h
  split at h
  · cases h
    exact .inr (.inl rfl)
  · cases h
    exact .inr (.inr rfl)
  · cases h
    exact .inl rfl

theorem eq_of_takeMinus {negative : Bool} (h : takeMinus cs = (negative, rest)) :
    cs = rest ∨ cs = '-' :: rest := by
  unfold takeMinus at h
  split at h
  · cases h
    exact .inr rfl
  · cases h
    exact .inl rfl

theorem bare_of_exponentPart {negative : Bool} {e : Char} {n : Number}
    (h : number?.exponentPart negative whole fraction e rest = some n) :
    ∀ c ∈ e :: rest, isBareChar c = true := by
  unfold number?.exponentPart at h
  split at h
  next he =>
    have he : isBareChar e = true := by
      obtain rfl | rfl := by simpa using he
      · decide
      · decide
    split at h
    next lowered cs hsign =>
    split at h
    next digits tail htake =>
    split at h
    next => cases h
    next hend =>
      obtain ⟨rfl, hdigits⟩ := areDigits_takeDigits htake
      obtain ⟨-, rfl⟩ : digits ≠ [] ∧ tail = [] := by simpa using hend
      have hbare : ∀ c ∈ digits ++ [], isBareChar c = true := (List.append_nil digits).symm ▸ hdigits.bare
      refine List.forall_mem_cons.mpr ⟨he, ?_⟩
      obtain rfl | rfl | rfl := eq_of_takeSign hsign
      · exact hbare
      · exact List.forall_mem_cons.mpr ⟨by decide, hbare⟩
      · exact List.forall_mem_cons.mpr ⟨by decide, hbare⟩
  next => cases h

/-- A number begins with a digit or a minus sign, and all of it belongs to one word. -/
theorem bare_of_number? {n : Number} (h : number? cs = some n) :
    (∀ c, cs.head? = some c → c.isDigit = true ∨ c = '-') ∧ ∀ c ∈ cs, isBareChar c = true := by
  unfold number? at h
  split at h
  next negative cs' hminus =>
  split at h
  next whole rest htake =>
  split at h
  next => cases h
  next hend =>
    obtain ⟨rfl, hdigits⟩ := areDigits_takeDigits htake
    have hrest : ∀ c ∈ rest, isBareChar c = true := by
      split at h
      next => simp
      next tail =>
        split at h
        next fraction tail' htake' =>
        split at h
        next => cases h
        next =>
          obtain ⟨rfl, hfraction⟩ := areDigits_takeDigits htake'
          refine List.forall_mem_cons.mpr ⟨by decide, List.forall_mem_append.mpr ⟨hfraction.bare, ?_⟩⟩
          split at h
          next => simp
          next => exact bare_of_exponentPart h
      next => exact bare_of_exponentPart h
    have hbare := List.forall_mem_append.mpr ⟨hdigits.bare, hrest⟩
    obtain ⟨w, ws, rfl⟩ : ∃ w ws, whole = w :: ws := List.exists_cons_of_ne_nil <| by
      rintro rfl
      exact hend rfl
    obtain rfl | rfl := eq_of_takeMinus hminus
    · exact ⟨fun c hc => .inl (hdigits c (by cases hc; exact List.mem_cons_self)), hbare⟩
    · exact ⟨fun c hc => .inr (by cases hc; rfl), List.forall_mem_cons.mpr ⟨by decide, hbare⟩⟩

/-- A text read as a number is a word for it. -/
theorem isWord_of_number? {n : Number} (h : number? cs = some n) : IsWord cs (.num n) := by
  obtain ⟨hopens, hbare⟩ := bare_of_number? h
  refine ⟨fun c hc => (hopens c hc).imp_left fun hdigit => by simp [Char.isAlphanum, hdigit], hbare, ?_⟩
  have hletter : ∀ c rest, c.isDigit = false → c ≠ '-' → cs ≠ c :: rest := by
    rintro c rest hdigit hminus rfl
    obtain hd | hm := hopens c rfl
    · rw [hdigit] at hd
      cases hd
    · exact hminus hm
  rw [bareValue?, if_neg (hletter _ _ (by decide) (by decide)), if_neg (hletter _ _ (by decide) (by decide)),
    if_neg (hletter _ _ (by decide) (by decide)), h]
  rfl

theorem isWord_of_head {c : Char} {rest : List Char} {v : Json} (h : c.isAlphanum = true)
    (hbare : (c :: rest).all isBareChar = true) (hvalue : bareValue? (c :: rest) = some v) :
    IsWord (c :: rest) v :=
  ⟨fun _ hc => .inl (Option.some.inj hc ▸ h), List.all_eq_true.mp hbare, hvalue⟩

theorem isWord_null : IsWord "null".toList .null :=
  isWord_of_head (c := 'n') (by decide) (by decide) rfl

theorem isWord_bool (b : Bool) : IsWord (if b then "true" else "false").toList (.bool b) := by
  cases b with
  | false => exact isWord_of_head (c := 'f') (by decide) (by decide) rfl
  | true => exact isWord_of_head (c := 't') (by decide) (by decide) rfl

end SiteScrape.Json
