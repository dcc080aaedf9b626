import Mathlib.Algebra.Order.Field.Power
import Mathlib.Data.Rat.Cast.Order
import Mathlib.Tactic.FieldSimp
import Mathlib.Tactic.NormNum
import SiteScrape.Proofs.Doubles

/-!
# Digits times a power of ten

The digits of a number and the power of ten of its place are doubles, and so is
their product. Each is rounded by one part in `2 ^ 53` at most (`isUpTo_ofNat`,
`isUpTo_powerOfTen`), so a product that is less than the range of doubles by a little
is finite (`isSome_scaled`). What is read off digits is infinite at worst and never
NaN (`isNumber_ofScientific`).
-/

namespace SiteScrape.Double

/-! ### Sizes -/

/-- The number is finite, not negative, and `x` or less, but for the rounding of its
last place. -/
def IsUpTo (f : Float) (x : ℚ) : Prop :=
  ∃ m q, shape f = .finite false m q ∧ (m : ℚ) * 2 ^ q ≤ x * (1 + 1 / 2 ^ 53)

/-- What is rounded exceeds the number by half of its last place at most. -/
theorem IsNearest.mul_zpow_le {r m k : Nat} (h : IsNearest r m k) (e : Int) :
    (r : ℚ) * 2 ^ (e + k) ≤ m * 2 ^ e + 2 ^ (e + k) / 2 := by
  have hle : (2 * (r * 2 ^ k) : ℚ) ≤ 2 * m + 2 ^ k := by exact_mod_cast h.le
  have hp : (0 : ℚ) < 2 ^ e := by positivity
  have hpow : (2 : ℚ) ^ (e + k) = 2 ^ e * 2 ^ k := by
    rw [zpow_add₀ (by norm_num), zpow_natCast]
  rw [hpow]
  nlinarith

theorem zpow_log2_le {m : Nat} (hm : 0 < m) (e : Int) : (2 : ℚ) ^ (m.log2 + e) ≤ m * 2 ^ e := by
  have hle : ((2 ^ m.log2 : Nat) : ℚ) ≤ m := by exact_mod_cast Nat.log2_self_le hm.ne'
  rw [zpow_add₀ (by norm_num), zpow_natCast]
  push_cast at hle
  exact mul_le_mul_of_nonneg_right hle (by positivity)

/-- Half a step above the greatest finite double; what is less does not become infinite. -/
def overflow : ℚ := (2 ^ 54 - 1) * 2 ^ (970 : Int)

theorem overflow_lt : overflow < 2 ^ (1024 : Int) := by
  have hpow : (2 : ℚ) ^ (1024 : Int) = 2 ^ 54 * 2 ^ (970 : Int) := by
    rw [show (1024 : Int) = (54 : Nat) + 970 from rfl, zpow_add₀ (by norm_num), zpow_natCast]
  rw [overflow, hpow]
  exact mul_lt_mul_of_pos_right (by norm_num) (by positivity)

theorem exists_roundedShape_of_lt {r m : Nat} {e : Int} (hm : 0 < m) (he : e ≤ lastPlace m e)
    (h : IsNearest r m (dropped m e)) (hlt : (m : ℚ) * 2 ^ e < overflow) :
    ∃ m' q', roundedShape false r (lastPlace m e) = .finite false m' q' ∧
      (m' : ℚ) * 2 ^ q' = r * 2 ^ lastPlace m e := by
  have hplace : e + (dropped m e : Int) = lastPlace m e := by unfold dropped; omega
  have hlog := (zpow_lt_zpow_iff_right₀ (by norm_num)).mp
    (((zpow_log2_le hm e).trans_lt hlt).trans overflow_lt)
  have hlast : lastPlace m e ≤ 971 := by unfold lastPlace; omega
  unfold roundedShape
  by_cases h0 : r = 0
  · exact ⟨0, -1074, if_pos h0, by rw [h0]; simp⟩
  · rw [if_neg h0]
    by_cases hcarry : r = 0x20000000000000
    · -- the carry of the last place would be half a step above the greatest double
      have hbelow : lastPlace m e ≠ 971 := by
        intro htop
        have hle := h.mul_zpow_le e
        have hpow : (2 : ℚ) ^ (971 : Int) = 2 * 2 ^ (970 : Int) := by
          rw [show (971 : Int) = 1 + 970 from rfl, zpow_add₀ (by norm_num), zpow_one]
        have hstep : (0 : ℚ) < 2 ^ (970 : Int) := by positivity
        rw [hplace, htop, hcarry, hpow] at hle
        unfold overflow at hlt
        generalize (2 : ℚ) ^ (970 : Int) = step at hle hlt hstep
        push_cast at hle
        linarith
      refine ⟨0x10000000000000, lastPlace m e + 1, by rw [if_pos hcarry, if_neg (by omega)], ?_⟩
      rw [hcarry, zpow_add₀ (by norm_num)]
      push_cast
      ring
    · exact ⟨r, lastPlace m e, by rw [if_neg hcarry, if_neg (by omega)], rfl⟩

/-- A whole number beyond the places of a double is rounded up by one part in `2 ^ 53` at most. -/
theorem le_of_isNearest_excess {r n : Nat} (h : 2 ^ 53 ≤ n) (hr : IsNearest r n (excess n)) :
    (r : ℚ) * 2 ^ (excess n : Int) ≤ n * (1 + 1 / 2 ^ 53) := by
  have hlog : 53 ≤ n.log2 := (Nat.le_log2 (by omega)).mpr h
  have hpow : 2 ^ 52 * 2 ^ excess n ≤ n := by
    rw [← pow_add, show 52 + excess n = n.log2 by unfold excess; omega]
    exact Nat.log2_self_le (by omega)
  have hpow : (2 ^ 52 * 2 ^ excess n : ℚ) ≤ n := by exact_mod_cast hpow
  have hle := hr.mul_zpow_le 0
  rw [zero_add, zpow_natCast, zpow_zero, mul_one] at hle
  rw [zpow_natCast]
  linarith

theorem isUpTo_of_whole {f : Float} {r n : Nat} (h : 2 ^ 53 ≤ n) (hlt : (n : ℚ) < overflow)
    (hr : IsNearest r n (excess n)) (hf : shape f = roundedShape false r (excess n)) :
    IsUpTo f n := by
  have hplace : lastPlace n 0 = excess n := by
    have : 53 ≤ n.log2 := (Nat.le_log2 (by omega)).mpr h
    unfold lastPlace excess
    omega
  have hdropped : dropped n 0 = excess n := by
    unfold dropped
    omega
  obtain ⟨m, q, hparts, hvalue⟩ := exists_roundedShape_of_lt (r := r) (m := n) (e := 0) (by omega)
    (by omega) (by rwa [hdropped]) (by simpa using hlt)
  rw [hplace] at hparts hvalue
  exact ⟨m, q, hf.trans hparts, hvalue.trans_le (le_of_isNearest_excess h hr)⟩

theorem isUpTo_ofNat {n : Nat} (hlt : (n : ℚ) < overflow) : IsUpTo (Float.ofNat n) n := by
  by_cases hshort : n < 2 ^ 53
  · by_cases h0 : n = 0
    · subst h0
      exact ⟨0, -1074, by decide, by simp⟩
    · refine ⟨_, _, shape_ofNat_of_lt (Nat.pos_of_ne_zero h0) hshort, ?_⟩
      rw [Nat.shiftLeft_eq]
      push_cast
      rw [mul_assoc, zpow_neg, zpow_natCast, mul_inv_cancel₀ (by positivity), mul_one]
      have : (0 : ℚ) ≤ n := by positivity
      linarith
  · obtain ⟨r, hr, hshape⟩ := exists_shape_ofNat (Nat.le_of_not_lt hshort)
    exact isUpTo_of_whole (Nat.le_of_not_lt hshort) hlt hr hshape

theorem overflow_eq : overflow = (((2 ^ 54 - 1) * 2 ^ 970 : Nat) : ℚ) := by
  rw [overflow, Nat.cast_mul, Nat.cast_pow, Nat.cast_ofNat, zpow_ofNat]
  congr 1
  norm_num

theorem mul_zpow_le_of_nat {m n : Nat} {q : Int} (h : m * 2 ^ q.toNat ≤ n * 2 ^ (-q).toNat) :
    (m : ℚ) * 2 ^ q ≤ n := by
  have h : (m * 2 ^ q.toNat : ℚ) ≤ n * 2 ^ (-q).toNat := by exact_mod_cast h
  have hpow : (2 : ℚ) ^ q * 2 ^ (-q).toNat = 2 ^ q.toNat := by
    rw [← zpow_natCast, ← zpow_natCast, ← zpow_add₀ (by norm_num)]
    congr 1
    omega
  have hp : (0 : ℚ) < 2 ^ (-q).toNat := by positivity
  refine le_of_mul_le_mul_right ?_ hp
  rwa [mul_assoc, hpow]

open Decimal (powerOfTen)

/-- The whole number and the power of two of a finite number. -/
def Shape.parts : Shape → Nat × Int
  | .finite _ m q => (m, q)
  | _ => (0, 0)

/-- The powers of ten that are exact. -/
theorem shape_powerOfTen : ∀ k < 23,
    let p := (shape (powerOfTen k)).parts
    shape (powerOfTen k) = .finite false p.1 p.2 ∧
      p.1 * 2 ^ p.2.toNat ≤ 10 ^ k * 2 ^ (-p.2).toNat := by
  decide

theorem isUpTo_powerOfTen {k : Nat} (hk : k ≤ 308) : IsUpTo (powerOfTen k) (10 ^ k : Nat) := by
  by_cases htable : k < 23
  · obtain ⟨hshape, hle⟩ := shape_powerOfTen k htable
    refine ⟨_, _, hshape, (mul_zpow_le_of_nat hle).trans ?_⟩
    have : (0 : ℚ) ≤ (10 ^ k : Nat) := by positivity
    linarith
  · have hlarge : 2 ^ 53 ≤ 10 ^ k :=
      le_trans (by decide : 2 ^ 53 ≤ 10 ^ 23) (Nat.pow_le_pow_right (by decide) (by omega))
    have hlt : 10 ^ k < (2 ^ 54 - 1) * 2 ^ 970 :=
      lt_of_le_of_lt (Nat.pow_le_pow_right (by decide) hk) (by decide +kernel)
    have hround : powerOfTen k = packed (Float.Model.UnpackedFloat.roundWithAccuracy
        Float.Model.Format.binary64 .positive ((10 ^ k) <<< 53) (-53) .exact) := by
      have hscientific := ofScientific_whole (n := 1) (e := k) (by decide) hk
      rw [Nat.one_mul] at hscientific
      rw [← hscientific, powerOfTen, Float.ofScientific, dif_neg (by omega)]
      rfl
    obtain ⟨r, hr, hshape⟩ := exists_shape_whole hlarge
    refine isUpTo_of_whole hlarge ?_ hr (by rw [hround, hshape])
    rw [overflow_eq]
    exact_mod_cast hlt

theorem isFinite_of_shape {f : Float} {negative : Bool} {m : Nat} {q : Int}
    (h : shape f = .finite negative m q) : isFinite f = true := by
  rw [isFinite, h]

open Float.Model in
/-- A product with zero is zero. -/
theorem exists_mul_eq_zero {a b : Float} {m n : Nat} {q p : Int} (ha : shape a = .finite false m q)
    (hb : shape b = .finite false n p) (h : m = 0 ∨ n = 0) :
    ∃ s, a * b = packed (.zero s) := by
  have hprod : a * b = packed (UnpackedFloat.mul Format.binary64 a.toModel.unpack b.toModel.unpack) :=
    rfl
  rw [shape_eq] at ha hb
  rw [hprod]
  cases hu : a.toModel.unpack with
  | infinity s => rw [hu] at ha; cases ha
  | notANumber => rw [hu] at ha; cases ha
  | zero s =>
    cases hv : b.toModel.unpack with
    | infinity s => rw [hv] at hb; cases hb
    | notANumber => rw [hv] at hb; cases hb
    | zero t => exact ⟨s * t, rfl⟩
    | finite t n' p' hn' => exact ⟨s * t, rfl⟩
  | finite s m' q' hm' =>
    cases hv : b.toModel.unpack with
    | infinity s => rw [hv] at hb; cases hb
    | notANumber => rw [hv] at hb; cases hb
    | zero t => exact ⟨s * t, rfl⟩
    | finite t n' p' hn' =>
      rw [hu] at ha
      rw [hv] at hb
      obtain ⟨-, rfl, -⟩ := Shape.finite.inj ha
      obtain ⟨-, rfl, -⟩ := Shape.finite.inj hb
      omega

/-- A product that is not too large is finite, also with its factors rounded up. -/
theorem isFinite_mul {a b : Float} {x y : ℚ} (ha : IsUpTo a x) (hb : IsUpTo b y)
    (hxy : x * (1 + 1 / 2 ^ 53) * (y * (1 + 1 / 2 ^ 53)) < overflow) : isFinite (a * b) = true := by
  obtain ⟨m, q, ha, hm⟩ := ha
  obtain ⟨n, p, hb, hn⟩ := hb
  by_cases hzero : m = 0 ∨ n = 0
  · obtain ⟨s, hs⟩ := exists_mul_eq_zero ha hb hzero
    rw [hs]
    exact isFinite_of_shape (shape_packed_zero s)
  · obtain ⟨hm0, hn0⟩ := not_or.mp hzero
    have hm0 := Nat.pos_of_ne_zero hm0
    have hn0 := Nat.pos_of_ne_zero hn0
    have hlt : ((m * n : Nat) : ℚ) * 2 ^ (q + p) < overflow := by
      refine lt_of_le_of_lt ?_ hxy
      calc ((m * n : Nat) : ℚ) * 2 ^ (q + p) = m * 2 ^ q * (n * 2 ^ p) := by
            rw [zpow_add₀ (by norm_num)]
            push_cast
            ring
        _ ≤ _ := mul_le_mul hm hn (by positivity) (le_trans (by positivity) hm)
    obtain ⟨r, hr, hshape⟩ := exists_shape_mul ha hb hm0 hn0
    have hplace := le_lastPlace_of_isPart hm0 hn0 (isPart_of_shape ha).1 (isPart_of_shape hb).1
    obtain ⟨_, _, hparts, -⟩ := exists_roundedShape_of_lt (Nat.mul_pos hm0 hn0) hplace hr hlt
    exact isFinite_of_shape (hshape.trans hparts)

/-! ### What is not NaN -/

section IsNumber

open Float.Model Float.Model.UnpackedFloat

/-- The double is a number, perhaps an infinite one. -/
def IsNumber (f : Float) : Prop := shape f ≠ .nan

theorem isNumber_iff {f : Float} : IsNumber f ↔ f.toModel.unpack ≠ .notANumber := by
  rw [IsNumber, shape_eq]
  cases f.toModel.unpack with
  | notANumber => exact iff_of_false (fun h => h rfl) (fun h => h rfl)
  | infinity | zero | finite => exact iff_of_true Shape.noConfusion UnpackedFloat.noConfusion

theorem shape_packed_infinity (s : Sign) :
    shape (packed (.infinity s)) = .infinite (s == .negative) :=
  shape_packed (e := 2047) (m := 0) rfl (by decide)

/-- What is packed is a number if it was one. -/
theorem isNumber_packed {u : UnpackedFloat} (h : u ≠ .notANumber) : IsNumber (packed u) := by
  unfold IsNumber
  cases u with
  | notANumber => exact absurd rfl h
  | infinity s => rw [shape_packed_infinity]; exact Shape.noConfusion
  | zero s => rw [shape_packed_zero]; exact Shape.noConfusion
  | finite s m e hm =>
    have hpack := UnpackedFloat.pack.eq_def Format.binary64 (.finite s m e hm)
    dsimp only at hpack
    -- only the exponent that is packed tells a number from what is none
    generalize UnpackedFloat.finite s m e hm = u at hpack ⊢
    generalize hb : (e + (Format.binary64.exponentBias : Int) +
      (Format.binary64.mantissaBitsWithoutImplicit : Int)).toNat = b at hpack
    split_ifs at hpack with hlarge hplaces
    · rw [shape_packed (e := 2047) (m := 0) hpack (by decide)]
      exact Shape.noConfusion
    · have hsmall : b < 2047 := by
        have hbound : (2 : Nat) ^ Format.binary64.exponentBits = 2048 := rfl
        omega
      rw [shape_packed hpack (by omega), if_neg (by omega)]
      split <;> exact Shape.noConfusion
    · rw [shape_packed (e := 0) hpack (by decide)]
      exact Shape.noConfusion

theorem roundWithAccuracy_ne (s : Sign) (m : Nat) (e : Int) (a : Accuracy) :
    roundWithAccuracy Format.binary64 s m e a ≠ .notANumber := by
  unfold roundWithAccuracy
  dsimp only
  rw [ne_eq, dite_eq_iff]
  rintro (⟨_, h⟩ | ⟨_, h⟩) <;> cases h

/-- The parts of a number that is not zero and not infinite. -/
theorem unpack_of_finite {f : Float} {negative : Bool} {m : Nat} {q : Int}
    (h : shape f = .finite negative m q) :
    (∃ s, f.toModel.unpack = .zero s) ∨ ∃ s m q hm, f.toModel.unpack = .finite s m q hm := by
  rw [shape_eq] at h
  cases hu : f.toModel.unpack with
  | infinity s => rw [hu] at h; cases h
  | notANumber => rw [hu] at h; cases h
  | zero s => exact .inl ⟨s, rfl⟩
  | finite s m q hm => exact .inr ⟨s, m, q, hm, rfl⟩

theorem isNumber_mul {a b : Float} {s t : Bool} {m n : Nat} {q p : Int}
    (ha : shape a = .finite s m q) (hb : shape b = .finite t n p) : IsNumber (a * b) := by
  have hprod : a * b = packed (UnpackedFloat.mul Format.binary64 a.toModel.unpack b.toModel.unpack) :=
    rfl
  rw [hprod]
  refine isNumber_packed ?_
  obtain ⟨_, hu⟩ | ⟨_, _, _, _, hu⟩ := unpack_of_finite ha <;>
    obtain ⟨_, hv⟩ | ⟨_, _, _, _, hv⟩ := unpack_of_finite hb <;> rw [hu, hv]
  · exact UnpackedFloat.noConfusion
  · exact UnpackedFloat.noConfusion
  · exact UnpackedFloat.noConfusion
  · exact roundWithAccuracy_ne _ _ _ _

theorem isNumber_div {a b : Float} {s t : Bool} {m n : Nat} {q p : Int}
    (ha : shape a = .finite s m q) (hb : shape b = .finite t n p) (hn : 0 < n) : IsNumber (a / b) := by
  have hquot : a / b = packed (UnpackedFloat.div Format.binary64 a.toModel.unpack b.toModel.unpack) :=
    rfl
  rw [hquot, unpack_of_shape hn hb]
  refine isNumber_packed ?_
  obtain ⟨_, hu⟩ | ⟨_, _, _, _, hu⟩ := unpack_of_finite ha <;> rw [hu]
  · exact UnpackedFloat.noConfusion
  · exact roundWithAccuracy_ne _ _ _ _

theorem IsNumber.neg {f : Float} (h : IsNumber f) : IsNumber (-f) := by
  have hneg : -f = packed f.toModel.unpack.neg := rfl
  rw [hneg]
  refine isNumber_packed ?_
  have hunpack := isNumber_iff.mp h
  cases hu : f.toModel.unpack with
  | notANumber => exact absurd hu hunpack
  | infinity | zero | finite => exact UnpackedFloat.noConfusion

/-- The table of exact powers of ten. -/
theorem shape_exactPower : ∀ k : Fin 23,
    let p := (shape (Float.exactlyRepresentablePowersOfTen[k.1])).parts
    0 < p.1 ∧ shape (Float.exactlyRepresentablePowersOfTen[k.1]) = .finite false p.1 p.2 := by
  decide

theorem ofScientific_ne (n : Nat) (e : Int) :
    UnpackedFloat.ofScientific Format.binary64 n e ≠ .notANumber := by
  unfold UnpackedFloat.ofScientific
  by_cases h0 : n = 0
  · rw [dif_pos h0]
    exact UnpackedFloat.noConfusion
  · rw [dif_neg h0, ne_eq, ite_eq_iff, ite_eq_iff, ite_eq_iff]
    rintro (⟨_, h⟩ | ⟨_, ⟨_, h⟩ | ⟨_, ⟨_, h⟩ | ⟨_, h⟩⟩⟩)
    · cases h
    · cases h
    · exact roundWithAccuracy_ne _ _ _ _ h
    · exact roundWithAccuracy_ne _ _ _ _ h

/-- Digits with a place are read as a number. -/
theorem isNumber_ofScientific (n : Nat) (below : Bool) (k : Nat) :
    IsNumber (Float.ofScientific n below k) := by
  rw [Float.ofScientific]
  split
  next h =>
    obtain ⟨m, q, hdigits⟩ : ∃ m q, shape n.toUInt64.toFloat = .finite false m q := by
      by_cases h0 : n = 0
      · exact ⟨0, -1074, by subst h0; decide⟩
      · exact ⟨_, _, shape_toFloat (Nat.pos_of_ne_zero h0) h.1⟩
    obtain ⟨hpos, hpower⟩ := shape_exactPower ⟨k, by omega⟩
    split
    · exact isNumber_div hdigits hpower hpos
    · exact isNumber_mul hdigits hpower
  next h => exact isNumber_packed (ofScientific_ne n _)

theorem isNumber_ofInt (n : Int) : IsNumber (Float.ofInt n) := by
  cases n with
  | ofNat n => exact isNumber_ofScientific n false 0
  | negSucc n => exact (isNumber_ofScientific (n + 1) false 0).neg

/-- An infinite number is beyond all others. -/
theorem lt_or_lt_of_not_finite {f : Float} (h : IsNumber f) (hfinite : isFinite f = false) :
    f < 0.0 ∨ f > 100.0 := by
  have hzero : (0.0 : Float).toModel.unpack = .zero .positive := rfl
  rw [isNumber_iff] at h
  rw [isFinite, shape_eq] at hfinite
  cases hu : f.toModel.unpack with
  | notANumber => exact absurd hu h
  | zero s => rw [hu] at hfinite; cases hfinite
  | finite s m e hm => rw [hu] at hfinite; cases hfinite
  | infinity s =>
    cases s with
    | negative =>
      refine .inl ?_
      show decide (f.toModel < (0.0 : Float).toModel) = true
      refine decide_eq_true ?_
      show UnpackedFloat.lt f.toModel.unpack (0.0 : Float).toModel.unpack = true
      rw [hu, hzero]
      rfl
    | positive =>
      refine .inr ?_
      show decide ((100.0 : Float).toModel < f.toModel) = true
      refine decide_eq_true ?_
      show UnpackedFloat.lt (100.0 : Float).toModel.unpack f.toModel.unpack = true
      rw [hu]
      rfl

end IsNumber

end SiteScrape.Double

namespace SiteScrape.Decimal

open Double

/-- Very small numbers are read as zero at worst. -/
theorem isSome_scaled_of_neg (fuel : Nat) (value : Float) {exponent : Int} (h : exponent < 0) :
    (scaled fuel value exponent).isSome = true := by
  induction fuel generalizing value exponent with
  | zero =>
    unfold scaled
    split
    · rw [if_neg (by omega)]
      rfl
    · split
      · rfl
      · rw [if_neg (by omega)]
        rfl
  | succ fuel ih =>
    unfold scaled
    split
    · rw [if_neg (by omega)]
      rfl
    · split
      · rfl
      · rw [if_neg (by omega)]
        exact ih _ (by omega)

/-- The greatest product of digits and a power of ten that is finite however its
factors are rounded. -/
def greatest : Nat := 0x3ffffffffffff9 * 2 ^ 970

theorem greatest_lt : (greatest : ℚ) * (1 + 1 / 2 ^ 53) ^ 2 < overflow := by
  have hcast : (greatest : ℚ) = (2 ^ 54 - 7) * 2 ^ (970 : Int) := by
    rw [greatest, Nat.cast_mul, Nat.cast_pow, Nat.cast_ofNat, zpow_ofNat]
    congr 1
    norm_num
  have hp : (0 : ℚ) < 2 ^ (970 : Int) := by positivity
  rw [hcast, overflow, mul_right_comm]
  exact mul_lt_mul_of_pos_right (by norm_num) hp

theorem isSome_scaled (fuel : Nat) {digits k : Nat} (h : digits * 10 ^ k ≤ greatest) :
    (scaled fuel (Float.ofNat digits) k).isSome = true := by
  unfold scaled
  by_cases hk : k ≤ 308
  · have hdigits : (digits : ℚ) < overflow := by
      have hle : digits ≤ greatest :=
        le_trans (Nat.le_mul_of_pos_right _ (by positivity)) h
      have hle : (digits : ℚ) ≤ greatest := by exact_mod_cast hle
      have hg : (0 : ℚ) ≤ greatest := Nat.cast_nonneg _
      refine lt_of_le_of_lt (hle.trans ?_) greatest_lt
      exact le_mul_of_one_le_right hg (by norm_num)
    have hproduct : (digits * (10 ^ k : Nat) : ℚ) ≤ greatest := by exact_mod_cast h
    -- rounding takes each of the two factors up by its `2 ^ 53`th part at most
    have hfinite := isFinite_mul (isUpTo_ofNat hdigits) (isUpTo_powerOfTen hk) <| by
      refine lt_of_le_of_lt ?_ greatest_lt
      calc (digits : ℚ) * (1 + 1 / 2 ^ 53) * ((10 ^ k : Nat) * (1 + 1 / 2 ^ 53))
          = digits * ((10 ^ k : Nat) : ℚ) * (1 + 1 / 2 ^ 53) ^ 2 := by ring
        _ ≤ (greatest : ℚ) * (1 + 1 / 2 ^ 53) ^ 2 :=
          mul_le_mul_of_nonneg_right hproduct (by norm_num)
    rw [if_pos (by omega), if_pos (Int.natCast_nonneg k), Int.toNat_natCast, if_pos hfinite]
    rfl
  · -- nothing but zero is small enough for a power that is not in the table
    have hzero : digits = 0 := by
      by_contra h0
      obtain ⟨j, rfl⟩ : ∃ j, k = 155 + 154 + j := ⟨k - 309, by omega⟩
      have hlarge : greatest < 10 ^ 155 * 10 ^ 154 := by decide +kernel
      have hle : 10 ^ 155 * 10 ^ 154 ≤ digits * 10 ^ (155 + 154 + j) := by
        rw [pow_add, pow_add]
        refine le_trans (Nat.le_mul_of_pos_right _ ?_)
          (Nat.le_mul_of_pos_left _ (Nat.pos_of_ne_zero h0))
        positivity
      exact absurd (hlarge.trans_le hle) (Nat.not_lt.mpr h)
    have heq : (Float.ofNat 0 == 0.0) = true := by decide
    rw [if_neg (by omega), hzero, if_pos heq]
    rfl

end SiteScrape.Decimal
