import Mathlib.Tactic.Linarith
import Mathlib.Tactic.Positivity
import Mathlib.Tactic.Ring
import SiteScrape.Decimal.Reading

/-!
# Doubles in parts

Arithmetic works on doubles that are taken apart into a sign, a whole number and a
power of two; `shape` reads the same parts off the bits (`shape_eq`), and what is
packed is read back (`shape_packed_finite`). A number is rounded to the nearest
whole number of its last place (`exists_shape_rounded`): of the places that are
shifted out two bits remain, which say on which side of a half they lie (`Keeps`).
So it is with products (`exists_shape_mul`), and with whole numbers of more than
fifty-three binary places (`exists_shape_ofNat`); shorter ones are kept
(`shape_ofNat_of_lt`).
-/

open Float.Model Float.Model.UnpackedFloat

namespace SiteScrape.Double

/-! ### Parts and bits -/

theorem exponentBits_lt (bits : Nat) : exponentBits bits < 2048 := Nat.mod_lt _ (by decide)

/-- The parts of an unpacked double. -/
def shapeOf : UnpackedFloat → Shape
  | .infinity s => .infinite (s == .negative)
  | .notANumber => .nan
  | .zero s => .finite (s == .negative) 0 (-1074)
  | .finite s m e _ => .finite (s == .negative) m e

section

-- the fields of a pattern of bits, as `shape` computes them
variable (b : BitVec 64)

theorem toNat_unpackExponent :
    (@unpackExponent Format.binary64 b).toNat = exponentBits b.toNat := by
  show ((b.extractLsb 62 52).cast _).toNat = _
  rw [BitVec.toNat_cast, BitVec.extractLsb_toNat]
  rfl

theorem toNat_unpackMantissa :
    (@unpackMantissa Format.binary64 b).toNat = fractionBits b.toNat := by
  show ((b.extractLsb 51 0).cast _).toNat = _
  rw [BitVec.toNat_cast, BitVec.extractLsb_toNat]
  rfl

theorem sign_unpackSign :
    (Sign.ofBitVec (@unpackSign Format.binary64 b) == .negative) =
      decide (0x8000000000000000 ≤ b.toNat) := by
  have hsign : (@unpackSign Format.binary64 b).toNat = b.toNat / 0x8000000000000000 := by
    show ((b.extractLsb 63 63).cast _).toNat = _
    have := b.isLt
    rw [BitVec.toNat_cast, BitVec.extractLsb_toNat, Nat.shiftRight_eq_div_pow]
    omega
  unfold Sign.ofBitVec
  by_cases h : 0x8000000000000000 ≤ b.toNat
  · have hne : @unpackSign Format.binary64 b ≠ 0#1 := fun h0 => by
      rw [h0] at hsign
      simp at hsign
      omega
    simp only [if_neg hne, h, decide_true]
    rfl
  · have heq : @unpackSign Format.binary64 b = 0#1 := by
      apply BitVec.eq_of_toNat_eq
      rw [hsign]
      simp
      omega
    simp only [if_pos heq, h, decide_false]
    rfl

theorem unpackExponent_eq_iff (v : BitVec 11) :
    @unpackExponent Format.binary64 b = v ↔ exponentBits b.toNat = v.toNat := by
  rw [← toNat_unpackExponent]
  exact BitVec.toNat_inj.symm

theorem unpackMantissa_eq_zero_iff :
    @unpackMantissa Format.binary64 b = 0#52 ↔ fractionBits b.toNat = 0 := by
  rw [← toNat_unpackMantissa]
  exact BitVec.toNat_inj.symm

theorem toNat_implicit (v : BitVec 52) : (1#1 ++ v).toNat = v.toNat + 0x10000000000000 := by
  rw [BitVec.toNat_append, ← Nat.shiftLeft_add_eq_or_of_lt v.isLt]
  simp [Nat.shiftLeft_eq, Nat.add_comm]

end

theorem shape_eq (f : Float) : shape f = shapeOf f.toModel.unpack := by
  have hexp := toNat_unpackExponent f.toModel.toBits.toBitVec
  have hfrac := toNat_unpackMantissa f.toModel.toBits.toBitVec
  have hsign := sign_unpackSign f.toModel.toBits.toBitVec
  have hall := unpackExponent_eq_iff f.toModel.toBits.toBitVec (-1#11)
  have hzero := unpackExponent_eq_iff f.toModel.toBits.toBitVec 0#11
  have hnone := unpackMantissa_eq_zero_iff f.toModel.toBits.toBitVec
  have hbits : f.toModel.toBits.toBitVec.toNat = f.toBits.toNat := rfl
  rw [hbits] at hexp hfrac hsign hall hzero hnone
  -- both sides put the same questions to the bits, in the same order
  show (if exponentBits f.toBits.toNat = 2047 then _ else _) =
    shapeOf (if @unpackExponent Format.binary64 f.toModel.toBits.toBitVec = -1#11 then _ else _)
  by_cases hlast : exponentBits f.toBits.toNat = 2047
  · rw [if_pos hlast, if_pos (hall.mpr hlast)]
    by_cases hempty : fractionBits f.toBits.toNat = 0
    · rw [if_pos hempty, if_pos (hnone.mpr hempty)]
      exact congrArg Shape.infinite hsign.symm
    · rw [if_neg hempty, if_neg (mt hnone.mp hempty)]
      rfl
  · rw [if_neg hlast, if_neg (mt hall.mp hlast)]
    by_cases hfirst : exponentBits f.toBits.toNat = 0
    · rw [if_pos hfirst, if_pos (hzero.mpr hfirst)]
      by_cases hempty : fractionBits f.toBits.toNat = 0
      · rw [dif_pos (hnone.mpr hempty), hempty]
        exact congrArg (Shape.finite · 0 (-1074)) hsign.symm
      · rw [dif_neg (mt hnone.mp hempty)]
        show Shape.finite _ _ _ = Shape.finite _ (unpackMantissa _).toNat (_ - 1075 + 1)
        rw [hsign, hfrac, hexp, hfirst]
        rfl
    · rw [if_neg hfirst, if_neg (mt hzero.mp hfirst)]
      show Shape.finite _ _ _ = Shape.finite _ (1#1 ++ unpackMantissa _).toNat (_ - 1075)
      rw [hsign, toNat_implicit, hfrac, hexp]

/-- The sign that a number has. -/
def signOf (negative : Bool) : Sign := if negative then .negative else .positive

theorem unpack_of_shape {f : Float} {negative : Bool} {m : Nat} {q : Int} (hpos : 0 < m)
    (h : shape f = .finite negative m q) :
    f.toModel.unpack = .finite (signOf negative) m q hpos := by
  rw [shape_eq] at h
  cases hu : f.toModel.unpack with
  | infinity s => rw [hu] at h; cases h
  | notANumber => rw [hu] at h; cases h
  | zero s =>
    rw [hu] at h
    cases h
    exact absurd hpos (Nat.lt_irrefl 0)
  | finite s m' e' hm' =>
    rw [hu] at h
    cases h
    cases s <;> rfl

/-! ### Packing -/

/-- The bits of a packed number. -/
theorem toNat_packComponents (s : Sign) (e : BitVec 11) (m : BitVec 52) :
    (packComponents Format.binary64 s e m).toNat =
      s.toBitVec.toNat * 0x8000000000000000 + e.toNat * 0x10000000000000 + m.toNat := by
  have he := e.isLt
  have hm := m.isLt
  show ((s.toBitVec ++ e) ++ m).toNat = _
  rw [BitVec.toNat_append, ← Nat.shiftLeft_add_eq_or_of_lt hm, BitVec.toNat_append,
    ← Nat.shiftLeft_add_eq_or_of_lt he, Nat.shiftLeft_eq, Nat.shiftLeft_eq]
  omega

/-- The parts of a number, by its sign, exponent and fraction. -/
theorem shape_of_components {f : Float} {s : Sign} {e m : Nat} (he : e < 2048)
    (hm : m < 0x10000000000000)
    (h : f.toBits.toNat = s.toBitVec.toNat * 0x8000000000000000 + e * 0x10000000000000 + m) :
    shape f =
      if e = 2047 then if m = 0 then .infinite (s == .negative) else .nan
      else if e = 0 then .finite (s == .negative) m (-1074)
      else .finite (s == .negative) (m + 0x10000000000000) ((e : Int) - 1075) := by
  have hs : s.toBitVec.toNat < 2 := s.toBitVec.isLt
  have hexp : exponentBits f.toBits.toNat = e := by
    rw [exponentBits, h, Nat.shiftRight_eq_div_pow]
    omega
  have hfrac : fractionBits f.toBits.toNat = m := by
    rw [fractionBits, h]
    omega
  have hsign : decide (0x8000000000000000 ≤ f.toBits.toNat) = (s == .negative) := by
    have hnegative : Sign.negative.toBitVec.toNat = 1 := rfl
    have hpositive : Sign.positive.toBitVec.toNat = 0 := rfl
    rw [h]
    cases s with
    | negative => exact decide_eq_true (by omega)
    | positive => exact decide_eq_false (by omega)
  unfold shape
  simp only [hexp, hfrac, hsign]

/-- The double that holds `u`. -/
def packed (u : UnpackedFloat) : Float := .ofModel (.pack u)

/-- The parts of a packed number. -/
theorem shape_packed {u : UnpackedFloat} {s : Sign} {e m : Nat}
    (h : UnpackedFloat.pack Format.binary64 u =
      packComponents Format.binary64 s (BitVec.ofNat 11 e) (BitVec.ofNat 52 m)) (he : e < 2048) :
    shape (packed u) =
      if e = 2047 then if m % 0x10000000000000 = 0 then .infinite (s == .negative) else .nan
      else if e = 0 then .finite (s == .negative) (m % 0x10000000000000) (-1074)
      else .finite (s == .negative) (m % 0x10000000000000 + 0x10000000000000) ((e : Int) - 1075) := by
  have hbits : (packed u).toBits.toNat =
      s.toBitVec.toNat * 0x8000000000000000 + e * 0x10000000000000 + m % 0x10000000000000 := by
    have hcomponents := toNat_packComponents s (BitVec.ofNat 11 e) (BitVec.ofNat 52 m)
    rw [← h, BitVec.toNat_ofNat, BitVec.toNat_ofNat, Nat.mod_eq_of_lt he] at hcomponents
    exact hcomponents
  exact shape_of_components he (Nat.mod_lt _ (by decide)) hbits

theorem shape_packed_zero (s : Sign) :
    shape (packed (.zero s)) = .finite (s == .negative) 0 (-1074) :=
  shape_packed (e := 0) (m := 0) rfl (by decide)

/-- `m · 2^q` with as many places as a double keeps. -/
structure IsPart (m : Nat) (q : Int) : Prop where
  lt : m < 0x20000000000000
  full : 0x10000000000000 ≤ m ∨ q = -1074
  ge : -1074 ≤ q

theorem IsPart.log2_iff {m : Nat} {q : Int} (h : IsPart m q) (hpos : 0 < m) :
    m.log2 + 1 = Format.binary64.mantissaBits ↔ 0x10000000000000 ≤ m := by
  have hlt := (Nat.log2_lt hpos.ne').mpr (show m < 2 ^ 53 from h.lt)
  have hle : 52 ≤ m.log2 ↔ 2 ^ 52 ≤ m := Nat.le_log2 hpos.ne'
  show m.log2 + 1 = 53 ↔ 2 ^ 52 ≤ m
  omega

theorem pack_finite {m : Nat} {q : Int} (s : Sign) (hpos : 0 < m) (h : IsPart m q) :
    UnpackedFloat.pack Format.binary64 (.finite s m q hpos) =
      if 971 < q then packComponents Format.binary64 s (BitVec.ofNat 11 2047) (BitVec.ofNat 52 0)
      else if 0x10000000000000 ≤ m then
        packComponents Format.binary64 s (BitVec.ofNat 11 (q + 1075).toNat) (BitVec.ofNat 52 m)
      else packComponents Format.binary64 s (BitVec.ofNat 11 0) (BitVec.ofNat 52 m) := by
  have hexp : (q + (Format.binary64.exponentBias : Int) + (52 : Nat)).toNat = (q + 1075).toNat := by
    have hbias : (Format.binary64.exponentBias : Int) = 1023 := rfl
    rw [hbias]
    omega
  have hlarge : 2 ^ 11 ≤ (q + 1075).toNat + 1 ↔ 971 < q := by omega
  rw [UnpackedFloat.pack.eq_def]
  simp only [hexp, hlarge, h.log2_iff hpos]
  rfl

theorem shape_packed_finite {m : Nat} {q : Int} (s : Sign) (hpos : 0 < m) (h : IsPart m q) :
    shape (packed (.finite s m q hpos)) =
      if 971 < q then .infinite (s == .negative) else .finite (s == .negative) m q := by
  have hpack := pack_finite s hpos h
  obtain ⟨hlt, hfull, hge⟩ := h
  by_cases hq : 971 < q
  · rw [if_pos hq] at hpack ⊢
    exact shape_packed hpack (by decide)
  · rw [if_neg hq] at hpack ⊢
    by_cases hm : 0x10000000000000 ≤ m
    · rw [if_pos hm] at hpack
      rw [shape_packed hpack (by omega), if_neg (by omega), if_neg (by omega)]
      congr 1
      · omega
      · omega
    · rw [if_neg hm] at hpack
      rw [shape_packed hpack (by decide), if_neg (by decide), if_pos rfl]
      congr 1
      · omega
      · omega

/-! ### Rounding -/

/-- What is cut off when `m` is shifted by `k` places is what the two bits say. -/
def Keeps (em : ExtendedMantissa) (m k : Nat) : Prop :=
  ∃ low, m = em.mantissa * 2 ^ k + low ∧
    match em.roundBit, em.stickyBit with
    | false, false => low = 0
    | false, true => 0 < low ∧ 2 * low < 2 ^ k
    | true, false => 2 * low = 2 ^ k
    | true, true => 2 ^ k < 2 * low ∧ low < 2 ^ k

theorem keeps_shiftRightOne {em : ExtendedMantissa} {m k : Nat} (h : Keeps em m k) :
    Keeps em.shiftRightOne m (k + 1) := by
  obtain ⟨low, hm, hlow⟩ := h
  obtain ⟨a, r, s⟩ := em
  have hsplit : a * 2 ^ k = a / 2 * 2 ^ (k + 1) + a % 2 * 2 ^ k := by
    have ha : a = a / 2 * 2 + a % 2 := by omega
    calc a * 2 ^ k = (a / 2 * 2 + a % 2) * 2 ^ k := by rw [← ha]
      _ = a / 2 * 2 ^ (k + 1) + a % 2 * 2 ^ k := by ring
  have hp : 0 < 2 ^ k := by positivity
  have hp' : 2 ^ (k + 1) = 2 * 2 ^ k := by ring
  refine ⟨a % 2 * 2 ^ k + low, ?_, ?_⟩
  · simp only [ExtendedMantissa.shiftRightOne] at *
    omega
  · rcases Nat.mod_two_eq_zero_or_one a with ha | ha <;> cases r <;> cases s <;>
      simp only [ExtendedMantissa.shiftRightOne, ha] at hlow ⊢ <;> simp <;> omega

theorem keeps_shift (m k : Nat) :
    Keeps (ExtendedMantissa.mk m false false >>> k) m k := by
  induction k with
  | zero => exact ⟨0, by simp [HShiftRight.hShiftRight, Nat.repeat], rfl⟩
  | succ k ih => exact keeps_shiftRightOne ih

/-- `r` is `m` over `2 ^ k`, to the nearest whole number. -/
structure IsNearest (r m k : Nat) : Prop where
  le : 2 * (r * 2 ^ k) ≤ 2 * m + 2 ^ k
  ge : 2 * m ≤ 2 * (r * 2 ^ k) + 2 ^ k
  exact : 2 ^ k ∣ m → r * 2 ^ k = m

theorem isNearest_roundedMantissa {em : ExtendedMantissa} {m k : Nat} (h : Keeps em m k) :
    IsNearest em.roundedMantissa m k := by
  obtain ⟨low, hm, hlow⟩ := h
  obtain ⟨a, r, s⟩ := em
  have hp : 0 < 2 ^ k := by positivity
  have hcut : 2 ^ k ∣ m → low = 0 ∨ 2 ^ k ≤ low := by
    intro hdvd
    rw [hm, Nat.dvd_add_right (Dvd.intro_left _ rfl)] at hdvd
    rcases Nat.eq_zero_or_pos low with h | h
    · exact .inl h
    · exact .inr (Nat.le_of_dvd h hdvd)
  cases r <;> cases s <;>
    simp only [ExtendedMantissa.roundedMantissa, ExtendedMantissa.accuracy,
      Accuracy.roundToNearestEven] at hlow hm ⊢
  · exact ⟨by omega, by omega, fun _ => by omega⟩
  · exact ⟨by omega, by omega, fun h => by have := hcut h; omega⟩
  · have hadd : (a + a % 2) * 2 ^ k = a * 2 ^ k + a % 2 * 2 ^ k := by ring
    rcases Nat.mod_two_eq_zero_or_one a with ha | ha
    · rw [ha] at hadd ⊢
      exact ⟨by omega, by omega, fun h => by have := hcut h; omega⟩
    · rw [ha] at hadd ⊢
      exact ⟨by omega, by omega, fun h => by have := hcut h; omega⟩
  · have hadd : (a + 1) * 2 ^ k = a * 2 ^ k + 2 ^ k := by ring
    exact ⟨by omega, by omega, fun h => by have := hcut h; omega⟩

/-- The exponent of the last place that a double keeps of `m · 2 ^ e`. -/
def lastPlace (m : Nat) (e : Int) : Int := max (m.log2 + e - 52) (-1074)

theorem targetExponent_eq (m : Nat) (e : Int) :
    Format.binary64.targetExponent (totalExponent m e) = lastPlace m e := by
  have hplaces : Format.binary64.mantissaBits = 53 := rfl
  simp only [Format.targetExponent, totalExponent, hplaces, Format.minExponent, lastPlace]
  norm_num
  omega

/-- How many places of `m · 2 ^ e` are rounded off. -/
def dropped (m : Nat) (e : Int) : Nat := (lastPlace m e - e).toNat

theorem shiftToTargetExponent_eq (m : Nat) (e : Int) :
    shiftToTargetExponent Format.binary64 m e .exact =
      (ExtendedMantissa.mk m false false >>> dropped m e, e + dropped m e) := by
  rw [shiftToTargetExponent, targetExponent_eq]
  rfl

/-- A rounded number with the carry of a full mantissa moved into the exponent. -/
def settled (s : Sign) (r : Nat) (q : Int) : UnpackedFloat :=
  if h : r = 0 then .zero s
  else if r = 0x20000000000000 then .finite s 0x10000000000000 (q + 1) (by decide)
  else .finite s r q (Nat.pos_of_ne_zero h)

theorem le_of_isNearest {r m : Nat} {e : Int} (h : IsNearest r m (dropped m e)) : r ≤ 2 ^ 53 := by
  have hlog : m.log2 ≤ 52 + dropped m e := by unfold dropped lastPlace; omega
  have hm : m < 2 ^ 53 * 2 ^ dropped m e := by
    rw [← pow_add]
    exact lt_of_lt_of_le Nat.lt_log2_self (Nat.pow_le_pow_right (by decide) (by omega))
  have hp : 0 < 2 ^ dropped m e := by positivity
  by_contra hr
  have hmul : (2 ^ 53 + 1) * 2 ^ dropped m e ≤ r * 2 ^ dropped m e :=
    Nat.mul_le_mul_right _ (by omega)
  have := h.le
  rw [add_mul] at hmul
  omega

theorem dropped_settled {r : Nat} {q : Int} (hr : r ≤ 2 ^ 53) (hq : -1074 ≤ q) :
    dropped r q = if r = 0x20000000000000 then 1 else 0 := by
  unfold dropped lastPlace
  split
  · next h =>
    have : r.log2 = 53 := h ▸ Nat.log2_two_pow (n := 53)
    omega
  · next h =>
    have : r.log2 ≤ 52 := by
      by_cases h0 : r = 0
      · simp [h0]
      · have := (Nat.log2_lt h0).mpr (show r < 2 ^ 53 by omega)
        omega
    omega

theorem roundWithAccuracy_exact (s : Sign) (m : Nat) (e : Int) :
    ∃ r, IsNearest r m (dropped m e) ∧
      roundWithAccuracy Format.binary64 s m e .exact = settled s r (e + dropped m e) := by
  have hr := isNearest_roundedMantissa (keeps_shift m (dropped m e))
  refine ⟨_, hr, ?_⟩
  generalize hgen : (ExtendedMantissa.mk m false false >>> dropped m e).roundedMantissa = r at hr
  have hle := le_of_isNearest hr
  have hq : -1074 ≤ e + (dropped m e : Int) := by unfold dropped lastPlace; omega
  -- a mantissa that has become full is shifted once more, and loses nothing
  rw [roundWithAccuracy, shiftToTargetExponent_eq]
  show (match shiftToTargetExponent Format.binary64 (ExtendedMantissa.roundedMantissa _) _ .exact with
    | (em, q) => if h : em.mantissa = 0 then UnpackedFloat.zero s
      else .finite s em.mantissa q (Nat.pos_of_ne_zero h)) = _
  rw [hgen, shiftToTargetExponent_eq, dropped_settled hle hq]
  by_cases h53 : r = 0x20000000000000
  · subst h53
    rfl
  · by_cases h0 : r = 0
    · subst h0
      rfl
    · rw [if_neg h53, settled, dif_neg h0, if_neg h53]
      show (if h : r = 0 then _ else UnpackedFloat.finite s r _ _) = _
      rw [dif_neg h0, Nat.cast_zero, add_zero]

/-- The parts of the double that `r · 2^q` is rounded to. -/
def roundedShape (negative : Bool) (r : Nat) (q : Int) : Shape :=
  if r = 0 then .finite negative 0 (-1074)
  else if r = 0x20000000000000 then
    if 971 < q + 1 then .infinite negative else .finite negative 0x10000000000000 (q + 1)
  else if 971 < q then .infinite negative else .finite negative r q

theorem isPart_of_isNearest {r m : Nat} {e : Int} (hm : 0 < m) (he : e ≤ lastPlace m e)
    (h : IsNearest r m (dropped m e)) (hr : r ≠ 0x20000000000000) : IsPart r (lastPlace m e) := by
  have hle := le_of_isNearest h
  refine ⟨by omega, ?_, by unfold lastPlace; omega⟩
  by_cases hfull : lastPlace m e = -1074
  · exact .inr hfull
  · have hdropped : m.log2 = 52 + dropped m e := by unfold dropped lastPlace at *; omega
    have hlow : 2 ^ 52 * 2 ^ dropped m e ≤ m := by
      rw [← pow_add, ← hdropped]
      exact Nat.log2_self_le hm.ne'
    refine .inl (Nat.le_of_not_lt fun hlt => ?_)
    have hmul : (r + 1) * 2 ^ dropped m e ≤ 2 ^ 52 * 2 ^ dropped m e :=
      Nat.mul_le_mul_right _ hlt
    have hp : 0 < 2 ^ dropped m e := by positivity
    have := h.ge
    rw [add_mul] at hmul
    omega

/-- A product is rounded to the nearest whole number of its last place. -/
theorem exists_shape_rounded {m : Nat} {e : Int} (s : Sign) (hm : 0 < m) (he : e ≤ lastPlace m e) :
    ∃ r, IsNearest r m (dropped m e) ∧
      shape (packed (roundWithAccuracy Format.binary64 s m e .exact)) =
        roundedShape (s == .negative) r (lastPlace m e) := by
  obtain ⟨r, hr, hround⟩ := roundWithAccuracy_exact s m e
  have hplace : e + (dropped m e : Int) = lastPlace m e := by unfold dropped; omega
  refine ⟨r, hr, ?_⟩
  rw [hround, hplace]
  unfold settled roundedShape
  by_cases h0 : r = 0
  · rw [dif_pos h0, if_pos h0]
    exact shape_packed_zero s
  · rw [dif_neg h0, if_neg h0]
    by_cases hcarry : r = 0x20000000000000
    · have hpart : IsPart 0x10000000000000 (lastPlace m e + 1) :=
        ⟨by decide, .inl (by decide), by unfold lastPlace; omega⟩
      rw [if_pos hcarry, if_pos hcarry]
      exact shape_packed_finite s _ hpart
    · rw [if_neg hcarry, if_neg hcarry]
      exact shape_packed_finite s _ (isPart_of_isNearest hm he hr hcarry)

/-! ### Products -/

theorem isPart_of_shape {f : Float} {negative : Bool} {m : Nat} {q : Int}
    (h : shape f = .finite negative m q) : IsPart m q ∧ q ≤ 971 := by
  have hexp := exponentBits_lt f.toBits.toNat
  have hfrac : fractionBits f.toBits.toNat < 0x10000000000000 := Nat.mod_lt _ (by decide)
  unfold shape at h
  simp only at h
  split at h
  · split at h <;> cases h
  · split at h
    · cases h
      exact ⟨⟨by omega, .inr rfl, by omega⟩, by omega⟩
    · cases h
      exact ⟨⟨by omega, .inl (by omega), by omega⟩, by omega⟩

theorem le_lastPlace_of_isPart {m n : Nat} {q p : Int} (hm : 0 < m) (hn : 0 < n) (h : IsPart m q)
    (h' : IsPart n p) : q + p ≤ lastPlace (m * n) (q + p) := by
  have hpos : m * n ≠ 0 := (Nat.mul_pos hm hn).ne'
  have hfull : 2 ^ 52 ≤ m * n → 52 ≤ (m * n).log2 := (Nat.le_log2 hpos).mpr
  have hleft : m ≤ m * n := Nat.le_mul_of_pos_right _ hn
  have hright : n ≤ m * n := Nat.le_mul_of_pos_left _ hm
  have := h.full
  have := h'.full
  unfold lastPlace
  omega

theorem exists_shape_mul {a b : Float} {m n : Nat} {q p : Int} (ha : shape a = .finite false m q)
    (hb : shape b = .finite false n p) (hm : 0 < m) (hn : 0 < n) :
    ∃ r, IsNearest r (m * n) (dropped (m * n) (q + p)) ∧
      shape (a * b) = roundedShape false r (lastPlace (m * n) (q + p)) := by
  have hprod : a * b =
      packed (roundWithAccuracy Format.binary64 .positive (m * n) (q + p) .exact) := by
    show packed (UnpackedFloat.mul Format.binary64 a.toModel.unpack b.toModel.unpack) = _
    rw [unpack_of_shape hm ha, unpack_of_shape hn hb]
    rfl
  rw [hprod]
  exact exists_shape_rounded .positive (Nat.mul_pos hm hn)
    (le_lastPlace_of_isPart hm hn (isPart_of_shape ha).1 (isPart_of_shape hb).1)

/-! ### Whole numbers -/

theorem IsNearest.of_mul {r m k j : Nat} (h : IsNearest r (m * 2 ^ j) (k + j)) : IsNearest r m k := by
  have hp : 0 < 2 ^ j := by positivity
  obtain ⟨hle, hge, hexact⟩ := h
  rw [pow_add] at hle hge hexact
  refine ⟨Nat.le_of_mul_le_mul_right ?_ hp, Nat.le_of_mul_le_mul_right ?_ hp, fun hdvd => ?_⟩
  · calc 2 * (r * 2 ^ k) * 2 ^ j = 2 * (r * (2 ^ k * 2 ^ j)) := by ring
      _ ≤ 2 * (m * 2 ^ j) + 2 ^ k * 2 ^ j := hle
      _ = (2 * m + 2 ^ k) * 2 ^ j := by ring
  · calc 2 * m * 2 ^ j = 2 * (m * 2 ^ j) := by ring
      _ ≤ 2 * (r * (2 ^ k * 2 ^ j)) + 2 ^ k * 2 ^ j := hge
      _ = (2 * (r * 2 ^ k) + 2 ^ k) * 2 ^ j := by ring
  · refine Nat.eq_of_mul_eq_mul_right hp ?_
    calc r * 2 ^ k * 2 ^ j = r * (2 ^ k * 2 ^ j) := by ring
      _ = m * 2 ^ j := hexact (Nat.mul_dvd_mul_right hdvd _)

/-- How many binary places of a whole number a double does not keep. -/
def excess (n : Nat) : Nat := n.log2 - 52

theorem excess_eq_zero {n : Nat} (h : n < 2 ^ 53) : excess n = 0 := by
  by_cases hn : n = 0
  · subst hn; rfl
  · have := (Nat.log2_lt hn).mpr h
    unfold excess
    omega

theorem shape_one : shape (Float.ofBits 0x3FF0000000000000) = .finite false 0x10000000000000 (-52) := by
  decide +kernel

theorem toFloat_eq_packed {n : Nat} (h0 : 0 < n) (h : n < 2 ^ 53) :
    n.toUInt64.toFloat = packed (roundWithAccuracy Format.binary64 .positive
      (n <<< (52 - n.log2)) (-((52 - n.log2 : Nat) : Int)) .exact) := by
  have hn : n.toUInt64.toNat = n := UInt64.toNat_ofNat_of_lt' (by show n < 2 ^ 64; omega)
  have hlog := (Nat.log2_lt h0.ne').mpr h
  have hgt : compare (n : Int) 0 = .gt := by
    rw [compare_gt_iff_gt]
    omega
  have hplace : (-Format.binary64.targetExponent (totalExponent n 0)).toNat = 52 - n.log2 := by
    rw [targetExponent_eq]
    unfold lastPlace
    omega
  show packed (UnpackedFloat.normalize Format.binary64 (n.toUInt64.toNat : Int) 0 .positive) = _
  rw [hn, UnpackedFloat.normalize, hgt]
  show packed (UnpackedFloat.round Format.binary64 .positive n 0) = _
  rw [UnpackedFloat.round]
  simp only [decreaseExponent, Int.zero_sub, hplace]

/-- A whole number shifted to where its leading one is the leading one of a double. -/
theorem log2_shiftLeft {n : Nat} (h0 : 0 < n) (k : Nat) : (n <<< k).log2 = n.log2 + k := by
  have hle := Nat.log2_self_le h0.ne'
  have hlt := Nat.lt_log2_self (n := n)
  have hp : 0 < 2 ^ k := by positivity
  rw [Nat.shiftLeft_eq, Nat.log2_eq_iff (Nat.mul_pos h0 hp).ne', pow_add, Nat.add_right_comm, pow_add]
  exact ⟨Nat.mul_le_mul_right _ hle, Nat.mul_lt_mul_of_pos_right hlt hp⟩

theorem roundedShape_of_isPart {r : Nat} {q : Int} (h0 : 0 < r) (hr : r < 0x20000000000000)
    (hq : q ≤ 971) : roundedShape false r q = .finite false r q := by
  unfold roundedShape
  rw [if_neg h0.ne', if_neg hr.ne, if_neg (by omega)]

theorem shape_toFloat {n : Nat} (h0 : 0 < n) (h : n < 2 ^ 53) :
    shape n.toUInt64.toFloat =
      .finite false (n <<< (52 - n.log2)) (-((52 - n.log2 : Nat) : Int)) := by
  have hlog := (Nat.log2_lt h0.ne').mpr h
  have hshift := log2_shiftLeft h0 (52 - n.log2)
  have hpos : 0 < n <<< (52 - n.log2) := by
    rw [Nat.shiftLeft_eq]
    positivity
  have hlt : n <<< (52 - n.log2) < 2 ^ 53 := (Nat.log2_lt hpos.ne').mp (by omega)
  have hplace : lastPlace (n <<< (52 - n.log2)) (-((52 - n.log2 : Nat) : Int)) =
      -((52 - n.log2 : Nat) : Int) := by
    unfold lastPlace
    omega
  obtain ⟨r, hr, hshape⟩ := exists_shape_rounded .positive hpos hplace.ge
  have hexact := hr.exact
  rw [dropped, hplace, Int.sub_self, Int.toNat_zero, pow_zero, mul_one] at hexact
  rw [toFloat_eq_packed h0 h, hshape, hplace, hexact (one_dvd _)]
  exact roundedShape_of_isPart hpos hlt (by omega)

theorem shape_ofNat_of_lt {n : Nat} (h0 : 0 < n) (h : n < 2 ^ 53) :
    shape (Float.ofNat n) = .finite false (n <<< (52 - n.log2)) (-((52 - n.log2 : Nat) : Int)) := by
  have hlog := (Nat.log2_lt h0.ne').mpr h
  have hofNat : Float.ofNat n = n.toUInt64.toFloat * Float.ofBits 0x3FF0000000000000 := by
    show Float.ofScientific n false 0 = _
    rw [Float.ofScientific, dif_pos ⟨h, by decide⟩]
    rfl
  have hpos : 0 < n <<< (52 - n.log2) := by
    rw [Nat.shiftLeft_eq]
    positivity
  obtain ⟨r, hr, hshape⟩ := exists_shape_mul (shape_toFloat h0 h) shape_one hpos (by decide)
  have hlog' : (n <<< (52 - n.log2) * 0x10000000000000).log2 = 104 := by
    have hshift := log2_shiftLeft hpos 52
    rw [Nat.shiftLeft_eq (n <<< (52 - n.log2)) 52, log2_shiftLeft h0] at hshift
    have : 52 - n.log2 + n.log2 = 52 := by omega
    exact hshift.trans (by omega)
  have hplace : lastPlace (n <<< (52 - n.log2) * 0x10000000000000)
      (-((52 - n.log2 : Nat) : Int) + -52) = -((52 - n.log2 : Nat) : Int) := by
    unfold lastPlace
    omega
  have hdropped : dropped (n <<< (52 - n.log2) * 0x10000000000000)
      (-((52 - n.log2 : Nat) : Int) + -52) = 52 := by
    unfold dropped
    omega
  have hexact := hr.exact
  rw [hdropped] at hexact
  have hr : r = n <<< (52 - n.log2) :=
    Nat.eq_of_mul_eq_mul_right (by positivity) (hexact (Dvd.intro_left _ rfl))
  have hlt := (isPart_of_shape (shape_toFloat h0 h)).1.lt
  rw [hofNat, hshape, hplace, hr]
  exact roundedShape_of_isPart hpos hlt (by omega)

theorem ofScientific_whole {n e : Nat} (h0 : 0 < n) (he : e ≤ 308) :
    UnpackedFloat.ofScientific Format.binary64 n e =
      roundWithAccuracy Format.binary64 .positive ((n * 10 ^ e) <<< 53) (-53) .exact := by
  have hplaces : Format.binary64.mantissaBits = 53 := rfl
  have hpower : (2 ^ Format.binary64.exponentBits : Int) = 2048 := by decide
  have hshift : n <<< 53 * 10 ^ e = (n * 10 ^ e) <<< 53 := by
    rw [Nat.shiftLeft_eq, Nat.shiftLeft_eq, Nat.mul_right_comm]
  rw [UnpackedFloat.ofScientific, dif_neg h0.ne', if_neg (by rw [hpower]; omega),
    if_neg (by rw [hpower]; omega), if_pos (Int.natCast_nonneg e)]
  show roundWithAccuracy Format.binary64 .positive (n <<< Format.binary64.mantissaBits * 10 ^ (e : Int).toNat)
    (-(Format.binary64.mantissaBits : Int) + 0) .exact = _
  rw [hplaces, Int.toNat_natCast, hshift]
  rfl

theorem exists_shape_whole {n : Nat} (h : 2 ^ 53 ≤ n) :
    ∃ r, IsNearest r n (excess n) ∧
      shape (packed (roundWithAccuracy Format.binary64 .positive (n <<< 53) (-53) .exact)) =
        roundedShape false r (excess n) := by
  have h0 : 0 < n := by omega
  have hlog : 53 ≤ n.log2 := (Nat.le_log2 h0.ne').mpr h
  have hpos : 0 < n <<< 53 := by
    rw [Nat.shiftLeft_eq]
    positivity
  have hlog' : (n <<< 53).log2 = n.log2 + 53 := log2_shiftLeft h0 53
  have hplace : lastPlace (n <<< 53) (-53) = excess n := by
    unfold lastPlace excess
    omega
  have hdropped : dropped (n <<< 53) (-53) = excess n + 53 := by
    unfold dropped
    omega
  obtain ⟨r, hr, hshape⟩ := exists_shape_rounded .positive hpos (e := -53) (by omega)
  rw [hdropped, Nat.shiftLeft_eq] at hr
  exact ⟨r, hr.of_mul, by rw [hshape, hplace]; rfl⟩

theorem exists_shape_ofNat {n : Nat} (h : 2 ^ 53 ≤ n) :
    ∃ r, IsNearest r n (excess n) ∧ shape (Float.ofNat n) = roundedShape false r (excess n) := by
  have hofNat : Float.ofNat n =
      packed (roundWithAccuracy Format.binary64 .positive (n <<< 53) (-53) .exact) := by
    have hscientific := ofScientific_whole (n := n) (e := 0) (by omega) (by decide)
    rw [pow_zero, Nat.mul_one] at hscientific
    rw [← hscientific]
    show Float.ofScientific n false 0 = _
    rw [Float.ofScientific, dif_neg fun hfast => Nat.not_lt.mpr h hfast.1]
    rfl
  rw [hofNat]
  exact exists_shape_whole h

end SiteScrape.Double
