/-!
# Doubles in exact arithmetic

A finite double is `± m · 2^q` with whole `m` and `q`. Rounding to whole
numbers is done on `m` and `q`, so every statement about it is one about
whole numbers.
-/

namespace SiteScrape.Double

/-- What a double stands for. -/
inductive Shape where
  | finite (negative : Bool) (m : Nat) (q : Int)
  | infinite (negative : Bool)
  | nan
  deriving DecidableEq, Repr

/-- The eleven bits of the exponent. -/
def exponentBits (bits : Nat) : Nat := (bits >>> 52) % 0x800

/-- The fifty-two bits of the fraction. -/
def fractionBits (bits : Nat) : Nat := bits % 0x10000000000000

/-- The parts of `f`; a normal number has the leading one made explicit. -/
def shape (f : Float) : Shape :=
  let bits := f.toBits.toNat
  let negative := 0x8000000000000000 ≤ bits
  let e := exponentBits bits
  let m := fractionBits bits
  if e = 2047 then
    if m = 0 then .infinite negative else .nan
  else if e = 0 then .finite negative m (-1074)
  else .finite negative (m + 0x10000000000000) ((e : Int) - 1075)

/-- Neither infinite nor NaN. -/
def isFinite (f : Float) : Bool :=
  match shape f with
  | .finite .. => true
  | _ => false

/-- The whole part of `m · 2^q`. -/
def wholePart (m : Nat) (q : Int) : Nat :=
  match q with
  | .ofNat k => m <<< k
  | .negSucc k => m >>> (k + 1)

/-- The whole number nearest to `m · 2^q`; a half goes up. -/
def nearestWhole (m : Nat) (q : Int) : Nat :=
  match q with
  | .ofNat k => m <<< k
  | .negSucc k => (m + 1 <<< k) >>> (k + 1)

/-- `m · 2^q` is a whole number. -/
def isWholePart (m : Nat) (q : Int) : Bool :=
  match q with
  | .ofNat _ => true
  | .negSucc k => m % (1 <<< (k + 1)) == 0

/-- The size that an infinity counts as, beyond that of every finite double. -/
def huge : Nat := 1 <<< 1024

/-- Applies `n` with the sign of the number; an infinity counts as `± 2^1024`
and NaN as zero. -/
def signed (part : Nat → Int → Nat) (f : Float) : Int :=
  match shape f with
  | .finite negative m q => if negative then -(part m q : Int) else part m q
  | .infinite negative => if negative then -(huge : Int) else huge
  | .nan => 0

/-- `f` rounded toward zero. -/
def truncate (f : Float) : Int := signed wholePart f

/-- `f` rounded to the nearest whole number; a half goes away from zero. -/
def round (f : Float) : Int := signed nearestWhole f

/-- A finite number without a fractional part. -/
def isWhole (f : Float) : Bool :=
  match shape f with
  | .finite _ m q => isWholePart m q
  | _ => false

/-- The double nearest to a whole number. -/
def ofInt (n : Int) : Float := Float.ofInt n

/-- `f` less its whole part, for a finite `f`. -/
def fraction (f : Float) : Float :=
  if isWhole f then 0.0 else f - ofInt (truncate f)

/-- The value of `n` nearest to it among the signed 64-bit numbers. -/
def clampInt64 (n : Int) : Int64 :=
  Int64.ofInt (max (-0x8000000000000000) (min 0x7fffffffffffffff n))

/-- The value nearest to `n` among the unsigned 64-bit numbers. -/
def clampUInt64 (n : Int) : UInt64 :=
  UInt64.ofNat (min 0xffffffffffffffff n.toNat)

theorem toInt_clampInt64 {n : Int} (lo : -0x8000000000000000 ≤ n) (hi : n < 0x8000000000000000) :
    (clampInt64 n).toInt = n := by
  have h : max (-0x8000000000000000) (min 0x7fffffffffffffff n) = n := by omega
  rw [clampInt64, h]
  exact Int64.toInt_ofInt_of_le (by simpa using lo) (by simpa using hi)

theorem toNat_clampUInt64 {n : Nat} (h : n < 0x10000000000000000) : (clampUInt64 n).toNat = n := by
  have : min 0xffffffffffffffff (n : Int).toNat = n := by
    rw [Int.toNat_natCast]; omega
  rw [clampUInt64, this, UInt64.toNat_ofNat_of_lt' h]

end SiteScrape.Double
