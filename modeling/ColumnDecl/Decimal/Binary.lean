/-!
Binary64 floating-point values as exact numbers, and the value nearest to a decimal. A finite
value is `±m · 2^e` with `m < 2^53` and `e ≥ -1074`, and `m ≥ 2^52` unless `e = -1074` (the
subnormals and zero), so each value has one form. A decimal `d · 10^x` reads as the nearest
such value, a tie going to the even `m`; past the largest finite value it reads as an infinity
and below half the smallest subnormal as a zero of its sign.
-/

namespace ColumnDecl.Decimal

/-- A binary64 value: finite, infinite, or not a number. -/
inductive Binary64 where
  | finite (neg : Bool) (m : Nat) (e : Int)
  | infinite (neg : Bool)
  | nan
  deriving DecidableEq, Repr

/-- The number of decimal digits of `n`, one for zero. -/
def digitCount (n : Nat) : Nat := (Nat.toDigits 10 n).length

/-- `2` to an integer power, as a numerator and a denominator. -/
def pow2 (e : Int) : Nat × Nat := (Nat.pow 2 e.toNat, Nat.pow 2 (-e).toNat)

/-- `10` to an integer power, as a numerator and a denominator. -/
def pow10 (e : Int) : Nat × Nat := (Nat.pow 10 e.toNat, Nat.pow 10 (-e).toNat)

/-- `num / den` rounded to the nearest integer, a tie to the even one. -/
def roundHalfEven (num den : Nat) : Nat :=
  let q := num / den
  let r := num % den
  if 2 * r > den then q + 1
  else if 2 * r = den then (if q % 2 = 1 then q + 1 else q)
  else q

/-- The exponent `k` with `2^k ≤ num / den < 2^(k+1)`, for positive `num` and `den`. -/
def floorLog2 (num den : Nat) : Int :=
  let est : Int := (Nat.log2 num : Int) - Nat.log2 den
  let (a, b) := pow2 est
  if num * b ≥ den * a then est else est - 1

/-- The binary64 value nearest to `num / den` with sign `neg`, for positive `num` and `den`. -/
def nearestRatio (neg : Bool) (num den : Nat) : Binary64 :=
  let e := max (floorLog2 num den - 52) (-1074)
  let (a, b) := pow2 e
  let m := roundHalfEven (num * b) (den * a)
  let (m, e) := if m = Nat.pow 2 53 then (Nat.pow 2 52, e + 1) else (m, e)
  if e > 971 then .infinite neg else .finite neg m e

/-- The binary64 value nearest to `d · 10^x` with sign `neg`. -/
def Binary64.ofDecimal (neg : Bool) (d : Nat) (x : Int) : Binary64 :=
  if d = 0 then .finite neg 0 (-1074)
  else if (digitCount d : Int) + x > 310 then .infinite neg
  else if (digitCount d : Int) + x < -330 then .finite neg 0 (-1074)
  else
    let (a, b) := pow10 x
    nearestRatio neg (d * a) b

namespace Binary64

/-- Whether the value differs from zero; infinities and not-a-number do. -/
def isNonzero : Binary64 → Bool
  | .finite _ m _ => m != 0
  | _ => true

/-- Whether the natural number `n` is greater than the value; nothing is greater than
not-a-number. -/
def natGreater (n : Nat) : Binary64 → Bool
  | .finite true m _ => n > 0 || m > 0
  | .finite false m e =>
    let (a, b) := pow2 e
    n * b > m * a
  | .infinite neg => neg
  | .nan => false

end Binary64

end ColumnDecl.Decimal
