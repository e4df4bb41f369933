/-!
# Binary64 numbers

The floating-point numbers of settings files: a sign, a 53-bit significand and a
power of two, with infinities and one not-a-number value.  The numbers are kept
exactly, and the only arithmetic on them is the rounding of a decimal to the
nearest of them, so reading and printing can be reasoned about over `Nat`.
-/

namespace TapeLab.Number

/-- A power of two. -/
def twoTo (exponent : Nat) : Nat := Nat.pow 2 exponent

/-- A power of ten. -/
def tenTo (exponent : Nat) : Nat := Nat.pow 10 exponent

/-- A binary64 number; a finite one is `significand * 2 ^ exponent` with its sign. -/
inductive Binary64 where
  | nan
  | infinity (negative : Bool)
  | finite (negative : Bool) (significand : Nat) (exponent : Int)
  deriving DecidableEq, Repr, Inhabited

namespace Binary64

/-- The exponent of the smallest binary64 numbers. -/
def minExponent : Int := -1074

/-- The exponent of the largest finite binary64 numbers. -/
def maxExponent : Int := 971

/-- The number of bits of a significand. -/
def precision : Nat := 53

/-- Zero with a sign. -/
def zero (negative : Bool) : Binary64 :=
  .finite negative 0 minExponent

/-- The whole number nearest to `numerator / denominator`; of two equally near
ones, the even one. -/
def roundHalfEven (numerator denominator : Nat) : Nat :=
  let quotient := numerator / denominator
  let twice := 2 * (numerator % denominator)
  if twice < denominator then quotient
  else if denominator < twice then quotient + 1
  else quotient + quotient % 2

/-- `numerator / denominator` divided by `2 ^ exponent`, as a ratio again. -/
def scaledDown (numerator denominator : Nat) (exponent : Int) : Nat × Nat :=
  if 0 ≤ exponent then (numerator, denominator * twoTo exponent.toNat)
  else (numerator * twoTo (-exponent).toNat, denominator)

/-- The exponent at which `numerator / denominator` fills a whole significand, or
the least exponent if the ratio is too small to fill one. -/
def exponentFor (numerator denominator : Nat) : Int :=
  let guess := max minExponent ((numerator.log2 : Int) - denominator.log2 - 52)
  let scaled := scaledDown numerator denominator guess
  if guess > minExponent && scaled.1 / scaled.2 < twoTo (precision - 1) then guess - 1 else guess

/-- The binary64 number nearest to a ratio of positive numbers. -/
def ofRatio (negative : Bool) (numerator denominator : Nat) : Binary64 :=
  let exponent := exponentFor numerator denominator
  let scaled := scaledDown numerator denominator exponent
  let significand := roundHalfEven scaled.1 scaled.2
  let carried := significand == twoTo precision
  let exponent := if carried then exponent + 1 else exponent
  let significand := if carried then twoTo (precision - 1) else significand
  if exponent > maxExponent then .infinity negative
  else .finite negative significand exponent

/-- Decimal exponents past this bound, counted from the leading digit, are beyond
every finite number or below half of the smallest one. -/
def decimalBound : Int := 400

/-- The binary64 number nearest to `digits * 10 ^ exponent`. -/
def ofDecimal (negative : Bool) (digits : Nat) (exponent : Int) : Binary64 :=
  if digits == 0 then zero negative
  else
    let leading := exponent + (Nat.toDigits 10 digits).length
    if leading > decimalBound then .infinity negative
    else if leading < -decimalBound then zero negative
    else if 0 ≤ exponent then ofRatio negative (digits * tenTo exponent.toNat) 1
    else ofRatio negative digits (tenTo (-exponent).toNat)

/-- Whether the number is below zero; a zero of either sign and the
not-a-number value are not. -/
def isNegative : Binary64 → Bool
  | .nan => false
  | .infinity negative => negative
  | .finite negative significand _ => negative && significand != 0

/-- Whether the number is a zero of either sign. -/
def isZero : Binary64 → Bool
  | .finite _ significand _ => significand == 0
  | _ => false

/-- The rational number `significand * 2 ^ exponent`, with a sign. -/
def ratio (negative : Bool) (significand : Nat) (exponent : Int) : Rat :=
  let numerator := Int.ofNat (significand * twoTo exponent.toNat)
  mkRat (if negative then -numerator else numerator) (twoTo (-exponent).toNat)

/-- A zero is not below zero. -/
theorem isNegative_zero (negative : Bool) : (zero negative).isNegative = false := by
  simp [zero, isNegative]

end Binary64

end TapeLab.Number
