import TapeLab.Number.Binary64

/-!
# Shortest decimals

A binary64 number is written with the fewest decimal digits from which it can be
read back.  For each digit count, in turn, the two neighbours of the number on
that decimal grid are tried by reading them; of two that read back the nearer is
taken, and of two equally near ones the one with the even last digit.
-/

namespace TapeLab.Number

/-- A decimal `digits * 10 ^ exponent`. -/
structure Decimal where
  digits : Nat
  exponent : Int
  deriving DecidableEq, Repr

/-- The most significant digits that a binary64 number ever needs. -/
def maxSignificantDigits : Nat := 17

/-- The exact value of a finite number without its sign, as a ratio. -/
def exactRatio (significand : Nat) (exponent : Int) : Nat × Nat :=
  if 0 ≤ exponent then (significand * twoTo exponent.toNat, 1)
  else (significand, twoTo (-exponent).toNat)

/-- The exponent of the leading decimal digit of a positive ratio. -/
def leadingExponent (numerator denominator : Nat) : Int :=
  let guess : Int := (Nat.toDigits 10 numerator).length - (Nat.toDigits 10 denominator).length
  let reached :=
    if 0 ≤ guess then denominator * tenTo guess.toNat ≤ numerator
    else denominator ≤ numerator * tenTo (-guess).toNat
  if reached then guess else guess - 1

/-- A ratio divided by `10 ^ exponent`, as a ratio again. -/
def scaledByTen (numerator denominator : Nat) (exponent : Int) : Nat × Nat :=
  if 0 ≤ exponent then (numerator, denominator * tenTo exponent.toNat)
  else (numerator * tenTo (-exponent).toNat, denominator)

/-- The best of a number's two neighbours on the grid of `10 ^ exponent` from
which `accepts` reads the number back. -/
def gridChoice? (accepts : Decimal → Bool) (numerator denominator : Nat) (exponent : Int) :
    Option Decimal :=
  let scaled := scaledByTen numerator denominator exponent
  let below : Decimal := ⟨scaled.1 / scaled.2, exponent⟩
  let above : Decimal := ⟨scaled.1 / scaled.2 + 1, exponent⟩
  match accepts below, accepts above with
  | true, false => some below
  | false, true => some above
  | false, false => none
  | true, true =>
    some (if Binary64.roundHalfEven scaled.1 scaled.2 == below.digits then below else above)

/-- Try the grids of `count` digits and of more, `more` of them in all. -/
def shortestFrom (accepts : Decimal → Bool) (numerator denominator : Nat) (leading : Int) :
    Nat → Nat → Option Decimal
  | _, 0 => none
  | count, more + 1 =>
    match gridChoice? accepts numerator denominator (leading + 1 - count) with
    | some decimal => some decimal
    | none => shortestFrom accepts numerator denominator leading (count + 1) more

/-- The number with its trailing decimal zeros moved into the exponent. -/
def Decimal.normalized (decimal : Decimal) : Decimal :=
  let text := Nat.toDigits 10 decimal.digits
  let zeros := (text.reverse.takeWhile (· == '0')).length
  if decimal.digits == 0 then decimal
  else ⟨decimal.digits / tenTo zeros, decimal.exponent + zeros⟩

/-- The shortest decimal from which the positive finite number reads back. -/
def shortest (significand : Nat) (exponent : Int) : Decimal :=
  let ratio := exactRatio significand exponent
  let accepts := fun decimal : Decimal =>
    Binary64.ofDecimal false decimal.digits decimal.exponent == .finite false significand exponent
  let found := shortestFrom accepts ratio.1 ratio.2 (leadingExponent ratio.1 ratio.2) 1
    maxSignificantDigits
  (found.getD ⟨0, 0⟩).normalized

/-- How a number is laid out: positional notation for these exponents of the
leading digit, and the texts of the values that have no digits. -/
structure Layout where
  leastPositional : Int
  beyondPositional : Int
  nanText : String
  infinityText : String

/-- Zeros as characters. -/
def zeros (count : Nat) : String :=
  String.ofList (List.replicate count '0')

/-- Digits with the point after the `places`-th of them, at least one digit
standing on each side. -/
def positional (digits : List Char) (places : Int) : String :=
  if places ≤ 0 then "0." ++ zeros (-places).toNat ++ String.ofList digits
  else if digits.length ≤ places.toNat then
    String.ofList digits ++ zeros (places.toNat - digits.length) ++ ".0"
  else
    String.ofList (digits.take places.toNat) ++ "." ++ String.ofList (digits.drop places.toNat)

/-- One digit, the others after a point, and the exponent with its sign and at
least two digits. -/
def scientific (digits : List Char) (exponent : Int) : String :=
  let mantissa := match digits with
    | first :: second :: rest => String.ofList (first :: '.' :: second :: rest)
    | short => String.ofList short
  let magnitude := Nat.toDigits 10 exponent.natAbs
  let padded := List.replicate (2 - magnitude.length) '0' ++ magnitude
  mantissa ++ (if exponent < 0 then "e-" else "e+") ++ String.ofList padded

/-- The text of a number under a layout. -/
def Binary64.text (layout : Layout) : Binary64 → String
  | .nan => layout.nanText
  | .infinity negative => (if negative then "-" else "") ++ layout.infinityText
  | .finite negative significand exponent =>
    let sign := if negative then "-" else ""
    if significand == 0 then sign ++ "0.0"
    else
      let decimal := shortest significand exponent
      let digits := Nat.toDigits 10 decimal.digits
      let places := decimal.exponent + digits.length
      let leading := places - 1
      if layout.leastPositional ≤ leading && leading < layout.beyondPositional then
        sign ++ positional digits places
      else sign ++ scientific digits leading

/-- The layout of numbers shown to people. -/
def displayLayout : Layout := ⟨-4, 16, "nan", "inf"⟩

/-- The layout of numbers in files. -/
def storedLayout : Layout := ⟨-4, 16, "NaN", "Infinity"⟩

end TapeLab.Number
