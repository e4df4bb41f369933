import TapeLab.Number.Binary64
import TapeLab.Text.Numeral

/-!
# Reading decimal numbers

The text of a number with a point or an exponent, in the free form that people
type at a prompt: blanks around it, a sign, digits of any script with single
underscores between them, and the words for infinity and not-a-number.
-/

namespace TapeLab.Number

open TapeLab.Text

/-- The unsigned parts of a decimal number: the digits, and the power of ten of
the last of them. -/
structure DecimalParts where
  digits : List Nat
  exponent : Int

/-- A number without its digits' underscores: each underscore must stand between
digits.  `afterDigit` says whether the character before was a digit. -/
def withoutUnderscores? (afterDigit : Bool) : List Char → Option (List Char)
  | [] => some []
  | c :: rest =>
    if c == '_' then
      if afterDigit && (rest.head?.bind decimalValue?).isSome then withoutUnderscores? false rest
      else none
    else (withoutUnderscores? (decimalValue? c).isSome rest).map (c :: ·)

/-- The values of the digits at the front of a text, and what follows them. -/
def leadingDigits : List Char → List Nat × List Char
  | [] => ([], [])
  | c :: rest =>
    match decimalValue? c with
    | some value => ((value :: (leadingDigits rest).1), (leadingDigits rest).2)
    | none => ([], c :: rest)

/-- A sign at the front of a text: whether it is a minus, and what follows. -/
def leadingSign (text : List Char) : Bool × List Char :=
  match text with
  | [] => (false, [])
  | c :: rest => if c == '-' then (true, rest) else if c == '+' then (false, rest)
    else (false, c :: rest)

/-- An exponent mark with its whole number, or nothing. -/
def exponent? (text : List Char) : Option Int :=
  match text with
  | [] => some 0
  | c :: rest =>
    if c == 'e' || c == 'E' then
      let (negative, unsigned) := leadingSign rest
      let (digits, left) := leadingDigits unsigned
      if digits.isEmpty || !left.isEmpty then none
      else
        let number := Int.ofNat (ofDigitValues digits)
        some (if negative then -number else number)
    else none

/-- Digits, an optional point with digits, and an optional exponent; a digit must
stand before or after the point. -/
def decimalParts? (text : List Char) : Option DecimalParts :=
  let (whole, afterWhole) := leadingDigits text
  let (fraction, afterFraction) :=
    match afterWhole with
    | [] => ([], [])
    | c :: rest => if c == '.' then leadingDigits rest else ([], c :: rest)
  if whole.isEmpty && fraction.isEmpty then none
  else (exponent? afterFraction).map fun power =>
    ⟨whole ++ fraction, power - fraction.length⟩

/-- The words for values without digits, in any letter case. -/
def wordValue? (negative : Bool) (text : List Char) : Option Binary64 :=
  match String.ofList (text.map Char.toLower) with
  | "nan" => some .nan
  | "inf" => some (.infinity negative)
  | "infinity" => some (.infinity negative)
  | _ => none

/-- A number typed with or without a point. -/
def Binary64.read? (text : List Char) : Option Binary64 := do
  let (negative, unsigned) := leadingSign (trim text)
  match wordValue? negative unsigned with
  | some value => return value
  | none =>
    let plain ← withoutUnderscores? false unsigned
    let parts ← decimalParts? plain
    return .ofDecimal negative (ofDigitValues parts.digits) parts.exponent

end TapeLab.Number
