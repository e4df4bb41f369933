import TapeLab.Text.Blank
import TapeLab.Text.Digit

/-!
# Numerals

Whole numbers as people type them at a prompt or on a command line, and the
grouped form in which counts are reported.
-/

namespace TapeLab.Text

/-- The most digits a typed whole number may have. -/
def maxNumeralDigits : Nat := 4300

/-- The digit values of a run of decimal digits in which single underscores may
stand between digits; `afterDigit` says whether the character before was a digit. -/
def digitRun? (afterDigit : Bool) : List Char → Option (List Nat)
  | [] => if afterDigit then some [] else none
  | c :: rest =>
    if afterDigit && c == '_' then digitRun? false rest
    else do return (← decimalValue? c) :: (← digitRun? true rest)

/-- The number that digit values name, the first digit weighing most. -/
def ofDigitValues (digits : List Nat) : Nat :=
  digits.foldl (fun number digit => 10 * number + digit) 0

/-- A natural number, unless it has too many digits. -/
def natural? (text : List Char) : Option Nat := do
  let digits ← digitRun? false text
  if digits.length ≤ maxNumeralDigits then return ofDigitValues digits else none

/-- The white space that may stand around a number: all of it but the information
separators. -/
def isNumeralSpace (c : Char) : Bool :=
  isBlank c && !(28 ≤ c.toNat && c.toNat ≤ 31)

/-- The text without the white space that may stand around a number. -/
def trimNumeral (text : List Char) : List Char :=
  ((text.dropWhile isNumeralSpace).reverse.dropWhile isNumeralSpace).reverse

/-- A whole number with white space around it and one sign in front at most. -/
def integer? (text : List Char) : Option Int :=
  match trimNumeral text with
  | '-' :: digits => (natural? digits).map fun number => -Int.ofNat number
  | '+' :: digits => (natural? digits).map Int.ofNat
  | digits => (natural? digits).map Int.ofNat

/-- Put a comma before every group of three digits, counted from the right;
the digits come lowest first. -/
def groupLowestFirst : List Char → List Char
  | a :: b :: c :: d :: rest => a :: b :: c :: ',' :: groupLowestFirst (d :: rest)
  | digits => digits

/-- A count with its thousands marked by commas. -/
def grouped (number : Nat) : String :=
  String.ofList (groupLowestFirst (Nat.toDigits 10 number).reverse).reverse

end TapeLab.Text
