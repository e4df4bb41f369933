import TapeLab.Text.Printable

/-!
# Quoted text

The one-line form in which a problem report shows a piece of source text.  The
text stands in single quotes, or in double quotes when it holds a single quote
and no double one; whatever could not be seen on the line is written by number.
-/

namespace TapeLab.Text

/-- Lower-case hexadecimal digits, padded with zeros to a width. -/
def hexPadded (width number : Nat) : List Char :=
  let digits := Nat.toDigits 16 number
  List.replicate (width - digits.length) '0' ++ digits

/-- The quote that surrounds a text. -/
def quoteFor (text : List Char) : Char :=
  if text.contains '\'' && !text.contains '"' then '"' else '\''

/-- One character inside the given quotes. -/
def quotedChar (quote c : Char) : List Char :=
  if c == quote || c == '\\' then ['\\', c]
  else if c == '\n' then ['\\', 'n']
  else if c == '\r' then ['\\', 'r']
  else if c == '\t' then ['\\', 't']
  else if isPrintable c then [c]
  else if c.toNat ≤ 0xFF then '\\' :: 'x' :: hexPadded 2 c.toNat
  else if c.toNat ≤ 0xFFFF then '\\' :: 'u' :: hexPadded 4 c.toNat
  else '\\' :: 'U' :: hexPadded 8 c.toNat

/-- A text in quotes. -/
def quoted (text : String) : String :=
  let body := text.toList
  let quote := quoteFor body
  String.ofList (quote :: body.flatMap (quotedChar quote) ++ [quote])

end TapeLab.Text
