import TapeLab.Json.Value
import TapeLab.Number.Reading

/-!
# Reading JSON

A reader for the JSON that settings and checkpoints are stored in.  Beside the
standard it knows the words for infinity and not-a-number; of several fields of one
name the last counts, at the place of the first; whole numbers have a greatest
length; and lists and records may stand in one another only so deep.
-/

namespace TapeLab.Json

open TapeLab.Number TapeLab.Text

/-- Why a text gives no value. -/
inductive ReadFault where
  | malformed
  | numeralTooLong
  | nestedTooDeep
  deriving DecidableEq, Repr

/-- A character that may stand between the parts of a value. -/
def isJsonSpace (c : Char) : Bool :=
  c == ' ' || c == '\t' || c == '\n' || c == '\r'

/-- The text from its first character that is no space. -/
def skipSpaces (text : List Char) : List Char :=
  text.dropWhile isJsonSpace

/-- An ASCII digit. -/
def isPlainDigit (c : Char) : Bool :=
  '0' ≤ c && c ≤ '9'

/-- The value of a hexadecimal digit. -/
def hexValue? (c : Char) : Option Nat :=
  if isPlainDigit c then some (c.toNat - '0'.toNat)
  else if 'a' ≤ c && c ≤ 'f' then some (c.toNat - 'a'.toNat + 10)
  else if 'A' ≤ c && c ≤ 'F' then some (c.toNat - 'A'.toNat + 10)
  else none

/-- Four hexadecimal digits and what follows them. -/
def codeUnit? : List Char → Option (Nat × List Char)
  | a :: b :: c :: d :: rest => do
    let high := 16 * (← hexValue? a) + (← hexValue? b)
    let low := 16 * (← hexValue? c) + (← hexValue? d)
    return (256 * high + low, rest)
  | _ => none

/-- A code unit that begins a pair. -/
def isHighUnit (unit : Nat) : Bool :=
  0xD800 ≤ unit && unit ≤ 0xDBFF

/-- A code unit that ends a pair. -/
def isLowUnit (unit : Nat) : Bool :=
  0xDC00 ≤ unit && unit ≤ 0xDFFF

/-- The character of a code unit, which stands alone; half a pair is replaced. -/
def loneUnit (unit : Nat) : Char :=
  if isHighUnit unit || isLowUnit unit then '\uFFFD' else Char.ofNat unit

/-- The character of a pair of code units. -/
def pairedUnits (high low : Nat) : Char :=
  Char.ofNat (0x10000 + 0x400 * (high - 0xD800) + (low - 0xDC00))

/-- The code unit of an escape that begins here, and what follows it. -/
def escapedUnit? : List Char → Option (Nat × List Char)
  | a :: b :: rest => if a == '\\' && b == 'u' then codeUnit? rest else none
  | _ => none

/-- The character of an escape in digits, given the text after its letter, and what
follows it.  The first half of a pair takes the second with it. -/
def numberedEscape? (text : List Char) : Option (Char × List Char) := do
  let (unit, rest) ← codeUnit? text
  if isHighUnit unit then
    match escapedUnit? rest with
    | some (low, after) => if isLowUnit low then return (pairedUnits unit low, after)
    | none => pure ()
  return (loneUnit unit, rest)

/-- The character of an escape by letter. -/
def letteredEscape? (letter : Char) : Option Char :=
  if letter == '"' || letter == '\\' || letter == '/' then some letter
  else if letter == 'n' then some '\n'
  else if letter == 'r' then some '\r'
  else if letter == 't' then some '\t'
  else if letter == 'b' then some '\x08'
  else if letter == 'f' then some '\x0c'
  else none

/-- The characters up to the closing quote, and what follows it. -/
def quotedText? : Nat → List Char → Option (List Char × List Char)
  | 0, _ => none
  | _, [] => none
  | fuel + 1, c :: rest =>
    if c == '"' then some ([], rest)
    else if c.toNat < 0x20 then none
    else if c == '\\' then
      match rest with
      | [] => none
      | letter :: after =>
        let escape :=
          if letter == 'u' then numberedEscape? after
          else (letteredEscape? letter).map fun meant => (meant, after)
        match escape with
        | none => none
        | some (meant, later) =>
          (quotedText? fuel later).map fun parts => (meant :: parts.1, parts.2)
    else (quotedText? fuel rest).map fun parts => (c :: parts.1, parts.2)

/-- The whole part of a number without its sign, and what follows it: a zero
stands alone. -/
def wholePart (text : List Char) : List Char × List Char :=
  match text with
  | [] => ([], [])
  | c :: rest =>
    if c == '0' then (['0'], rest)
    else (text.takeWhile isPlainDigit, text.dropWhile isPlainDigit)

/-- A point with digits after it, and what follows. -/
def fractionPart (text : List Char) : List Char × List Char :=
  match text with
  | [] => ([], [])
  | c :: rest =>
    let digits := rest.takeWhile isPlainDigit
    if c == '.' && !digits.isEmpty then (c :: digits, rest.dropWhile isPlainDigit)
    else ([], text)

/-- An exponent mark with digits after it, and what follows. -/
def exponentPart (text : List Char) : List Char × List Char :=
  match text with
  | [] => ([], [])
  | c :: rest =>
    if c == 'e' || c == 'E' then
      let (sign, unsigned) :=
        match rest with
        | [] => ([], [])
        | s :: more => if s == '+' || s == '-' then ([s], more) else ([], rest)
      let digits := unsigned.takeWhile isPlainDigit
      if digits.isEmpty then ([], text)
      else (c :: sign ++ digits, unsigned.dropWhile isPlainDigit)
    else ([], text)

/-- A number, and what follows it. -/
def numberThen (text : List Char) : Except ReadFault (Value × List Char) :=
  let negative := text.head? == some '-'
  let (whole, afterWhole) := wholePart (if negative then text.tail else text)
  if whole.isEmpty then .error .malformed
  else
    let (fraction, afterFraction) := fractionPart afterWhole
    let (power, rest) := exponentPart afterFraction
    let sign := if negative then ['-'] else []
    if fraction.isEmpty && power.isEmpty then
      match integer? (sign ++ whole) with
      | some value => .ok (.integer value, rest)
      | none => .error .numeralTooLong
    else
      match Binary64.read? (sign ++ whole ++ fraction ++ power) with
      | some value => .ok (.float value, rest)
      | none => .error .malformed

/-- The words that are values. -/
def wordValues : List (List Char × Value) :=
  [("null".toList, .null), ("true".toList, .bool true), ("false".toList, .bool false),
   ("NaN".toList, .float .nan), ("Infinity".toList, .float (.infinity false)),
   ("-Infinity".toList, .float (.infinity true))]

/-- The value of a word at the front of a text, and what follows it. -/
def wordThen? (text : List Char) : Option (Value × List Char) :=
  wordValues.findSome? fun word =>
    if word.1.isPrefixOf text then some (word.2, text.drop word.1.length) else none

mutual

/-- A value that begins here, and what follows it.  The room is how many lists and records
may stand in one another. -/
def valueThen (room : Nat) : Nat → List Char → Except ReadFault (Value × List Char)
  | 0, _ => .error .malformed
  | _, [] => .error .malformed
  | fuel + 1, c :: rest =>
    if c == '"' then
      match quotedText? fuel rest with
      | some (text, after) => .ok (.text (String.ofList text), after)
      | none => .error .malformed
    else if c == '[' then
      if room == 0 then .error .nestedTooDeep
      else
        let inside := skipSpaces rest
        if inside.head? == some ']' then .ok (.list [], inside.tail)
        else do
          let (items, after) ← itemsThen (room - 1) fuel inside
          return (.list items, after)
    else if c == '\x7b' then
      if room == 0 then .error .nestedTooDeep
      else
        let inside := skipSpaces rest
        if inside.head? == some '\x7d' then .ok (.record [], inside.tail)
        else do
          let (fields, after) ← fieldsThen (room - 1) fuel inside
          return (.record (Keyed.merge [] fields), after)
    else
      match wordThen? (c :: rest) with
      | some found => .ok found
      | none => numberThen (c :: rest)

/-- The items of a list up to its end, the first of which begins here, and what
follows the list. -/
def itemsThen (room : Nat) : Nat → List Char → Except ReadFault (List Value × List Char)
  | 0, _ => .error .malformed
  | fuel + 1, text => do
    let (item, rest) ← valueThen room fuel text
    match skipSpaces rest with
    | [] => .error .malformed
    | c :: after =>
      if c == ']' then return ([item], after)
      else if c == ',' then
        let (items, later) ← itemsThen room fuel (skipSpaces after)
        return (item :: items, later)
      else .error .malformed

/-- The fields of a record up to its end, the first of which begins here, and what
follows the record. -/
def fieldsThen (room : Nat) :
    Nat → List Char → Except ReadFault (List (String × Value) × List Char)
  | 0, _ => .error .malformed
  | _, [] => .error .malformed
  | fuel + 1, quote :: text =>
    if quote != '"' then .error .malformed
    else
      match quotedText? fuel text with
      | none => .error .malformed
      | some (key, rest) =>
        match skipSpaces rest with
        | [] => .error .malformed
        | colon :: afterColon =>
          if colon != ':' then .error .malformed
          else do
            let (value, rest) ← valueThen room fuel (skipSpaces afterColon)
            match skipSpaces rest with
            | [] => .error .malformed
            | c :: after =>
              if c == '\x7d' then return ([(String.ofList key, value)], after)
              else if c == ',' then
                let (fields, later) ← fieldsThen room fuel (skipSpaces after)
                return ((String.ofList key, value) :: fields, later)
              else .error .malformed

end

/-- The value that a whole text is, if no more lists and records than there is room for
stand in one another. -/
def readWithin (room : Nat) (text : List Char) : Except ReadFault Value := do
  let (value, rest) ← valueThen room (2 * text.length + 2) (skipSpaces text)
  if (skipSpaces rest).isEmpty then return value else .error .malformed

/-- The value that a whole text is, however deep it is nested. -/
def read (text : List Char) : Except ReadFault Value :=
  readWithin text.length text

end TapeLab.Json
