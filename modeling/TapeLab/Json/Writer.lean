import TapeLab.Json.Value
import TapeLab.Number.Shortest
import TapeLab.Text.Quoted

/-!
# Writing JSON

JSON text in ASCII, either on one line or with one item a line and an indent for
every level.  The two forms differ only in a `Layout`: what stands between items,
and what stands around them.  Of a value that is nested too deep only the part before
the depth is written.
-/

namespace TapeLab.Json

open TapeLab.Number TapeLab.Text

/-- Where lines break: at the edges of a list or record whose items are at a level,
and between those items. -/
structure Layout where
  edge : Nat → List Char
  separator : Nat → List Char

/-- Everything on one line. -/
def Layout.compact : Layout where
  edge := fun _ => []
  separator := fun _ => [',', ' ']

/-- The break before an item of a level: a new line and four spaces a level. -/
def indentBreak (level : Nat) : List Char :=
  '\n' :: List.replicate (4 * level) ' '

/-- One item a line. -/
def Layout.indented : Layout where
  edge := indentBreak
  separator := fun level => ',' :: indentBreak level

/-- A code unit as an escape with four hexadecimal digits. -/
def escapedUnit (unit : Nat) : List Char :=
  '\\' :: 'u' :: hexPadded 4 unit

/-- A character beyond the basic plane is written as a pair of code units. -/
def escapedPair (code : Nat) : List Char :=
  let offset := code - 0x10000
  escapedUnit (0xD800 + offset / 0x400) ++ escapedUnit (0xDC00 + offset % 0x400)

/-- A character inside quotes. -/
def writtenChar (c : Char) : List Char :=
  if c == '"' || c == '\\' then ['\\', c]
  else if c == '\n' then ['\\', 'n']
  else if c == '\r' then ['\\', 'r']
  else if c == '\t' then ['\\', 't']
  else if c == '\x08' then ['\\', 'b']
  else if c == '\x0c' then ['\\', 'f']
  else if 0x20 ≤ c.toNat && c.toNat ≤ 0x7E then [c]
  else if c.toNat ≤ 0xFFFF then escapedUnit c.toNat
  else escapedPair c.toNat

/-- A text in quotes. -/
def writtenText (text : String) : List Char :=
  '"' :: text.toList.flatMap writtenChar ++ ['"']

/-- A whole number in decimal. -/
def writtenInteger (value : Int) : List Char :=
  if value < 0 then '-' :: Nat.toDigits 10 value.natAbs else Nat.toDigits 10 value.natAbs

mutual

/-- A value at a level. -/
def written (layout : Layout) (level : Nat) : Value → List Char
  | .null => "null".toList
  | .bool value => if value then "true".toList else "false".toList
  | .integer value => writtenInteger value
  | .float value => (value.text storedLayout).toList
  | .text value => writtenText value
  | .list [] => ['[', ']']
  | .list (item :: rest) =>
    '[' :: layout.edge (level + 1) ++ written layout (level + 1) item ++
      writtenItems layout (level + 1) rest ++ layout.edge level ++ [']']
  | .record [] => ['\x7b', '\x7d']
  | .record ((key, value) :: rest) =>
    '\x7b' :: layout.edge (level + 1) ++ writtenText key ++ [':', ' '] ++
      written layout (level + 1) value ++ writtenFields layout (level + 1) rest ++
      layout.edge level ++ ['\x7d']

/-- The items after the first. -/
def writtenItems (layout : Layout) (level : Nat) : List Value → List Char
  | [] => []
  | item :: rest =>
    layout.separator level ++ written layout level item ++ writtenItems layout level rest

/-- The fields after the first. -/
def writtenFields (layout : Layout) (level : Nat) : List (String × Value) → List Char
  | [] => []
  | (key, value) :: rest =>
    layout.separator level ++ writtenText key ++ [':', ' '] ++ written layout level value ++
      writtenFields layout level rest

end

/-- What is begun of two parts, the second of which comes after the whole of the first. -/
def begunOf (first? : Option (List Char)) (whole : List Char) (second? : Option (List Char)) :
    Option (List Char) :=
  match first? with
  | some text => some text
  | none => second?.map (whole ++ ·)

mutual

/-- What is written of a value at a level before the first list or record in it for which
there is no room; nothing if there is room for all of it. -/
def begun? (layout : Layout) : Nat → Nat → Value → Option (List Char)
  | 0, _, .list _ => some []
  | 0, _, .record _ => some []
  | room + 1, level, .list (item :: rest) =>
    (begunOf (begun? layout room (level + 1) item) (written layout (level + 1) item)
      (begunItems? layout room (level + 1) rest)).map
        ('[' :: layout.edge (level + 1) ++ ·)
  | room + 1, level, .record ((key, value) :: rest) =>
    (begunOf (begun? layout room (level + 1) value) (written layout (level + 1) value)
      (begunFields? layout room (level + 1) rest)).map
        ('\x7b' :: layout.edge (level + 1) ++ writtenText key ++ [':', ' '] ++ ·)
  | _, _, _ => none

/-- What is begun of the items after the first. -/
def begunItems? (layout : Layout) (room level : Nat) : List Value → Option (List Char)
  | [] => none
  | item :: rest =>
    (begunOf (begun? layout room level item) (written layout level item)
      (begunItems? layout room level rest)).map (layout.separator level ++ ·)

/-- What is begun of the fields after the first. -/
def begunFields? (layout : Layout) (room level : Nat) :
    List (String × Value) → Option (List Char)
  | [] => none
  | (key, value) :: rest =>
    (begunOf (begun? layout room level value) (written layout level value)
      (begunFields? layout room level rest)).map
        (layout.separator level ++ writtenText key ++ [':', ' '] ++ ·)

end

/-- A value on one line. -/
def Value.compact (value : Value) : String :=
  String.ofList (written .compact 0 value)

/-- A value with one item a line. -/
def Value.indented (value : Value) : String :=
  String.ofList (written .indented 0 value)

/-- What is begun of a value with one item a line, if there is no room for all of it. -/
def Value.begunIndented? (room : Nat) (value : Value) : Option String :=
  (begun? .indented room 0 value).map String.ofList

end TapeLab.Json
