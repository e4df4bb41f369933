/-!
# UTF-8 files

Files hold bytes and programs read text.  `decode` gives the text of a file, or
the place and cause of the first byte that no UTF-8 text could have there.
-/

namespace TapeLab.Text

/-- Why a sequence of bytes is not UTF-8. -/
inductive Utf8Cause where
  | invalidStart
  | invalidContinuation
  | unexpectedEnd
  deriving DecidableEq, Repr

/-- A flaw in a file: its first byte, where it starts, how many bytes it spans,
and its cause. -/
structure Utf8Fault where
  byte : UInt8
  start : Nat
  width : Nat
  cause : Utf8Cause
  deriving DecidableEq, Repr

/-- The wording of a cause. -/
def Utf8Cause.message : Utf8Cause → String
  | .invalidStart => "invalid start byte"
  | .invalidContinuation => "invalid continuation byte"
  | .unexpectedEnd => "unexpected end of data"

/-- A byte in hexadecimal, with two digits. -/
def byteText (byte : UInt8) : String :=
  let digits := Nat.toDigits 16 byte.toNat
  "0x" ++ String.ofList (List.replicate (2 - digits.length) '0' ++ digits)

/-- The report of a flaw: a flaw of one byte is shown with the byte. -/
def Utf8Fault.message (fault : Utf8Fault) : String :=
  if fault.width == 1 then
    "'utf-8' codec can't decode byte " ++ byteText fault.byte ++ " in position " ++
      toString fault.start ++ ": " ++ fault.cause.message
  else
    "'utf-8' codec can't decode bytes in position " ++ toString fault.start ++ "-" ++
      toString (fault.start + fault.width - 1) ++ ": " ++ fault.cause.message

/-- A byte that continues a character. -/
def isContinuation (byte : UInt8) : Bool :=
  0x80 ≤ byte && byte ≤ 0xBF

/-- Whether a byte may follow the given first byte of a longer character: overlong
forms, surrogates and numbers past the last code point are ruled out here. -/
def maySecond (first second : UInt8) : Bool :=
  isContinuation second &&
    !(first == 0xE0 && second < 0xA0) && !(first == 0xED && 0xA0 ≤ second) &&
    !(first == 0xF0 && second < 0x90) && !(first == 0xF4 && 0x90 ≤ second)

/-- How many bytes a character has, by its first byte; zero for a byte that
begins no character. -/
def characterWidth (first : UInt8) : Nat :=
  if first < 0x80 then 1
  else if first < 0xC2 then 0
  else if first < 0xE0 then 2
  else if first < 0xF0 then 3
  else if first < 0xF5 then 4
  else 0

/-- The flaw of the character that begins with `first`, if the bytes after it do
not complete it. -/
def characterFault? (start : Nat) (first : UInt8) (rest : List UInt8) : Option Utf8Fault :=
  match characterWidth first with
  | 0 => some ⟨first, start, 1, .invalidStart⟩
  | 1 => none
  | width =>
    let following := rest.take (width - 1)
    let sound := match following with
      | [] => 0
      | second :: later =>
        if maySecond first second then 1 + (later.takeWhile isContinuation).length else 0
    if sound == width - 1 then none
    else if sound == following.length then some ⟨first, start, 1 + sound, .unexpectedEnd⟩
    else some ⟨first, start, 1 + sound, .invalidContinuation⟩

/-- The first flaw of a sequence of bytes; `skip` bytes of it belong to a
character already read. -/
def firstFault? (start : Nat) : Nat → List UInt8 → Option Utf8Fault
  | _, [] => none
  | skip + 1, _ :: rest => firstFault? (start + 1) skip rest
  | 0, first :: rest =>
    match characterFault? start first rest with
    | some fault => some fault
    | none => firstFault? (start + 1) (characterWidth first - 1) rest

/-- The text of a file, or its first flaw. -/
def decode (bytes : ByteArray) : Except Utf8Fault String :=
  match String.fromUTF8? bytes with
  | some text => .ok text
  | none =>
    .error <| (firstFault? 0 0 bytes.toList).getD ⟨0, 0, 1, .invalidStart⟩

/-- The bytes of a text. -/
def encode (text : String) : ByteArray :=
  text.toUTF8

/-- The bytes of two texts in a row are those of one after those of the other. -/
theorem encode_append (first second : String) :
    encode (first ++ second) = encode first ++ encode second :=
  String.toByteArray_append

/-- A written text reads back. -/
theorem decode_encode (text : String) : decode (encode text) = .ok text := by
  have valid : text.toByteArray.IsValidUTF8 := text.isValidUTF8
  simp [decode, encode, String.fromUTF8?, valid, String.fromUTF8]

end TapeLab.Text
