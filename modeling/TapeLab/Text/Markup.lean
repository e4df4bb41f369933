/-!
# Console markup

A console line may carry style tags in square brackets, such as `[red]` and
`[/red]`.  A tag is active unless an odd number of backslashes stands right in
front of it, so text from outside is made harmless by `escape`.  `activeTags`
lists the tags that a console would obey, and `nests` tells whether each of them that
closes another has one to close.
-/

namespace TapeLab.Text

/-- A character that may come first in a tag. -/
def startsTagName (c : Char) : Bool :=
  ('a' ≤ c && c ≤ 'z') || c == '#' || c == '/' || c == '@'

/-- What stands before the closing bracket, if that comes before any opening one. -/
def tagBody? : List Char → Option (List Char)
  | [] => none
  | c :: rest =>
    if c == ']' then some []
    else if c == '[' then none
    else (tagBody? rest).map (c :: ·)

/-- The tag that an opening bracket begins, given the text after the bracket. -/
def tagAfterBracket? (text : List Char) : Option (List Char) :=
  match text with
  | [] => none
  | c :: rest => if startsTagName c then (tagBody? rest).map (c :: ·) else none

/-- The number of backslashes right before the next character, `count` of them
standing before `c`. -/
def slashesAfter (count : Nat) (c : Char) : Nat :=
  if c == '\\' then count + 1 else 0

/-- Write one backslash more than were there before every tag, doubling those. -/
def escapeFrom (slashes : Nat) : List Char → List Char
  | [] => []
  | c :: rest =>
    let guarded :=
      if c == '[' && (tagAfterBracket? rest).isSome then
        List.replicate (slashes + 1) '\\' ++ [c]
      else [c]
    guarded ++ escapeFrom (slashesAfter slashes c) rest

/-- Whether a text ends in exactly one backslash. -/
def endsInLoneSlash (text : List Char) : Bool :=
  match text.reverse with
  | last :: others => last == '\\' && others.head? != some '\\'
  | [] => false

/-- A text in which no tag is active and which cannot disable a tag after it. -/
def escape (text : String) : String :=
  let guarded := escapeFrom 0 text.toList
  String.ofList (if endsInLoneSlash guarded then guarded ++ ['\\'] else guarded)

/-- The active tags of a text with `slashes` backslashes right before it. -/
def activeTagsFrom (slashes : Nat) : List Char → List (List Char)
  | [] => []
  | c :: rest =>
    let later := activeTagsFrom (slashesAfter slashes c) rest
    if c == '[' && slashes % 2 == 0 then
      match tagAfterBracket? rest with
      | some tag => tag :: later
      | none => later
    else later

/-- The tags of a console line that take effect, in order. -/
def activeTags (text : String) : List String :=
  (activeTagsFrom 0 text.toList).map String.ofList

/-- Whether every tag that closes another closes one that is open, with some open at
first, the latest first.  A closing tag without a name closes the latest. -/
def nestsIn (opened : List (List Char)) : List (List Char) → Bool
  | [] => true
  | tag :: rest =>
    match tag with
    | ['/'] => !opened.isEmpty && nestsIn opened.tail rest
    | '/' :: name => opened.contains name && nestsIn (opened.erase name) rest
    | '@' :: _ => false
    | _ => nestsIn (tag :: opened) rest

/-- Whether the tags of a console line that take effect are styles and nest. -/
def nests (text : String) : Bool :=
  nestsIn [] (activeTagsFrom 0 text.toList)

end TapeLab.Text
