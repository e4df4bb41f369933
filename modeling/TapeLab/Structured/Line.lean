import TapeLab.Structured.Token

/-!
# Lines of structured sources

The table part of a structured source has two kinds of line.  A header `name:`
opens the block of a state; a transition `key: action` declares what the state does
with one symbol or with each of a bracketed list.  An action is a bare move, or
braces around entries of which exactly one is a move and the others are writes.
-/

namespace TapeLab.Structured

open TapeLab.Text

/-- What a token was expected to be. -/
inductive Expected where
  | mark (mark : Mark)
  | word
  deriving DecidableEq, Repr

/-- The name of an expectation. -/
def Expected.name : Expected → String
  | .mark sign => String.singleton sign.char
  | .word => "WORD"

/-- Why a line could not be used. -/
inductive LineFault where
  | unclosedQuote
  | endOfLine
  | unexpected (expected : Expected) (found : Token)
  | noSymbol (found : Token)
  | noAction
  | moveCount
  | unknownEntry (name : String)
  | writeWithoutSymbol
  | listHeader
  | outsideBlock
  | afterAction (found : Token)
  | notOneValue
  deriving DecidableEq, Repr

/-- The wording of a fault. -/
def LineFault.message : LineFault → String
  | .unclosedQuote => "unterminated quoted symbol"
  | .endOfLine => "unexpected end of line"
  | .unexpected expected found =>
    "expected '" ++ expected.name ++ "' but found '" ++ found.text ++ "'"
  | .noSymbol found => "expected a symbol but found '" ++ found.text ++ "'"
  | .noAction => "missing action"
  | .moveCount => "action needs exactly one of L, R or N"
  | .unknownEntry name => "unknown action key '" ++ name ++ "'"
  | .writeWithoutSymbol => "'write' needs a symbol"
  | .listHeader => "a state header cannot be a symbol list"
  | .outsideBlock => "transition outside of a state block"
  | .afterAction found => "unexpected '" ++ found.text ++ "' after action"
  | .notOneValue => "expected a single value"

/-- What a state does with a symbol: what it writes, if anything, how the head
moves, and where the machine goes on. -/
structure Action where
  write : Option Symbol
  move : Move
  next : StateName
  deriving DecidableEq, Repr

/-- A table line: the opening of a state's block, or a transition in it. -/
inductive TableLine where
  | header (state : StateName)
  | transition (symbols : List Symbol) (action : Action)
  deriving DecidableEq, Repr

/-- An entry of an action in braces: a word and, after a colon, its value. -/
structure Entry where
  name : String
  value : Option Symbol
  deriving DecidableEq, Repr

/-- The move that a word names here; only the capital letters do. -/
def moveOfWord? (name : String) : Option Move :=
  if name == "L" then some .left
  else if name == "R" then some .right
  else if name == "N" then some .stay
  else none

/-- The word of an entry that writes. -/
def writeWord : String := "write"

/-- The tokens after a given mark. -/
def expectMark (mark : Mark) : List Token → Except LineFault (List Token)
  | [] => .error .endOfLine
  | token :: rest =>
    if token = .mark mark then .ok rest else .error (.unexpected (.mark mark) token)

/-- A symbol and the tokens after it. -/
def symbolThen : List Token → Except LineFault (Symbol × List Token)
  | [] => .error .endOfLine
  | token :: rest =>
    match token.symbol? with
    | some symbol => .ok (symbol, rest)
    | none => .error (.noSymbol token)

/-- Symbols with a comma before each, and the tokens after them. -/
def moreSymbols : List Token → Except LineFault (List Symbol × List Token)
  | .mark .comma :: token :: rest =>
    match token.symbol? with
    | some symbol => do
      let (symbols, after) ← moreSymbols rest
      return (symbol :: symbols, after)
    | none => .error (.noSymbol token)
  | [.mark .comma] => .error .endOfLine
  | tokens => .ok ([], tokens)

/-- The key of a line: the symbols, whether brackets stand around them, and the
tokens after it. -/
def keyThen (tokens : List Token) : Except LineFault (List Symbol × Bool × List Token) :=
  match tokens with
  | .mark .openBracket :: rest => do
    let (first, rest) ← symbolThen rest
    let (others, rest) ← moreSymbols rest
    let rest ← expectMark .closeBracket rest
    return (first :: others, true, rest)
  | tokens => do
    let (symbol, rest) ← symbolThen tokens
    return ([symbol], false, rest)

/-- Entries, the first of which begins here, and the tokens after them. -/
def entriesThen : List Token → Except LineFault (List Entry × List Token)
  | .word name :: .mark .colon :: value :: .mark .comma :: rest =>
    match value.symbol? with
    | some symbol => do
      let (entries, after) ← entriesThen rest
      return (⟨name, some symbol⟩ :: entries, after)
    | none => .error (.noSymbol value)
  | .word name :: .mark .colon :: value :: rest =>
    match value.symbol? with
    | some symbol => .ok ([⟨name, some symbol⟩], rest)
    | none => .error (.noSymbol value)
  | [.word _, .mark .colon] => .error .endOfLine
  | .word name :: .mark .comma :: rest => do
    let (entries, after) ← entriesThen rest
    return (⟨name, none⟩ :: entries, after)
  | .word name :: rest => .ok ([⟨name, none⟩], rest)
  | token :: _ => .error (.unexpected .word token)
  | [] => .error .endOfLine

/-- The last symbol that the entries write.  Moves are passed over, and every
other entry has to be a write with its symbol. -/
def lastWrite (entries : List Entry) : Except LineFault (Option Symbol) :=
  entries.foldlM (fun written entry =>
    if (moveOfWord? entry.name).isSome then .ok written
    else if entry.name != writeWord then .error (.unknownEntry entry.name)
    else
      match entry.value with
      | none => .error .writeWithoutSymbol
      | some symbol => .ok (some symbol)) none

/-- The action of a state's entries: the move's value is the next state, and
without one the machine stays in its state. -/
def actionOf (state : StateName) (entries : List Entry) : Except LineFault Action :=
  match entries.filter fun entry => (moveOfWord? entry.name).isSome with
  | [entry] =>
    match moveOfWord? entry.name with
    | none => .error .moveCount
    | some move => do
      let write ← lastWrite entries
      let next := match entry.value with
        | some next => if next.isEmpty then state else next
        | none => state
      return { write, move, next }
  | _ => .error .moveCount

/-- The entries in braces, none at all being allowed, and the tokens after them. -/
def bracedEntries (tokens : List Token) : Except LineFault (List Entry × List Token) := do
  let rest ← expectMark .openBrace tokens
  let (entries, rest) ←
    if rest.isEmpty || rest.head? == some (.mark .closeBrace) then .ok ([], rest)
    else entriesThen rest
  let rest ← expectMark .closeBrace rest
  return (entries, rest)

/-- The move that a token names on its own. -/
def bareMove? : Token → Option Move
  | .word name => moveOfWord? name
  | _ => none

/-- The action of a line and the tokens after it. -/
def actionThen (state : StateName) : List Token → Except LineFault (Action × List Token)
  | [] => .error .noAction
  | token :: rest =>
    match bareMove? token with
    | some move => .ok (⟨none, move, state⟩, rest)
    | none => do
      let (entries, rest) ← bracedEntries (token :: rest)
      let action ← actionOf state entries
      return (action, rest)

/-- The table line that tokens form in the block of a state, if one is open. -/
def readTokens (tokens : List Token) (state : Option StateName) :
    Except LineFault TableLine := do
  let (symbols, bracketed, rest) ← keyThen tokens
  let rest ← expectMark .colon rest
  if rest.isEmpty then
    match symbols with
    | [name] => if bracketed then .error .listHeader else .ok (.header name)
    | _ => .error .listHeader
  else
    match state with
    | none => .error .outsideBlock
    | some state => do
      let (action, rest) ← actionThen state rest
      match rest with
      | [] => .ok (.transition symbols action)
      | token :: _ => .error (.afterAction token)

/-- The tokens of a text. -/
def tokenize (text : List Char) : Except LineFault (List Token) :=
  match tokens? text with
  | some tokens => .ok tokens
  | none => .error .unclosedQuote

/-- The table line that a text forms in the block of a state, if one is open. -/
def readTableLine (text : List Char) (state : Option StateName) :
    Except LineFault TableLine := do
  readTokens (← tokenize text) state

/-- The one word or quoted text that a text consists of. -/
def singleValue (text : List Char) : Except LineFault String := do
  match ← tokenize text with
  | [.word value] => .ok value
  | [.quoted value] => .ok value
  | _ => .error .notOneValue

end TapeLab.Structured
