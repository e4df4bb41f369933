import TapeLab.Structured.Line

/-!
# The grammar of table lines

What a header and a transition are, as lists of tokens and without a reader.  The
meaning of the entries in braces is a separate matter: exactly one of them is a move,
and every other one is a write with its symbol.
-/

namespace TapeLab.Structured

/-- Tokens that list symbols, with commas between them. -/
inductive SymbolList : List Token → List Symbol → Prop where
  | last {token : Token} {symbol : Symbol} (named : token.symbol? = some symbol) :
      SymbolList [token] [symbol]
  | more {token : Token} {symbol : Symbol} {tokens : List Token} {symbols : List Symbol}
      (named : token.symbol? = some symbol) (later : SymbolList tokens symbols) :
      SymbolList (token :: .mark .comma :: tokens) (symbol :: symbols)

/-- Tokens that are the key of a transition: a symbol, or a list of them in brackets. -/
inductive IsKey : List Token → List Symbol → Prop where
  | single {token : Token} {symbol : Symbol} (named : token.symbol? = some symbol) :
      IsKey [token] [symbol]
  | listed {tokens : List Token} {symbols : List Symbol} (list : SymbolList tokens symbols) :
      IsKey (.mark .openBracket :: tokens ++ [.mark .closeBracket]) symbols

/-- Tokens that are one entry of an action. -/
inductive IsEntry : List Token → Entry → Prop where
  | bare (name : String) : IsEntry [.word name] ⟨name, none⟩
  | valued {token : Token} {symbol : Symbol} (name : String)
      (named : token.symbol? = some symbol) :
      IsEntry [.word name, .mark .colon, token] ⟨name, some symbol⟩

/-- Tokens that are entries, with commas between them. -/
inductive EntryList : List Token → List Entry → Prop where
  | last {tokens : List Token} {entry : Entry} (single : IsEntry tokens entry) :
      EntryList tokens [entry]
  | more {front tokens : List Token} {entry : Entry} {entries : List Entry}
      (first : IsEntry front entry) (later : EntryList tokens entries) :
      EntryList (front ++ .mark .comma :: tokens) (entry :: entries)

/-- Entries that make up an action in a state: one is the move, the others write, and
the last of those counts.  The move may name the next state. -/
structure MakesAction (state : StateName) (entries : List Entry) (action : Action) : Prop where
  oneMove : ∃ before entry after, entries = before ++ entry :: after ∧
    moveOfWord? entry.name = some action.move ∧
    (∀ other ∈ before ++ after, moveOfWord? other.name = none) ∧
    action.next = (entry.value.filter fun next => !next.isEmpty).getD state
  writes : ∀ entry ∈ entries, moveOfWord? entry.name = none →
    entry.name = writeWord ∧ entry.value.isSome = true
  write : action.write =
    ((entries.filter fun entry => entry.name == writeWord).getLast?).bind Entry.value

/-- Tokens that are an action in a state: a move by itself, or entries in braces. -/
inductive IsAction (state : StateName) : List Token → Action → Prop where
  | bare {name : String} {move : Move} (named : moveOfWord? name = some move) :
      IsAction state [.word name] ⟨none, move, state⟩
  | braced {tokens : List Token} {entries : List Entry} {action : Action}
      (list : EntryList tokens entries) (made : MakesAction state entries action) :
      IsAction state (.mark .openBrace :: tokens ++ [.mark .closeBrace]) action

/-- Tokens that are a table line in the block of a state, if one is open. -/
inductive IsTableLine : Option StateName → List Token → TableLine → Prop where
  | header {current : Option StateName} {token : Token} {name : StateName}
      (named : token.symbol? = some name) :
      IsTableLine current [token, .mark .colon] (.header name)
  | transition {state : StateName} {key rest : List Token} {symbols : List Symbol}
      {action : Action} (isKey : IsKey key symbols) (isAction : IsAction state rest action) :
      IsTableLine (some state) (key ++ .mark .colon :: rest) (.transition symbols action)

end TapeLab.Structured
