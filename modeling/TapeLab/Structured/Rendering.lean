import TapeLab.Structured.Token

/-!
# Renderings of tokens

The texts that a list of tokens can be written as: blanks may stand anywhere between
tokens, a quoted symbol stands between two quotes that it does not contain, and a word
must end before anything that could still belong to it.
-/

namespace TapeLab.Structured

open TapeLab.Text

/-- A text at the front of which no word can go on. -/
def EndsWord (text : List Char) : Prop :=
  ∀ c rest, text = c :: rest → isWordChar c = false

/-- A text is a way of writing a list of tokens. -/
inductive Renders : List Token → List Char → Prop where
  | done : Renders [] []
  | blank {tokens : List Token} {text : List Char} {c : Char}
      (white : isBlank c = true) (later : Renders tokens text) :
      Renders tokens (c :: text)
  | mark {tokens : List Token} {text : List Char} {sign : Mark}
      (later : Renders tokens text) :
      Renders (.mark sign :: tokens) (sign.char :: text)
  | quoted {tokens : List Token} {text body : List Char} {quote : Char}
      (opens : isQuote quote = true) (inside : quote ∉ body) (later : Renders tokens text) :
      Renders (.quoted (String.ofList body) :: tokens) (quote :: body ++ quote :: text)
  | word {tokens : List Token} {text body : List Char}
      (nonempty : body ≠ []) (inside : ∀ c ∈ body, isWordChar c = true)
      (ends : EndsWord text) (later : Renders tokens text) :
      Renders (.word (String.ofList body) :: tokens) (body ++ text)

/-- A text whose last quote is never closed: some tokens, and then a quote that does
not occur again. -/
def LeavesQuoteOpen (text : List Char) : Prop :=
  ∃ tokens front body quote,
    Renders tokens front ∧ isQuote quote = true ∧ quote ∉ body ∧ text = front ++ quote :: body

end TapeLab.Structured
