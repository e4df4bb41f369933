import TapeLab.Proofs.Text.Trimming
import TapeLab.Structured.Rendering

/-!
# Reading what was rendered

The tokens of a text are the tokens that it renders (`Structured.tokens?_of_renders`).  A
hash in quotes opens no comment, so a rendering has none unless a hash stands in one of
its words (`Structured.stripComment_of_renders`).
-/

namespace TapeLab.Structured

open TapeLab.Text

variable {tokens : List Token} {text body rest : List Char} {quote : Char}

/-- No blank is a mark. -/
@[simp]
theorem isBlank_markChar (sign : Mark) : isBlank sign.char = false := by
  cases sign <;> decide

/-- No mark is a quote. -/
@[simp]
theorem isQuote_markChar (sign : Mark) : isQuote sign.char = false := by
  cases sign <;> decide

/-- No mark is a hash. -/
@[simp]
theorem markChar_ne_hash (sign : Mark) : sign.char ≠ '#' := by
  cases sign <;> decide

/-- There are two quotes. -/
theorem isQuote_iff : isQuote quote = true ↔ quote = '\'' ∨ quote = '"' := by
  simp [isQuote]

/-- A quote is neither blank nor a mark. -/
theorem isBlank_of_isQuote (opens : isQuote quote = true) :
    isBlank quote = false ∧ Mark.ofChar? quote = none := by
  rcases isQuote_iff.mp opens with rfl | rfl <;> decide

/-- A blank is not a quote. -/
theorem isQuote_of_isBlank {c : Char} (white : isBlank c = true) : isQuote c = false := by
  cases opens : isQuote c with
  | false => rfl
  | true => simp [(isBlank_of_isQuote opens).1] at white

/-- A quoted text ends at the first quote of its own. -/
theorem splitAtChar?_append (inside : quote ∉ body) :
    splitAtChar? quote (body ++ quote :: rest) = some (body, rest) := by
  induction body with
  | nil => simp [splitAtChar?]
  | cons c body inductionHypothesis =>
      have differs : c ≠ quote := fun same => inside (same ▸ List.mem_cons_self)
      have later := inductionHypothesis fun member => inside (List.mem_cons_of_mem c member)
      simp [splitAtChar?, differs, later]

/-- A word goes on to the first character that cannot belong to it. -/
theorem span_append (inside : ∀ c ∈ body, isWordChar c = true) (ends : EndsWord rest) :
    (body ++ rest).takeWhile isWordChar = body ∧ (body ++ rest).dropWhile isWordChar = rest := by
  have stops : rest.takeWhile isWordChar = [] ∧ rest.dropWhile isWordChar = rest := by
    cases rest with
    | nil => simp
    | cons c rest => simp [ends c rest rfl]
  rw [List.takeWhile_append_of_pos inside, List.dropWhile_append_of_pos inside, stops.1, stops.2]
  simp

/-- The tokens of a text by its first character. -/
theorem tokens?_cons (c : Char) (rest : List Char) :
    tokens? (c :: rest) =
      if isBlank c then tokens? rest
      else
        match Mark.ofChar? c with
        | some mark => (tokens? rest).map (.mark mark :: ·)
        | none =>
          if isQuote c then
            (splitAtChar? c rest).bind fun parts =>
              (tokens? parts.2).map (.quoted (String.ofList parts.1) :: ·)
          else
            (tokens? (rest.dropWhile isWordChar)).map
              (.word (String.ofList (c :: rest.takeWhile isWordChar)) :: ·) := by
  rw [tokens?.eq_def]
  dsimp only
  congr 2
  funext _
  congr 1
  split <;> next found => simp [found]

/-- The tokens of a text that begins with a quoted symbol. -/
theorem tokens?_quoted (opens : isQuote quote = true) (inside : quote ∉ body) :
    tokens? (quote :: (body ++ quote :: rest)) =
      (tokens? rest).map (.quoted (String.ofList body) :: ·) := by
  obtain ⟨visible, unmarked⟩ := isBlank_of_isQuote opens
  simp [tokens?_cons, visible, unmarked, opens, splitAtChar?_append inside]

/-- The tokens of a text that begins with a word. -/
theorem tokens?_word (nonempty : body ≠ []) (inside : ∀ c ∈ body, isWordChar c = true)
    (ends : EndsWord rest) :
    tokens? (body ++ rest) = (tokens? rest).map (.word (String.ofList body) :: ·) := by
  obtain ⟨c, letters, rfl⟩ := List.exists_cons_of_ne_nil nonempty
  have first : isWordChar c = true := inside c List.mem_cons_self
  simp only [isWordChar, Bool.and_eq_true, Bool.not_eq_true', Option.isNone_iff_eq_none] at first
  obtain ⟨⟨visible, unquoted⟩, unmarked⟩ := first
  obtain ⟨taken, dropped⟩ := span_append
    (fun d member => inside d (List.mem_cons_of_mem c member)) ends
  simp [tokens?_cons, visible, unquoted, unmarked, taken, dropped]

/-- The tokens of a text are those that it renders. -/
theorem tokens?_of_renders (renders : Renders tokens text) : tokens? text = some tokens := by
  induction renders with
  | done => rw [tokens?.eq_def]
  | blank white _ inductionHypothesis => rw [tokens?_cons, if_pos white, inductionHypothesis]
  | mark _ inductionHypothesis => simp [tokens?_cons, Mark.ofChar?_char, inductionHypothesis]
  | quoted opens inside _ inductionHypothesis =>
      rw [List.cons_append, tokens?_quoted opens inside, inductionHypothesis]
      rfl
  | word nonempty inside ends _ inductionHypothesis =>
      rw [tokens?_word nonempty inside ends, inductionHypothesis]
      rfl

/-- Nothing that stands in quotes opens a comment. -/
theorem beforeComment?_quoted (inside : quote ∉ body) (atWordStart : Bool) :
    beforeComment? (some quote) atWordStart (body ++ quote :: rest) =
      (beforeComment? none (isBlank quote) rest).map (body ++ [quote] ++ ·) := by
  induction body generalizing atWordStart with
  | nil => simp [beforeComment?]
  | cons c body inductionHypothesis =>
      have differs : c ≠ quote := fun same => inside (same ▸ List.mem_cons_self)
      have later := inductionHypothesis fun member => inside (List.mem_cons_of_mem c member)
      simp [beforeComment?, differs, later, Function.comp_def]

/-- A character that is neither a quote nor a hash opens no comment. -/
theorem beforeComment?_cons {c : Char} (unquoted : isQuote c = false) (noHash : c ≠ '#')
    (atWordStart : Bool) :
    beforeComment? none atWordStart (c :: rest) =
      (beforeComment? none (isBlank c) rest).map (c :: ·) := by
  simp [beforeComment?, unquoted, noHash]

/-- A text without quotes and hashes opens no comment. -/
theorem beforeComment?_plain {front : List Char}
    (plain : ∀ c ∈ front, isQuote c = false ∧ c ≠ '#')
    (later : ∀ atWordStart, beforeComment? none atWordStart rest = none) (atWordStart : Bool) :
    beforeComment? none atWordStart (front ++ rest) = none := by
  induction front generalizing atWordStart with
  | nil => exact later atWordStart
  | cons c front inductionHypothesis =>
      obtain ⟨unquoted, noHash⟩ := plain c List.mem_cons_self
      rw [List.cons_append, beforeComment?_cons unquoted noHash,
        inductionHypothesis fun d member => plain d (List.mem_cons_of_mem c member)]
      rfl

/-- A character of a word is no quote. -/
theorem isQuote_of_isWordChar {c : Char} (isLetter : isWordChar c = true) : isQuote c = false := by
  simp only [isWordChar, Bool.and_eq_true, Bool.not_eq_true'] at isLetter
  exact isLetter.1.2

/-- A rendering of words without hashes has no comment. -/
theorem beforeComment?_of_renders (renders : Renders tokens text)
    (noHash : ∀ word, .word word ∈ tokens → '#' ∉ word.toList) (atWordStart : Bool) :
    beforeComment? none atWordStart text = none := by
  induction renders generalizing atWordStart with
  | done => rfl
  | blank white _ inductionHypothesis =>
      rw [beforeComment?_cons (isQuote_of_isBlank white) (ne_hash_of_isBlank white),
        inductionHypothesis noHash]
      rfl
  | mark _ inductionHypothesis =>
      rw [beforeComment?_cons (isQuote_markChar _) (markChar_ne_hash _),
        inductionHypothesis fun word member => noHash word (List.mem_cons_of_mem _ member)]
      rfl
  | quoted opens inside _ inductionHypothesis =>
      have rest := inductionHypothesis fun word member => noHash word (List.mem_cons_of_mem _ member)
      simp [beforeComment?, opens, beforeComment?_quoted inside, rest]
  | word _ inside _ _ inductionHypothesis =>
      have unhashed := noHash _ List.mem_cons_self
      rw [String.toList_ofList] at unhashed
      refine beforeComment?_plain (fun c member => ⟨isQuote_of_isWordChar (inside c member), ?_⟩)
        (inductionHypothesis fun word member => noHash word (List.mem_cons_of_mem _ member)) _
      exact fun same => unhashed (same ▸ member)

/-- A rendering of words without hashes is a whole line. -/
theorem stripComment_of_renders (renders : Renders tokens text)
    (noHash : ∀ word, .word word ∈ tokens → '#' ∉ word.toList) : stripComment text = text := by
  rw [stripComment, beforeComment?_of_renders renders noHash]

end TapeLab.Structured
