import TapeLab.Proofs.Structured.Token

/-!
# Every layout is read as its tokens

A layout is tokens one after another, each in one of its spellings, with blanks wherever one likes
and at least one between two words.  Layouts are the renderings (`Structured.isLayout_iff_renders`),
and every text is one or has a quote behind one that nothing closes (`Structured.scans`).  So the
tokens of a text are those that it is a layout of, and a text has none exactly if it leaves a quote
open (`Structured.tokens?_eq_iff_isLayout`).
-/

namespace TapeLab.Structured

open TapeLab.Text

variable {token : Token} {tokens : List Token} {text front gap piece : List Char}

/-- The token is a word. -/
def Token.isWord : Token → Bool
  | .word _ => true
  | _ => false

/-- A text is a way of writing one token. -/
inductive Spells : Token → List Char → Prop where
  | mark (sign : Mark) : Spells (.mark sign) [sign.char]
  | quoted {quote : Char} {body : List Char} (opens : isQuote quote = true)
      (inside : quote ∉ body) : Spells (.quoted (String.ofList body)) (quote :: body ++ [quote])
  | word {body : List Char} (nonempty : body ≠ []) (inside : ∀ c ∈ body, isWordChar c = true) :
      Spells (.word (String.ofList body)) body

/-- A text is tokens, each of them spelled, with blanks before, between and after them.  Where a
word follows a word there is a blank. -/
inductive IsLayout : List Token → List Char → Prop where
  | done {gap : List Char} (blank : AllBlank gap) : IsLayout [] gap
  | token {token : Token} {tokens : List Token} {gap piece text : List Char}
      (blank : AllBlank gap) (spells : Spells token piece) (later : IsLayout tokens text)
      (apart : token.isWord = true → tokens.head?.any Token.isWord = true →
        text.head?.any isBlank = true) :
      IsLayout (token :: tokens) (gap ++ piece ++ text)

/-! ### Layouts are renderings -/

/-- Blanks in front of a rendering belong to no token. -/
theorem Renders.blanks (blank : AllBlank gap) (renders : Renders tokens text) :
    Renders tokens (gap ++ text) := by
  induction gap with
  | nil => exact renders
  | cons c gap inductionHypothesis =>
      obtain ⟨white, later⟩ := List.forall_mem_cons.mp blank
      exact .blank white (inductionHypothesis later)

/-- A rendering that begins as a word does has a word for its first token. -/
theorem Renders.isWord_head {c : Char} {rest : List Char} (renders : Renders tokens (c :: rest))
    (isLetter : isWordChar c = true) : tokens.head?.any Token.isWord = true := by
  simp only [isWordChar, Bool.and_eq_true, Bool.not_eq_true', Option.isNone_iff_eq_none] at isLetter
  obtain ⟨⟨visible, unquoted⟩, unmarked⟩ := isLetter
  generalize shape : c :: rest = whole at renders
  cases renders with
  | done => cases shape
  | blank white later =>
      obtain ⟨rfl, -⟩ := List.cons.inj shape
      simp [white] at visible
  | @mark _ _ sign later =>
      obtain ⟨rfl, -⟩ := List.cons.inj shape
      simp [Mark.ofChar?_char] at unmarked
  | quoted opens inside later =>
      obtain ⟨rfl, -⟩ := List.cons.inj shape
      simp [opens] at unquoted
  | word nonempty inside ends later => rfl

/-- A layout whose first token is a word begins with a blank or a letter of the word. -/
theorem IsLayout.head_of_isWord (layout : IsLayout tokens text)
    (word : tokens.head?.any Token.isWord = true) :
    ∃ c rest, text = c :: rest ∧ (isBlank c = true ∨ isWordChar c = true) := by
  cases layout with
  | done => simp at word
  | @token token tokens gap piece text blank spells later apart =>
      cases gap with
      | cons c gap => exact ⟨c, gap ++ piece ++ text, rfl, .inl (blank c List.mem_cons_self)⟩
      | nil =>
          cases spells with
          | mark => simp [Token.isWord] at word
          | quoted => simp [Token.isWord] at word
          | word nonempty inside =>
              obtain ⟨c, letters, rfl⟩ := List.exists_cons_of_ne_nil nonempty
              exact ⟨c, letters ++ text, rfl, .inr (inside c List.mem_cons_self)⟩

/-- No blank is a letter of a word. -/
theorem isWordChar_of_isBlank {c : Char} (white : isBlank c = true) : isWordChar c = false := by
  simp [isWordChar, white]

/-- A token in front of a rendering renders, unless it is a word that goes on there. -/
theorem Spells.renders (spells : Spells token piece) (later : Renders tokens text)
    (ends : token.isWord = true → EndsWord text) : Renders (token :: tokens) (piece ++ text) := by
  cases spells with
  | mark sign => exact .mark later
  | quoted opens inside => simpa using Renders.quoted opens inside later
  | word nonempty inside => exact .word nonempty inside (ends rfl) later

/-- A layout renders its tokens: a word ends where the next token begins, since a word begins
after a blank only. -/
theorem IsLayout.renders (layout : IsLayout tokens text) : Renders tokens text := by
  induction layout with
  | done blank => simpa using Renders.blanks blank .done
  | @token token tokens gap piece text blank spells later apart inductionHypothesis =>
      rw [List.append_assoc]
      refine (spells.renders inductionHypothesis ?_).blanks blank
      rintro isWord c rest rfl
      cases isLetter : isWordChar c with
      | false => rfl
      | true =>
          have white : isBlank c = true := by
            simpa using apart isWord (inductionHypothesis.isWord_head isLetter)
          rw [isWordChar_of_isBlank white] at isLetter
          cases isLetter

/-- A blank more does no harm in front of a layout. -/
theorem IsLayout.blank {c : Char} (white : isBlank c = true) (layout : IsLayout tokens text) :
    IsLayout tokens (c :: text) := by
  cases layout with
  | done blank => exact .done (List.forall_mem_cons.mpr ⟨white, blank⟩)
  | token blank spells later apart =>
      exact .token (List.forall_mem_cons.mpr ⟨white, blank⟩) spells later apart

/-- A token in front of a layout needs no blank before it, unless both begin with words. -/
theorem IsLayout.cons (spells : Spells token piece) (later : IsLayout tokens text)
    (apart : token.isWord = true → tokens.head?.any Token.isWord = true →
      text.head?.any isBlank = true) : IsLayout (token :: tokens) (piece ++ text) :=
  .token (List.forall_mem_nil _) spells later apart

/-- A rendering is a layout: where a word follows a word, what ends the first is a blank. -/
theorem Renders.isLayout (renders : Renders tokens text) : IsLayout tokens text := by
  induction renders with
  | done => exact .done (List.forall_mem_nil _)
  | blank white _ inductionHypothesis => exact inductionHypothesis.blank white
  | @mark _ _ sign _ inductionHypothesis =>
      exact .cons (.mark sign) inductionHypothesis fun word => by cases word
  | quoted opens inside _ inductionHypothesis =>
      simpa using IsLayout.cons (.quoted opens inside) inductionHypothesis fun word => by cases word
  | word nonempty inside ends _ inductionHypothesis =>
      refine .cons (.word nonempty inside) inductionHypothesis fun _ isWord => ?_
      obtain ⟨c, rest, rfl, white | isLetter⟩ := inductionHypothesis.head_of_isWord isWord
      · simpa using white
      · simp [ends c rest rfl] at isLetter

/-- The layouts of tokens are their renderings. -/
theorem isLayout_iff_renders : IsLayout tokens text ↔ Renders tokens text :=
  ⟨IsLayout.renders, Renders.isLayout⟩

/-! ### What can be scanned -/

/-- A text is a rendering or leaves a quote open. -/
def Scans (text : List Char) : Prop :=
  (∃ tokens, Renders tokens text) ∨ LeavesQuoteOpen text

/-- A text can be scanned behind another one that can stand before each of its beginnings. -/
theorem Scans.append (piece : List Char) (scans : Scans text)
    (goesOn : ∀ tokens front, front <+: text → Renders tokens front →
      ∃ more, Renders more (piece ++ front)) : Scans (piece ++ text) := by
  rcases scans with ⟨tokens, renders⟩ | ⟨tokens, front, body, quote, renders, opens, unclosed, rfl⟩
  · exact .inl (goesOn tokens text (List.prefix_refl text) renders)
  · obtain ⟨more, rendersMore⟩ := goesOn tokens front (List.prefix_append front _) renders
    exact .inr ⟨more, piece ++ front, body, quote, rendersMore, opens, unclosed, by simp⟩

/-- Where a word ends, it ends in front of every beginning of the text. -/
theorem EndsWord.of_prefix (ends : EndsWord text) (begins : front <+: text) : EndsWord front := by
  rintro c rest rfl
  obtain ⟨after, rfl⟩ := begins
  exact ends c (rest ++ after) rfl

/-- Every text is a rendering or leaves a quote open. -/
theorem scans (text : List Char) : Scans text := by
  match text with
  | [] => exact .inl ⟨[], .done⟩
  | c :: rest =>
      by_cases white : isBlank c = true
      · exact (scans rest).append [c] fun tokens front _ renders =>
          ⟨tokens, .blank white renders⟩
      cases marked : Mark.ofChar? c with
      | some sign =>
          obtain rfl : sign.char = c := by simpa using List.find?_some marked
          exact (scans rest).append [sign.char] fun tokens front _ renders =>
            ⟨.mark sign :: tokens, .mark renders⟩
      | none =>
          by_cases opens : isQuote c = true
          · by_cases closed : c ∈ rest
            · obtain ⟨body, after, cut, inside⟩ := List.eq_append_cons_of_mem closed
              have shorter : after.length < rest.length := by
                simp only [cut, List.length_append, List.length_cons]
                omega
              have later := (scans after).append (c :: body ++ [c])
                fun tokens front _ renders =>
                  ⟨_, by simpa using Renders.quoted opens inside renders⟩
              simpa [cut] using later
            · exact .inr ⟨[], [], rest, c, .done, opens, closed, rfl⟩
          · -- A word, up to the first character that cannot belong to it.
            have inside : ∀ d ∈ c :: rest.takeWhile isWordChar, isWordChar d = true := by
              refine List.forall_mem_cons.mpr ⟨?_, List.all_eq_true.mp List.all_takeWhile⟩
              simp [isWordChar, white, opens, marked]
            have ends : EndsWord (rest.dropWhile isWordChar) := fun d later same => by
              have stopped := List.head?_dropWhile_not isWordChar rest
              simpa [same] using stopped
            have shorter := length_dropWhile_le isWordChar rest
            have later := (scans (rest.dropWhile isWordChar)).append
              (c :: rest.takeWhile isWordChar) fun tokens front begins renders =>
                ⟨_, .word (List.cons_ne_nil _ _) inside (ends.of_prefix begins) renders⟩
            rwa [List.cons_append, List.takeWhile_append_dropWhile] at later
termination_by text.length
decreasing_by all_goals simp only [List.length_cons]; omega

/-- A quote that nothing closes has no tokens. -/
theorem tokens?_unclosed {quote : Char} {body : List Char} (opens : isQuote quote = true)
    (unclosed : quote ∉ body) : tokens? (quote :: body) = none := by
  obtain ⟨visible, unmarked⟩ := isBlank_of_isQuote opens
  have unsplit : splitAtChar? quote body = none := by
    induction body with
    | nil => rfl
    | cons c body inductionHypothesis =>
        rw [List.mem_cons, not_or] at unclosed
        obtain ⟨differs, later⟩ := unclosed
        simp [splitAtChar?, Ne.symm differs, inductionHypothesis later]
  simp [tokens?_cons, visible, unmarked, opens, unsplit]

/-- What stands behind a rendering, and cannot go on a word, is scanned by itself. -/
theorem Renders.tokens?_append (renders : Renders tokens front) (ends : EndsWord text) :
    tokens? (front ++ text) = (tokens? text).map (tokens ++ ·) := by
  induction renders with
  | done => simp
  | blank white _ inductionHypothesis =>
      rw [List.cons_append, tokens?_cons, if_pos white, inductionHypothesis]
  | mark _ inductionHypothesis =>
      simp [tokens?_cons, Mark.ofChar?_char, inductionHypothesis, Function.comp_def]
  | @quoted tokens later body quote opens inside _ inductionHypothesis =>
      have cut : quote :: body ++ quote :: later ++ text =
          quote :: (body ++ quote :: (later ++ text)) := by simp
      rw [cut, tokens?_quoted opens inside, inductionHypothesis, Option.map_map]
      rfl
  | @word tokens later body nonempty inside endsHere _ inductionHypothesis =>
      have endsBehind : EndsWord (later ++ text) := by
        cases later with
        | nil => exact ends
        | cons c later =>
            rintro d rest same
            obtain ⟨rfl, -⟩ := List.cons.inj same
            exact endsHere c later rfl
      rw [List.append_assoc, tokens?_word nonempty inside endsBehind, inductionHypothesis,
        Option.map_map]
      rfl

/-- A text that leaves a quote open has no tokens. -/
theorem LeavesQuoteOpen.tokens?_eq_none (leaves : LeavesQuoteOpen text) : tokens? text = none := by
  obtain ⟨tokens, front, body, quote, renders, opens, unclosed, rfl⟩ := leaves
  have ends : EndsWord (quote :: body) := by
    rintro c rest same
    obtain ⟨rfl, -⟩ := List.cons.inj same
    simp [isWordChar, opens]
  rw [renders.tokens?_append ends, tokens?_unclosed opens unclosed]
  rfl

/-- Scanning undoes every layout and accepts nothing else: the tokens of a text are those that it
is a layout of.  It fails exactly on a layout with a quote behind it that the same character never
closes. -/
theorem tokens?_eq_iff_isLayout (text : List Char) :
    (∀ tokens, tokens? text = some tokens ↔ IsLayout tokens text) ∧
      (tokens? text = none ↔ ∃ tokens front quote body, IsLayout tokens front ∧
        isQuote quote = true ∧ quote ∉ body ∧ text = front ++ quote :: body) := by
  have leavesOpen : LeavesQuoteOpen text ↔ ∃ tokens front quote body, IsLayout tokens front ∧
      isQuote quote = true ∧ quote ∉ body ∧ text = front ++ quote :: body := by
    simp only [isLayout_iff_renders]
    constructor
    · rintro ⟨tokens, front, body, quote, leaves⟩
      exact ⟨tokens, front, quote, body, leaves⟩
    · rintro ⟨tokens, front, quote, body, leaves⟩
      exact ⟨tokens, front, body, quote, leaves⟩
  rw [← leavesOpen]
  simp only [isLayout_iff_renders]
  refine ⟨fun tokens => ⟨fun read => ?_, tokens?_of_renders⟩, ⟨fun unread => ?_, ?_⟩⟩
  · rcases scans text with ⟨others, renders⟩ | leaves
    · obtain rfl : others = tokens := Option.some.inj ((tokens?_of_renders renders).symm.trans read)
      exact renders
    · simp [leaves.tokens?_eq_none] at read
  · rcases scans text with ⟨tokens, renders⟩ | leaves
    · simp [tokens?_of_renders renders] at unread
    · exact leaves
  · exact LeavesQuoteOpen.tokens?_eq_none

end TapeLab.Structured
