import TapeLab.Proofs.Structured.Relabelling
import TapeLab.Proofs.Structured.Token
import TapeLab.Proofs.Text.Trimming

/-!
# Comments behind structured lines

A text can be cut into tokens exactly if no quote is left open at its end
(`Structured.isSome_tokens?_iff`), and open quotes are what keeps a hash from opening a comment.
So a comment behind a line that can be cut into tokens is cut off, with the blanks before it
(`Structured.stripComment_trailing`), and lines of which the same is left are read alike
(`Structured.readLines_congr`).
-/

namespace TapeLab.Structured

open TapeLab.Text

variable {quote : Option Char} {atWordStart : Bool} {text blanks : List Char}

/-- The quote that is open after a character, if `quote` is the one that is open before it. -/
def quoteAfter (quote : Option Char) (c : Char) : Option Char :=
  match quote with
  | some opened => if c == opened then none else some opened
  | none => if isQuote c then some c else none

/-- The quote that is open after a text. -/
def openQuote (quote : Option Char) (text : List Char) : Option Char :=
  text.foldl quoteAfter quote

/-- A quote stays open up to the next one of its kind. -/
theorem openQuote_some (opened : Char) (text : List Char) :
    openQuote (some opened) text =
      match splitAtChar? opened text with
      | some (_, after) => openQuote none after
      | none => some opened := by
  induction text with
  | nil => rfl
  | cons c rest inductionHypothesis =>
      simp only [openQuote] at inductionHypothesis
      by_cases closes : (c == opened) = true
      · simp [openQuote, quoteAfter, splitAtChar?, closes]
      · simp only [openQuote, List.foldl_cons, quoteAfter, splitAtChar?, closes,
          Bool.false_eq_true, if_false, inductionHypothesis]
        cases splitAtChar? opened rest <;> rfl

/-- A character that is no quote opens none. -/
theorem openQuote_cons_of_not {c : Char} (unquoted : isQuote c = false) (rest : List Char) :
    openQuote none (c :: rest) = openQuote none rest := by
  simp [openQuote, quoteAfter, unquoted]

/-- A quote is open after its first character. -/
theorem openQuote_cons_of_isQuote {c : Char} (quotes : isQuote c = true) (rest : List Char) :
    openQuote none (c :: rest) = openQuote (some c) rest := by
  simp [openQuote, quoteAfter, quotes]

/-- A word opens no quote. -/
theorem openQuote_dropWhile (text : List Char) :
    openQuote none (text.dropWhile isWordChar) = openQuote none text := by
  induction text with
  | nil => rfl
  | cons c rest inductionHypothesis =>
      rw [List.dropWhile_cons]
      split
      · next inside =>
        rw [inductionHypothesis, openQuote_cons_of_not (isQuote_of_isWordChar inside)]
      · rfl

/-- A mark is no quote. -/
theorem isQuote_of_ofChar? {c : Char} {sign : Mark} (marks : Mark.ofChar? c = some sign) :
    isQuote c = false := by
  cases quotes : isQuote c with
  | false => rfl
  | true => rw [(isBlank_of_isQuote quotes).2] at marks; cases marks

/-- A text can be cut into tokens exactly if no quote is open at its end. -/
theorem isSome_tokens?_iff (text : List Char) :
    (tokens? text).isSome = true ↔ openQuote none text = none := by
  -- After each token no quote is open; only a quote that is never closed leaves no token to go on
  -- from, and it is open at the end.
  fun_induction tokens? text with
  | case1 => simp [openQuote]
  | case2 c rest white inductionHypothesis =>
      rw [inductionHypothesis, openQuote_cons_of_not (isQuote_of_isBlank white)]
  | case3 c rest _ sign marks inductionHypothesis =>
      rw [Option.isSome_map, inductionHypothesis, openQuote_cons_of_not (isQuote_of_ofChar? marks)]
  | case4 c rest _ _ quotes unclosed =>
      simp [openQuote_cons_of_isQuote quotes, openQuote_some, unclosed]
  | case5 c rest _ _ quotes body after closed inductionHypothesis =>
      rw [Option.isSome_map, inductionHypothesis, openQuote_cons_of_isQuote quotes, openQuote_some,
        closed]
  | case6 c rest _ _ unquoted inductionHypothesis =>
      rw [Option.isSome_map, inductionHypothesis, openQuote_dropWhile,
        openQuote_cons_of_not (by simpa using unquoted)]

/-- Quotes are followed in the search for a comment as they are in cutting into tokens. -/
theorem beforeComment?_step (quote : Option Char) (atWordStart : Bool) (c : Char)
    (rest : List Char) :
    beforeComment? quote atWordStart (c :: rest) =
      if quote = none ∧ c = '#' ∧ atWordStart = true then some []
      else (beforeComment? (quoteAfter quote c) (isBlank c) rest).map (c :: ·) := by
  cases quote with
  | some opened => simp [beforeComment?, quoteAfter]
  | none =>
      by_cases quotes : isQuote c = true
      · have notHash : c ≠ '#' := by rintro rfl; simp [isQuote] at quotes
        simp [beforeComment?, quoteAfter, quotes, notHash]
      · simp [beforeComment?, quoteAfter, quotes]

/-- A comment that is found is found whatever follows. -/
theorem beforeComment?_append_of_some {before : List Char}
    (found : beforeComment? quote atWordStart text = some before) (rest : List Char) :
    beforeComment? quote atWordStart (text ++ rest) = some before := by
  induction text generalizing quote atWordStart before with
  | nil => cases found
  | cons c text inductionHypothesis =>
      rw [beforeComment?_step] at found
      rw [List.cons_append, beforeComment?_step]
      split at found
      · next opens => rw [if_pos opens, found]
      · next goesOn =>
        obtain ⟨later, foundLater, rfl⟩ := Option.map_eq_some_iff.mp found
        rw [if_neg goesOn, inductionHypothesis foundLater]
        rfl

/-- What stands before a comment begins the text. -/
theorem prefix_of_beforeComment? {before : List Char}
    (found : beforeComment? quote atWordStart text = some before) : before <+: text := by
  induction text generalizing quote atWordStart before with
  | nil => cases found
  | cons c text inductionHypothesis =>
      rw [beforeComment?_step] at found
      split at found
      · cases found
        exact List.nil_prefix
      · obtain ⟨later, foundLater, rfl⟩ := Option.map_eq_some_iff.mp found
        exact List.cons_prefix_cons.mpr ⟨rfl, inductionHypothesis foundLater⟩

/-- What is left of a line without its comment begins the line. -/
theorem stripComment_begins (line : List Char) : stripComment line <+: line := by
  rw [stripComment]
  split
  · next content found =>
    obtain ⟨after, -, cut⟩ := exists_trimEnd content
    have begins : trimEnd content <+: content := ⟨after, cut.symm⟩
    exact begins.trans (prefix_of_beforeComment? found)
  · exact List.prefix_refl line

/-- A hash behind blanks opens a comment. -/
theorem beforeComment?_blanks (blank : AllBlank blanks)
    (begins : atWordStart = true ∨ blanks ≠ []) (comment : List Char) :
    beforeComment? none atWordStart (blanks ++ '#' :: comment) = some blanks := by
  induction blanks generalizing atWordStart with
  | nil =>
      have wordStart : atWordStart = true := begins.resolve_right fun something => something rfl
      rw [List.nil_append, beforeComment?_step, if_pos ⟨rfl, rfl, wordStart⟩]
  | cons c blanks inductionHypothesis =>
      obtain ⟨white, blankRest⟩ := List.forall_mem_cons.mp blank
      have later := @inductionHypothesis (isBlank c) blankRest (Or.inl white)
      rw [List.cons_append, beforeComment?_cons (isQuote_of_isBlank white) (ne_hash_of_isBlank white),
        later]
      rfl

/-- So it does behind a text without a comment, if no quote is left open there. -/
theorem beforeComment?_trailing (plain : beforeComment? quote atWordStart text = none)
    (closed : openQuote quote text = none) (blank : AllBlank blanks) (parted : blanks ≠ [])
    (comment : List Char) :
    beforeComment? quote atWordStart (text ++ (blanks ++ '#' :: comment)) =
      some (text ++ blanks) := by
  induction text generalizing quote atWordStart with
  | nil =>
      obtain rfl : quote = none := closed
      exact beforeComment?_blanks blank (.inr parted) comment
  | cons c text inductionHypothesis =>
      rw [beforeComment?_step] at plain
      split at plain
      · cases plain
      · next goesOn =>
        have later := inductionHypothesis (Option.map_eq_none_iff.mp plain) closed
        rw [List.cons_append, beforeComment?_step, if_neg goesOn, later]
        rfl

/-- A comment behind a line is cut off, if the line without it can be cut into tokens. -/
theorem stripComment_trailing {raw : List Char}
    (cut : (tokens? (stripComment (trim raw))).isSome = true) (comment : List Char) :
    stripComment (trim (raw ++ ' ' :: '#' :: comment)) = stripComment (trim raw) := by
  obtain ⟨blanks, blank, parted, trimmed⟩ :=
    trim_append_visible (by decide : isBlank '#' = false) raw comment
  rw [trimmed]
  by_cases nothing : trim raw = []
  · rw [nothing, parted.mp nothing]
    rfl
  · cases found : beforeComment? none true (trim raw) with
    | some before => simp only [stripComment, found, beforeComment?_append_of_some found]
    | none =>
        have whole : stripComment (trim raw) = trim raw := by simp only [stripComment, found]
        have closed : openQuote none (trim raw) = none :=
          (isSome_tokens?_iff (trim raw)).mp (by rwa [whole] at cut)
        have trailing := beforeComment?_trailing found closed blank (mt parted.mpr nothing)
          (trimEnd comment)
        have ends : trimEnd (trim raw) = trim raw :=
          trimEnd_eq_self fun _ last => isBlank_getLast_trimEnd last
        simp only [stripComment, found, trailing, trimEnd_append blank, ends]

/-- Lines of which the same is left without their comments are read alike, but for their texts. -/
theorem readLines_congr {first second : List (Nat × List Char)}
    (same : first.map (fun part => (part.1, stripComment (trim part.2))) =
      second.map fun part => (part.1, stripComment (trim part.2)))
    (current : Option StateName) :
    (readLines current first).map (SourceLine.relabelled .unquoted) =
      (readLines current second).map (SourceLine.relabelled .unquoted) := by
  induction first generalizing second current with
  | nil =>
      obtain rfl : second = [] := by simpa using same.symm
      rfl
  | cons part first inductionHypothesis =>
      cases second with
      | nil => cases same
      | cons other second =>
          obtain ⟨here, later⟩ := List.cons.inj same
          obtain ⟨number, content⟩ := Prod.mk.inj here
          simp only [readLines, List.map_cons, number, content, inductionHypothesis later]
          rfl

end TapeLab.Structured
