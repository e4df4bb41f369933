import TapeLab.Classic.Comment
import TapeLab.Proofs.Classic.RuleLine

/-!
# Which hashes open a comment

A text is kept whole exactly if every hash at the start of one of its words is followed
by the end of a field (`Classic.beforeComment_eq_self_iff`).  What is left of a line after
its comment was cut is kept whole if it is read again (`Classic.beforeComment_stripComment`),
and inside a field only its last character can be such a hash
(`Classic.IsField.eq_nil_of_endsField`).  A comment behind a line is cut off, unless it begins
with a separator and so makes a field of its hash (`Classic.stripComment_trailing`).
-/

namespace TapeLab.Classic

open TapeLab.Text

variable {atWordStart : Bool} {text : List Char}

/-- Whether a word may begin after a text; `atWordStart` says whether it may begin before. -/
def wordMayBegin (atWordStart : Bool) (before : List Char) : Bool :=
  (before.getLast?.map isBlank).getD atWordStart

@[simp]
theorem wordMayBegin_nil : wordMayBegin atWordStart [] = atWordStart :=
  rfl

@[simp]
theorem wordMayBegin_cons {c : Char} {before : List Char} :
    wordMayBegin atWordStart (c :: before) = wordMayBegin (isBlank c) before := by
  cases before <;> simp [wordMayBegin, List.getLast?_cons]

/-- What counts is what was read last. -/
theorem wordMayBegin_append {before after : List Char} :
    wordMayBegin atWordStart (before ++ after) =
      wordMayBegin (wordMayBegin atWordStart before) after := by
  induction before generalizing atWordStart with
  | nil => rfl
  | cons c before inductionHypothesis => simp [inductionHypothesis]

/-- A word may begin after blanks, as it could before them. -/
theorem wordMayBegin_of_allBlank {blanks : List Char} (blank : AllBlank blanks)
    (begins : atWordStart = true) : wordMayBegin atWordStart blanks = true := by
  induction blanks generalizing atWordStart with
  | nil => exact begins
  | cons c rest inductionHypothesis =>
      rw [wordMayBegin_cons]
      exact inductionHypothesis (fun d member => blank d (List.mem_cons_of_mem c member))
        (blank c List.mem_cons_self)

/-- Blanks before the end of a field do not count. -/
theorem endsField_cons_of_blank {c : Char} (blank : isBlank c = true) :
    endsField (c :: text) = endsField text := by
  simp [endsField, trimStart, blank]

/-- A field ends with a comma or an arrow. -/
theorem endsField_cons_of_visible {c : Char} (visible : isBlank c = false) :
    endsField (c :: text) = (c == ',' || (c == '-' && text.head? == some '>')) := by
  simp [endsField, trimStart, visible]

/-- A comment that is cut off does not take the end of a field with it. -/
theorem endsField_beforeComment (ends : endsField text = true) (atWordStart : Bool) :
    endsField (beforeComment atWordStart text) = true := by
  induction text generalizing atWordStart with
  | nil => simp [endsField, trimStart] at ends
  | cons c rest inductionHypothesis =>
      cases blank : isBlank c with
      | true =>
          have notHash : c ≠ '#' := ne_hash_of_isBlank blank
          rw [endsField_cons_of_blank blank] at ends
          simp [beforeComment, notHash, endsField_cons_of_blank blank,
            inductionHypothesis ends]
      | false =>
          rw [endsField_cons_of_visible blank] at ends
          rcases Bool.or_eq_true_iff.mp ends with comma | arrow
          · have same : c = ',' := by simpa using comma
            subst same
            simp [beforeComment, endsField_cons_of_visible blank]
          · simp only [Bool.and_eq_true, beq_iff_eq] at arrow
            obtain ⟨rfl, point⟩ := arrow
            obtain ⟨after, rfl⟩ := List.head?_eq_some_iff.mp point
            simp [beforeComment, endsField_cons_of_visible blank]

/-- Blanks at the end of a text cannot end a field. -/
theorem endsField_of_append {blanks : List Char} (blank : AllBlank blanks)
    (ends : endsField (text ++ blanks) = true) : endsField text = true := by
  induction text with
  | nil =>
      have nothing : trimStart blanks = [] := trimStart_eq_nil_iff.mpr blank
      simp [endsField, nothing] at ends
  | cons c rest inductionHypothesis =>
      cases here : isBlank c with
      | true =>
          rw [List.cons_append, endsField_cons_of_blank here] at ends
          rw [endsField_cons_of_blank here]
          exact inductionHypothesis ends
      | false =>
          rw [List.cons_append, endsField_cons_of_visible here] at ends
          rw [endsField_cons_of_visible here]
          cases rest with
          | cons d rest => exact ends
          | nil =>
              have noPoint : blanks.head? ≠ some '>' := fun point =>
                notMem_of_allBlank (by decide) blank (List.mem_of_head? point)
              simpa [noPoint] using ends

/-- A text without commas and arrows whose last character is visible does not begin with the
end of a field. -/
theorem eq_nil_of_endsField {trailing : List Char}
    (lastVisible : ∀ d ∈ text.getLast?, isBlank d = false) (noComma : ',' ∉ text)
    (arrowless : Arrowless text) (apart : trailing.head? ≠ some '>')
    (ends : endsField (text ++ trailing) = true) : text = [] := by
  induction text with
  | nil => rfl
  | cons d rest inductionHypothesis =>
      exfalso
      obtain ⟨notHere, restArrowless⟩ := arrowless_cons_iff.mp arrowless
      rw [List.cons_append] at ends
      cases here : isBlank d with
      | true =>
          rw [endsField_cons_of_blank here] at ends
          cases rest with
          | nil => simp [lastVisible d rfl] at here
          | cons e rest =>
              have empty := inductionHypothesis (by simpa [List.getLast?_cons] using lastVisible)
                (fun member => noComma (List.mem_cons_of_mem d member)) restArrowless ends
              cases empty
      | false =>
          rw [endsField_cons_of_visible here] at ends
          have notComma : d ≠ ',' := by rintro rfl; simp at noComma
          cases rest with
          | nil => simp [notComma, apart] at ends
          | cons e rest => simp [notComma] at ends; exact notHere ⟨ends.1, by simp [ends.2]⟩

/-- No field ends before the last character of a field. -/
theorem IsField.eq_nil_of_endsField {field before after trailing : List Char} {c : Char}
    (isField : IsField field) (cut : field = before ++ c :: after)
    (apart : trailing.head? ≠ some '>') (ends : endsField (after ++ trailing) = true) :
    after = [] := by
  have lastVisible : ∀ d ∈ after.getLast?, isBlank d = false := by
    intro d last
    apply (trim_eq_self_iff.mp isField.trimmed).2 d
    cases after with
    | nil => cases last
    | cons e rest => simpa [cut, List.getLast?_cons] using last
  have noComma : ',' ∉ after := fun member => isField.noComma (by simp [cut, member])
  have arrowless : Arrowless after := by
    rintro front back rfl
    exact isField.noArrow (before ++ c :: front) back (by simp [cut])
  exact Classic.eq_nil_of_endsField lastVisible noComma arrowless apart ends

/-- A text is kept whole exactly if no hash in it opens a comment. -/
theorem beforeComment_eq_self_iff :
    beforeComment atWordStart text = text ↔
      ∀ before after, text = before ++ '#' :: after → wordMayBegin atWordStart before = true →
        endsField after = true := by
  induction text generalizing atWordStart with
  | nil => simp [beforeComment]
  | cons c rest inductionHypothesis =>
      by_cases opens : (c == '#' && atWordStart && !endsField rest) = true
      · simp only [beforeComment, opens, if_true]
        simp only [Bool.and_eq_true, beq_iff_eq, Bool.not_eq_true'] at opens
        obtain ⟨⟨rfl, begins⟩, goesOn⟩ := opens
        refine iff_of_false (by simp) fun closed => ?_
        simp [closed [] rest rfl begins] at goesOn
      · simp only [beforeComment, opens, Bool.false_eq_true, if_false, List.cons.injEq, true_and]
        rw [inductionHypothesis]
        constructor
        · rintro closed (_ | ⟨d, before⟩) after cut begins
          · obtain ⟨rfl, rfl⟩ := List.cons.inj cut
            simpa [show atWordStart = true from begins] using opens
          · obtain ⟨rfl, rfl⟩ := List.cons.inj cut
            exact closed before after rfl (by simpa using begins)
        · intro closed before after cut begins
          exact closed (c :: before) after (by rw [cut]; rfl) (by simpa using begins)

/-- What stands before a comment is kept whole. -/
theorem beforeComment_beforeComment :
    beforeComment atWordStart (beforeComment atWordStart text) = beforeComment atWordStart text := by
  induction text generalizing atWordStart with
  | nil => rfl
  | cons c rest inductionHypothesis =>
      by_cases opens : (c == '#' && atWordStart && !endsField rest) = true
      · simp only [beforeComment, opens, if_true]
      · have stillClosed :
            (c == '#' && atWordStart && !endsField (beforeComment (isBlank c) rest)) = false := by
          by_cases hash : (c == '#' && atWordStart) = true
          · have ends : endsField rest = true := by simpa [hash] using opens
            simp [endsField_beforeComment ends]
          · simp [hash]
        simp only [beforeComment, opens, stillClosed, Bool.false_eq_true, if_false,
          inductionHypothesis]

/-- What stands before a comment is all of a text or ends at a hash. -/
theorem beforeComment_cases (atWordStart : Bool) (text : List Char) :
    beforeComment atWordStart text = text ∨
      ∃ after, text = beforeComment atWordStart text ++ '#' :: after := by
  induction text generalizing atWordStart with
  | nil => exact .inl rfl
  | cons c rest inductionHypothesis =>
      by_cases opens : (c == '#' && atWordStart && !endsField rest) = true
      · simp only [beforeComment, opens, if_true]
        simp only [Bool.and_eq_true, beq_iff_eq] at opens
        exact .inr ⟨rest, by rw [opens.1.1]; rfl⟩
      · simp only [beforeComment, opens, Bool.false_eq_true, if_false, List.cons_append,
          List.cons.injEq, true_and]
        exact inductionHypothesis (isBlank c)

/-- A text that is kept whole with blanks around it is kept whole without them. -/
theorem beforeComment_of_padded {core : List Char} (padded : Padded core text)
    (whole : beforeComment true text = text) : beforeComment true core = core := by
  obtain ⟨leading, trailing, leadingBlank, trailingBlank, rfl⟩ := padded
  rw [beforeComment_eq_self_iff] at whole ⊢
  rintro before after rfl begins
  apply endsField_of_append trailingBlank
  apply whole (leading ++ before) (after ++ trailing) (by simp)
  rwa [wordMayBegin_append, wordMayBegin_of_allBlank leadingBlank rfl]

/-- What is left of a line after its comment is kept whole. -/
theorem beforeComment_stripComment (line : List Char) :
    beforeComment true (stripComment line) = stripComment line :=
  beforeComment_of_padded (padded_trim _) beforeComment_beforeComment

/-! ### Comments behind a line -/

/-- A text that begins, after blanks at most, with a comma or an arrow: a hash before it is a
field. -/
def BeginsWithSeparator (text : List Char) : Prop :=
  ∃ blanks rest, AllBlank blanks ∧ (text = blanks ++ ',' :: rest ∨ text = blanks ++ '-' :: '>' :: rest)

/-- The reader looks ahead for a separator. -/
theorem endsField_iff : endsField text = true ↔ BeginsWithSeparator text := by
  constructor
  · intro ends
    obtain ⟨blanks, blank, cut⟩ := exists_trimStart text
    rw [endsField] at ends
    cases begun : trimStart text with
    | nil => simp [begun] at ends
    | cons c rest =>
        simp only [begun, Bool.or_eq_true, Bool.and_eq_true, beq_iff_eq] at ends
        rw [begun] at cut
        rcases ends with rfl | ⟨rfl, point⟩
        · exact ⟨blanks, rest, blank, .inl cut⟩
        · obtain ⟨after, rfl⟩ := List.head?_eq_some_iff.mp point
          exact ⟨blanks, after, blank, .inr cut⟩
  · rintro ⟨blanks, rest, blank, rfl | rfl⟩
    · have begun : trimStart (',' :: rest) = ',' :: rest := trimStart_eq_self (by simp [isBlank])
      simp [endsField, trimStart_append blank, begun]
    · have begun : trimStart ('-' :: '>' :: rest) = '-' :: '>' :: rest :=
        trimStart_eq_self (by simp [isBlank])
      simp [endsField, trimStart_append blank, begun]

/-- What follows a separator does not matter. -/
theorem BeginsWithSeparator.append (begins : BeginsWithSeparator text) (later : List Char) :
    BeginsWithSeparator (text ++ later) := by
  obtain ⟨blanks, rest, blank, rfl | rfl⟩ := begins
  · exact ⟨blanks, rest ++ later, blank, .inl (by simp)⟩
  · exact ⟨blanks, rest ++ later, blank, .inr (by simp)⟩

section Trailing

variable {blanks : List Char} (blank : AllBlank blanks)

include blank

/-- A hash behind blanks is no separator, and the end of no field that stands before it. -/
theorem endsField_trailing (parted : blanks ≠ []) (text comment : List Char) :
    endsField (text ++ (blanks ++ '#' :: comment)) = endsField text := by
  induction text with
  | nil =>
      have begun : trimStart ('#' :: comment) = '#' :: comment :=
        trimStart_eq_self (by simp [isBlank])
      rw [List.nil_append, endsField, trimStart_append blank, begun]
      rfl
  | cons c rest inductionHypothesis =>
      cases here : isBlank c with
      | true =>
          rw [List.cons_append, endsField_cons_of_blank here, endsField_cons_of_blank here,
            inductionHypothesis]
      | false =>
          rw [List.cons_append, endsField_cons_of_visible here, endsField_cons_of_visible here]
          cases rest with
          | cons d rest => rfl
          | nil =>
              obtain ⟨d, more, rfl⟩ := List.exists_cons_of_ne_nil parted
              have notPoint : d ≠ '>' := by
                rintro rfl
                exact absurd (blank '>' List.mem_cons_self) (by decide)
              simp [notPoint]

/-- A hash behind blanks opens a comment, unless a separator follows it. -/
theorem beforeComment_blanks {comment : List Char} (goesOn : endsField comment = false)
    (begins : atWordStart = true ∨ blanks ≠ []) :
    beforeComment atWordStart (blanks ++ '#' :: comment) = blanks := by
  induction blanks generalizing atWordStart with
  | nil =>
      have wordStart : atWordStart = true := begins.resolve_right fun something => something rfl
      simp [beforeComment, wordStart, goesOn]
  | cons c blanks inductionHypothesis =>
      obtain ⟨white, blankRest⟩ := List.forall_mem_cons.mp blank
      simp [beforeComment, ne_hash_of_isBlank white, inductionHypothesis blankRest (Or.inl white)]

/-- What stands before the first comment is the same with a comment behind the line, but for
blanks at its end. -/
theorem exists_beforeComment_trailing (parted : blanks ≠ []) {comment : List Char}
    (goesOn : endsField comment = false) (atWordStart : Bool) (text : List Char) :
    ∃ trailing, AllBlank trailing ∧
      beforeComment atWordStart (text ++ (blanks ++ '#' :: comment)) =
        beforeComment atWordStart text ++ trailing := by
  induction text generalizing atWordStart with
  | nil => exact ⟨blanks, blank, beforeComment_blanks blank goesOn (.inr parted)⟩
  | cons c rest inductionHypothesis =>
      rw [List.cons_append, beforeComment, beforeComment, endsField_trailing blank parted]
      split
      · exact ⟨[], nofun, rfl⟩
      · obtain ⟨trailing, white, same⟩ := inductionHypothesis (isBlank c)
        exact ⟨trailing, white, by rw [same, List.cons_append]⟩

end Trailing

/-- A comment behind a line is cut off, with the blanks before it. -/
theorem stripComment_trailing {raw comment : List Char} (something : trim raw ≠ [])
    (noSeparator : ¬BeginsWithSeparator comment) :
    stripComment (trim (raw ++ ' ' :: '#' :: comment)) = stripComment (trim raw) := by
  obtain ⟨blanks, blank, parted, trimmed⟩ :=
    trim_append_visible (by decide : isBlank '#' = false) raw comment
  have goesOn : endsField (trimEnd comment) = false := by
    obtain ⟨after, -, cut⟩ := exists_trimEnd comment
    refine Bool.eq_false_iff.mpr fun ends => noSeparator ?_
    rw [cut]
    exact (endsField_iff.mp ends).append after
  obtain ⟨trailing, white, same⟩ :=
    exists_beforeComment_trailing blank (mt parted.mpr something) goesOn true (trim raw)
  rw [trimmed, stripComment, same, trim_append white, stripComment]

end TapeLab.Classic
