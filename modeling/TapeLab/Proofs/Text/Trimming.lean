import TapeLab.Text.Blank

/-!
# What trimming leaves

A trimmed text is one that no blank begins or ends (`Text.trim_eq_self_iff`), and
trimming finds it inside every padding (`Text.trim_eq_of_padded`, `Text.padded_trim`).
-/

namespace TapeLab.Text

variable {core text before after : List Char}

/-- No blank is a hash. -/
theorem ne_hash_of_isBlank {c : Char} (white : isBlank c = true) : c ≠ '#' := by
  rintro rfl
  exact absurd white (by decide)

/-- Blanks in front of a text are dropped with its own. -/
theorem trimStart_append (blank : AllBlank before) : trimStart (before ++ text) = trimStart text :=
  List.dropWhile_append_of_pos blank

/-- Blanks after a text are dropped with its own. -/
theorem trimEnd_append (blank : AllBlank after) : trimEnd (text ++ after) = trimEnd text := by
  have reversed : AllBlank after.reverse := fun c member => blank c (List.mem_reverse.mp member)
  simp only [trimEnd, List.reverse_append]
  rw [List.dropWhile_append_of_pos reversed]

/-- Nothing is left of blanks. -/
theorem trimEnd_of_allBlank (blank : AllBlank text) : trimEnd text = [] :=
  @trimEnd_append [] text blank

/-- A text that no blank begins keeps its beginning. -/
theorem trimStart_eq_self (begins : ∀ c ∈ text.head?, isBlank c = false) :
    trimStart text = text := by
  cases text with
  | nil => rfl
  | cons c rest => simp [trimStart, begins c rfl]

/-- A text that no blank ends keeps its end. -/
theorem trimEnd_eq_self (ends : ∀ c ∈ text.getLast?, isBlank c = false) : trimEnd text = text := by
  rw [← List.head?_reverse] at ends
  have kept : trimStart text.reverse = text.reverse := trimStart_eq_self ends
  rw [trimEnd, ← trimStart, kept, List.reverse_reverse]

/-- Only blanks are dropped from the front. -/
theorem exists_trimStart (text : List Char) :
    ∃ before, AllBlank before ∧ text = before ++ trimStart text :=
  ⟨text.takeWhile isBlank, List.all_eq_true.mp List.all_takeWhile,
    List.takeWhile_append_dropWhile.symm⟩

/-- Only blanks are dropped from the end. -/
theorem exists_trimEnd (text : List Char) :
    ∃ after, AllBlank after ∧ text = trimEnd text ++ after := by
  obtain ⟨blanks, blank, cut⟩ := exists_trimStart text.reverse
  refine ⟨blanks.reverse, fun c member => blank c (List.mem_reverse.mp member), ?_⟩
  have mirrored := congrArg List.reverse cut
  simpa [trimEnd, trimStart] using mirrored

/-- A text is its trimmed form with blanks around it. -/
theorem padded_trim (text : List Char) : Padded (trim text) text := by
  obtain ⟨before, beforeBlank, cutBefore⟩ := exists_trimStart text
  obtain ⟨after, afterBlank, cutAfter⟩ := exists_trimEnd (trimStart text)
  refine ⟨before, after, beforeBlank, afterBlank, ?_⟩
  rw [List.append_assoc]
  exact cutAfter ▸ cutBefore

/-- Nothing new stands in a trimmed text. -/
theorem mem_of_mem_trim {c : Char} (member : c ∈ trim text) : c ∈ text := by
  obtain ⟨leading, trailing, _, _, padded⟩ := padded_trim text
  rw [padded]
  simp [member]

/-- No blank begins what is left of a text. -/
theorem isBlank_head_trimStart {c : Char} (first : (trimStart text).head? = some c) :
    isBlank c = false := by
  have stopped := List.head?_dropWhile_not isBlank text
  rw [← trimStart, first] at stopped
  simpa using stopped

/-- No blank ends what is left of a text. -/
theorem isBlank_getLast_trimEnd {c : Char} (last : (trimEnd text).getLast? = some c) :
    isBlank c = false := by
  rw [trimEnd, List.getLast?_reverse] at last
  exact isBlank_head_trimStart last

/-- No blank begins a trimmed text. -/
theorem isBlank_head_trim {c : Char} (first : (trim text).head? = some c) : isBlank c = false := by
  obtain ⟨after, _, cut⟩ := exists_trimEnd (trimStart text)
  apply @isBlank_head_trimStart text
  rw [cut, List.head?_append, ← trim, first]
  rfl

/-- What stands up to a visible character is not dropped from the end. -/
theorem trimEnd_append_visible {c : Char} (visible : isBlank c = false) (front rest : List Char) :
    trimEnd (front ++ c :: rest) = front ++ c :: trimEnd rest := by
  have mirrored : (front ++ c :: rest).reverse = rest.reverse ++ c :: front.reverse := by simp
  rw [trimEnd, mirrored, List.dropWhile_append, trimEnd]
  split
  · next nothing => simp [visible, List.isEmpty_iff.mp nothing]
  · simp

/-- A visible character at the front stays there. -/
theorem exists_trim_cons {c : Char} (visible : isBlank c = false) (rest : List Char) :
    ∃ later, trim (c :: rest) = c :: later := by
  refine ⟨trimEnd rest, ?_⟩
  rw [trim, trimStart_eq_self (by simpa using visible)]
  exact trimEnd_append_visible visible [] rest

/-- The trimmed texts are those that no blank begins or ends. -/
theorem trim_eq_self_iff :
    trim text = text ↔
      (∀ c ∈ text.head?, isBlank c = false) ∧ ∀ c ∈ text.getLast?, isBlank c = false := by
  constructor
  · intro trimmed
    refine ⟨fun c first => ?_, fun c last => ?_⟩
    · rw [← trimmed] at first
      exact isBlank_head_trim first
    · rw [← trimmed] at last
      exact isBlank_getLast_trimEnd last
  · rintro ⟨begins, ends⟩
    rw [trim, trimStart_eq_self begins, trimEnd_eq_self ends]

/-- A text between two visible characters is trimmed. -/
theorem trim_enclosed {first last : Char} (begins : isBlank first = false)
    (ends : isBlank last = false) (middle : List Char) :
    trim (first :: (middle ++ [last])) = first :: (middle ++ [last]) := by
  rw [trim_eq_self_iff, ← List.cons_append, List.getLast?_concat]
  simp [begins, ends]

/-- A trimmed text has nothing more to be trimmed. -/
theorem trim_trim (text : List Char) : trim (trim text) = trim text :=
  trim_eq_self_iff.mpr
    ⟨fun _ first => isBlank_head_trim first, fun _ last => isBlank_getLast_trimEnd last⟩

/-- Trimming finds a trimmed text in every padding. -/
theorem trim_eq_of_padded (padded : Padded core text) (trimmed : trim core = core) :
    trim text = core := by
  obtain ⟨before, after, beforeBlank, afterBlank, rfl⟩ := padded
  obtain ⟨begins, ends⟩ := trim_eq_self_iff.mp trimmed
  rw [trim, List.append_assoc, trimStart_append beforeBlank]
  by_cases nothing : core = []
  · subst nothing
    rw [List.nil_append, trimStart_eq_nil_iff.mpr afterBlank]
    rfl
  · have begun : ∀ c ∈ (core ++ after).head?, isBlank c = false := by
      intro c first
      cases core with
      | nil => exact absurd rfl nothing
      | cons d rest => exact begins c first
    rw [trimStart_eq_self begun, trimEnd_append afterBlank, trimEnd_eq_self ends]

/-- Blanks after a text are trimmed with its own. -/
theorem trim_append (blank : AllBlank after) : trim (text ++ after) = trim text := by
  obtain ⟨leading, trailing, leadingBlank, trailingBlank, padded⟩ := padded_trim text
  refine trim_eq_of_padded ⟨leading, trailing ++ after, leadingBlank, ?_, ?_⟩ (trim_trim text)
  · exact List.forall_mem_append.mpr ⟨trailingBlank, blank⟩
  · rw [← List.append_assoc, ← padded]

/-- A visible character after a text, and a space before it, is not trimmed; nor are the blanks
between them, unless the text is blank. -/
theorem trim_append_visible {c : Char} (visible : isBlank c = false) (text rest : List Char) :
    ∃ blanks, AllBlank blanks ∧ (trim text = [] ↔ blanks = []) ∧
      trim (text ++ ' ' :: c :: rest) = trim text ++ (blanks ++ c :: trimEnd rest) := by
  have space : isBlank ' ' = true := by decide
  obtain ⟨before, beforeBlank, cutBefore⟩ := exists_trimStart text
  obtain ⟨after, afterBlank, cutAfter⟩ := exists_trimEnd (trimStart text)
  have dropped : trimStart (text ++ ' ' :: c :: rest) =
      trimStart (trimStart text ++ ' ' :: c :: rest) := by
    conv => lhs; rw [cutBefore, List.append_assoc]
    exact trimStart_append beforeBlank
  cases begun : trimStart text with
  | nil =>
      have begins : trimStart (' ' :: c :: rest) = c :: rest := by
        simp [trimStart, space, visible]
      have nothing : trim text = [] := by rw [trim, begun]; rfl
      refine ⟨[], List.forall_mem_nil _, iff_of_true nothing rfl, ?_⟩
      rw [trim, dropped, begun, List.nil_append, begins, nothing]
      exact trimEnd_append_visible visible [] rest
  | cons d more =>
      have dVisible : isBlank d = false := isBlank_head_trimStart (by rw [begun]; rfl)
      have something : trim text = d :: trimEnd more := by
        rw [trim, begun]
        exact trimEnd_append_visible dVisible [] more
      have kept : trimStart (d :: more ++ ' ' :: c :: rest) = d :: more ++ ' ' :: c :: rest :=
        trimStart_eq_self (by simpa using dVisible)
      refine ⟨after ++ [' '], ?_, by simp [something], ?_⟩
      · exact List.forall_mem_append.mpr ⟨afterBlank, by simpa using space⟩
      · rw [trim, dropped, begun, kept, ← begun, cutAfter, ← trim]
        have cut : trim text ++ after ++ ' ' :: c :: rest =
            trim text ++ (after ++ [' ']) ++ c :: rest := by simp
        rw [cut, trimEnd_append_visible visible, List.append_assoc]

/-- A text without blanks around it pads itself. -/
theorem padded_refl (text : List Char) : Padded text text :=
  ⟨[], [], by simp [AllBlank], by simp [AllBlank], by simp⟩

end TapeLab.Text
