import TapeLab.Text.Markup

/-!
# Tags in texts put together

Which tags are active in a text that is put together from several parts.  A part that leaves no
bracket open adds its own tags (`activeTagsFrom_append_of_settled`).  A text that was escaped adds
none (`activeTagsFrom_escape_append`), and neither does one in which no tag begins
(`activeTagsFrom_append_of_not_beginsTag`): all that what follows can notice of them is how many
backslashes they end in.
-/

namespace TapeLab.Text

variable {slashes : Nat} {front back text : List Char}

/-! ### Backslashes -/

/-- How many backslashes stand at the very end of a text, if `slashes` of them stand in front
of it. -/
def slashesAtEnd (slashes : Nat) (text : List Char) : Nat :=
  text.foldl slashesAfter slashes

@[simp]
theorem slashesAtEnd_nil (slashes : Nat) : slashesAtEnd slashes [] = slashes :=
  rfl

@[simp]
theorem slashesAtEnd_cons (slashes : Nat) (c : Char) (rest : List Char) :
    slashesAtEnd slashes (c :: rest) = slashesAtEnd (slashesAfter slashes c) rest :=
  rfl

theorem slashesAtEnd_append (slashes : Nat) (front back : List Char) :
    slashesAtEnd slashes (front ++ back) = slashesAtEnd (slashesAtEnd slashes front) back :=
  List.foldl_append

@[simp]
theorem slashesAfter_slash (slashes : Nat) : slashesAfter slashes '\\' = slashes + 1 :=
  rfl

theorem slashesAfter_of_ne {c : Char} (other : c ≠ '\\') (slashes : Nat) :
    slashesAfter slashes c = 0 := by
  simp [slashesAfter, other]

/-- A text that ends in another character ends in no backslash. -/
theorem slashesAtEnd_of_getLast {last : Char} (ends : text.getLast? = some last)
    (other : last ≠ '\\') (slashes : Nat) : slashesAtEnd slashes text = 0 := by
  obtain ⟨front, rfl⟩ := List.getLast?_eq_some_iff.mp ends
  rw [slashesAtEnd_append, slashesAtEnd_cons, slashesAfter_of_ne other, slashesAtEnd_nil]

/-- Whether a tag is active depends on whether the number of backslashes before it is even. -/
theorem activeTagsFrom_congr {other : Nat} (same : slashes % 2 = other % 2) (text : List Char) :
    activeTagsFrom slashes text = activeTagsFrom other text := by
  induction text generalizing slashes other with
  | nil => rfl
  | cons c rest inductionHypothesis =>
      have later : slashesAfter slashes c % 2 = slashesAfter other c % 2 := by
        unfold slashesAfter
        split
        · omega
        · rfl
      simp only [activeTagsFrom, same, inductionHypothesis later]

/-- Backslashes before a text can keep its first tag from being active, and add none. -/
theorem activeTagsFrom_sublist (begins : text.head? ≠ some '\\') (slashes : Nat) :
    (activeTagsFrom slashes text).Sublist (activeTagsFrom 0 text) := by
  cases text with
  | nil => exact List.nil_sublist _
  | cons c rest =>
      have other : c ≠ '\\' := by simpa using begins
      simp only [activeTagsFrom, slashesAfter_of_ne other]
      cases c == '[' with
      | false => simp
      | true =>
          cases tagAfterBracket? rest with
          | none => simp
          | some tag => split <;> simp

/-- Backslashes before a text that begins with no bracket make no difference to its tags. -/
theorem activeTagsFrom_of_head (begins : text.head? ≠ some '\\')
    (even : text.head? = some '[' → slashes % 2 = 0) :
    activeTagsFrom slashes text = activeTagsFrom 0 text := by
  cases text with
  | nil => rfl
  | cons c rest =>
      have other : c ≠ '\\' := by simpa using begins
      by_cases bracket : c = '['
      · exact activeTagsFrom_congr (even (by simp [bracket])) (c :: rest)
      · simp [activeTagsFrom, slashesAfter_of_ne other, bracket]

/-! ### Parts -/

/-- A text in which no bracket that stands before it can be closed for a tag. -/
def ClosesNothing (text : List Char) : Prop :=
  tagBody? text = none ∧ ∀ c ∈ text.head?, startsTagName c = false

theorem closesNothing_nil : ClosesNothing [] :=
  ⟨rfl, nofun⟩

theorem closesNothing_bracket (rest : List Char) : ClosesNothing ('[' :: rest) :=
  ⟨rfl, by simp; decide⟩

theorem ClosesNothing.slash (closes : ClosesNothing text) : ClosesNothing ('\\' :: text) :=
  ⟨by simp [tagBody?, closes.1], by simp; decide⟩

theorem tagBody?_append_of_none (closes : tagBody? back = none) (front : List Char) :
    tagBody? (front ++ back) = tagBody? front := by
  induction front with
  | nil => exact closes
  | cons c rest inductionHypothesis => simp only [List.cons_append, tagBody?, inductionHypothesis]

theorem ClosesNothing.tagAfterBracket?_append (closes : ClosesNothing back) (front : List Char) :
    tagAfterBracket? (front ++ back) = tagAfterBracket? front := by
  cases front with
  | nil =>
      cases back with
      | nil => rfl
      | cons c rest => simp [tagAfterBracket?, closes.2 c rfl]
  | cons c rest =>
      simp only [List.cons_append, tagAfterBracket?, tagBody?_append_of_none closes.1]

/-- The tags of a text and those of what follows it, if each bracket of the text begins the same
tag, or none, in front of what follows. -/
theorem activeTagsFrom_append (same : ∀ rest, '[' :: rest <:+ front →
      tagAfterBracket? (rest ++ back) = tagAfterBracket? rest) (slashes : Nat) :
    activeTagsFrom slashes (front ++ back) =
      activeTagsFrom slashes front ++ activeTagsFrom (slashesAtEnd slashes front) back := by
  induction front generalizing slashes with
  | nil => rfl
  | cons c rest inductionHypothesis =>
      have later := inductionHypothesis
        (fun inner suffix => same inner (suffix.trans (List.suffix_cons c rest)))
        (slashesAfter slashes c)
      simp only [List.cons_append, activeTagsFrom, slashesAtEnd_cons, later]
      split
      · next bracket =>
        obtain rfl : c = '[' := by simpa using (Bool.and_eq_true_iff.mp bracket).1
        rw [same rest (List.suffix_refl _)]
        cases tagAfterBracket? rest <;> rfl
      · rfl

/-- A text keeps its own tags in front of one that closes none of its brackets. -/
theorem ClosesNothing.activeTagsFrom_append (closes : ClosesNothing back) (slashes : Nat)
    (front : List Char) :
    activeTagsFrom slashes (front ++ back) =
      activeTagsFrom slashes front ++ activeTagsFrom (slashesAtEnd slashes front) back :=
  Text.activeTagsFrom_append (fun rest _ => closes.tagAfterBracket?_append rest) slashes

/-- Whether the last bracket of a text that could begin a tag is left open. -/
def endsOpen : List Char → Bool
  | [] => false
  | c :: rest => (c == '[' && rest.all fun next => next != '[' && next != ']') || endsOpen rest

/-- What follows a bracket that is not the last, or is closed, says all about its tag. -/
theorem tagBody?_append_of_any (ends : (front.any fun c => c == '[' || c == ']') = true)
    (back : List Char) : tagBody? (front ++ back) = tagBody? front := by
  induction front with
  | nil => cases ends
  | cons c rest inductionHypothesis =>
      simp only [List.cons_append, tagBody?]
      by_cases closing : c = ']'
      · simp [closing]
      by_cases opening : c = '['
      · simp [opening]
      · rw [inductionHypothesis (by simpa [closing, opening] using ends)]

theorem tagAfterBracket?_append_of_any (ends : (front.any fun c => c == '[' || c == ']') = true)
    (back : List Char) : tagAfterBracket? (front ++ back) = tagAfterBracket? front := by
  cases front with
  | nil => cases ends
  | cons c rest =>
      simp only [List.cons_append, tagAfterBracket?]
      split
      · next starts =>
        have opening : c ≠ '[' := by rintro rfl; exact absurd starts (by decide)
        have closing : c ≠ ']' := by rintro rfl; exact absurd starts (by decide)
        rw [tagBody?_append_of_any (by simpa [opening, closing] using ends)]
      · rfl

/-- A text that leaves no bracket open has its own tags, whatever follows. -/
theorem activeTagsFrom_append_of_settled (settled : endsOpen front = false) (slashes : Nat)
    (back : List Char) :
    activeTagsFrom slashes (front ++ back) =
      activeTagsFrom slashes front ++ activeTagsFrom (slashesAtEnd slashes front) back := by
  refine activeTagsFrom_append (fun rest suffix => tagAfterBracket?_append_of_any ?_ back) slashes
  obtain ⟨before, rfl⟩ := suffix
  induction before with
  | nil =>
      obtain ⟨closed, -⟩ := Bool.or_eq_false_iff.mp settled
      simpa [List.any_eq_not_all_not, bne] using closed
  | cons c others inductionHypothesis =>
      exact inductionHypothesis (Bool.or_eq_false_iff.mp settled).2

/-! ### Texts without tags -/

/-- Whether a tag begins in a text, so that it may be active there or together with what
follows. -/
def beginsTag : List Char → Bool
  | [] => false
  | c :: rest => (c == '[' && rest.head?.any startsTagName) || beginsTag rest

/-- A text without a bracket begins no tag. -/
theorem beginsTag_of_not_mem (unmarked : '[' ∉ text) : beginsTag text = false := by
  induction text with
  | nil => rfl
  | cons c rest inductionHypothesis =>
      rw [List.mem_cons, not_or] at unmarked
      simp [beginsTag, Ne.symm unmarked.1, inductionHypothesis unmarked.2]

/-- A text in which no tag begins adds none, unless what follows completes one that its last
character opens. -/
theorem activeTagsFrom_append_of_not_beginsTag (harmless : beginsTag text = false)
    (follows : ∀ c ∈ back.head?, startsTagName c = false) (slashes : Nat) :
    activeTagsFrom slashes (text ++ back) =
      activeTagsFrom (slashesAtEnd slashes text) back := by
  induction text generalizing slashes with
  | nil => rfl
  | cons c rest inductionHypothesis =>
      obtain ⟨here, later⟩ := Bool.or_eq_false_iff.mp harmless
      rw [List.cons_append, activeTagsFrom, inductionHypothesis later, slashesAtEnd_cons]
      split
      · next bracket =>
        have starts : ∀ d ∈ (rest ++ back).head?, startsTagName d = false := by
          cases rest with
          | nil => exact follows
          | cons d others => simpa [(Bool.and_eq_true_iff.mp bracket).1] using here
        have none : tagAfterBracket? (rest ++ back) = none := by
          cases joined : rest ++ back with
          | nil => rfl
          | cons d others => simp [tagAfterBracket?, starts d (by simp [joined])]
        rw [none]
      · rfl

/-! ### Escaped texts -/

theorem tagBody?_escapeFrom (text : List Char) (slashes : Nat) (nothing : tagBody? text = none) :
    tagBody? (escapeFrom slashes text) = none := by
  induction text generalizing slashes with
  | nil => rfl
  | cons c rest inductionHypothesis =>
      by_cases closing : c = ']'
      · simp [tagBody?, closing] at nothing
      by_cases opening : c = '['
      · -- Whether or not the bracket is guarded, only backslashes stand before it.
        have bracket : ∀ count later,
            tagBody? (List.replicate count '\\' ++ '[' :: later) = none := by
          intro count later
          induction count with
          | zero => rfl
          | succ count inner => simp [List.replicate_succ, tagBody?, inner]
        subst opening
        simp only [escapeFrom]
        split
        · simpa using bracket (slashes + 1) (escapeFrom (slashesAfter slashes '[') rest)
        · exact bracket 0 _
      · simp only [tagBody?, beq_iff_eq, closing, opening, if_false, Option.map_eq_none_iff]
          at nothing
        simp [escapeFrom, opening, tagBody?, closing, inductionHypothesis _ nothing]

/-- A bracket that begins no tag begins none before an escaped text. -/
theorem tagAfterBracket?_escapeFrom (nothing : tagAfterBracket? text = none) (slashes : Nat) :
    tagAfterBracket? (escapeFrom slashes text) = none := by
  cases text with
  | nil => rfl
  | cons c rest =>
      by_cases starts : startsTagName c = true
      · have opening : c ≠ '[' := by rintro rfl; exact absurd starts (by decide)
        simp only [tagAfterBracket?, starts, if_true, Option.map_eq_none_iff] at nothing
        simp [escapeFrom, opening, tagAfterBracket?, tagBody?_escapeFrom rest _ nothing]
      · simp only [escapeFrom]
        split
        · simp [List.replicate_succ, tagAfterBracket?, show startsTagName '\\' = false by decide]
        · simp [tagAfterBracket?, starts]

/-- Guarding a bracket does not change how many backslashes stand at the end. -/
theorem slashesAtEnd_escapeFrom (slashes : Nat) (text : List Char) :
    slashesAtEnd slashes (escapeFrom slashes text) = slashesAtEnd slashes text := by
  induction text generalizing slashes with
  | nil => rfl
  | cons c rest inductionHypothesis =>
      simp only [escapeFrom]
      split
      · next guarded =>
        obtain rfl : c = '[' := by simpa using (Bool.and_eq_true_iff.mp guarded).1
        rw [slashesAtEnd_append, slashesAtEnd_append]
        exact inductionHypothesis 0
      · exact inductionHypothesis _

/-- Backslashes are no tags. -/
theorem activeTagsFrom_replicate (count slashes : Nat) (back : List Char) :
    activeTagsFrom slashes (List.replicate count '\\' ++ back) =
      activeTagsFrom (slashes + count) back := by
  induction count generalizing slashes with
  | zero => rfl
  | succ count inductionHypothesis =>
      simp only [List.replicate_succ, List.cons_append, activeTagsFrom, slashesAfter_slash]
      rw [inductionHypothesis, Nat.add_assoc, Nat.add_comm 1 count]
      rfl

/-- An escaped text adds no tag: before each of its tags stands one backslash more than twice
those that were there. -/
theorem activeTagsFrom_escapeFrom_append (closes : ClosesNothing back) (slashes : Nat)
    (text : List Char) :
    activeTagsFrom slashes (escapeFrom slashes text ++ back) =
      activeTagsFrom (slashesAtEnd slashes text) back := by
  induction text generalizing slashes with
  | nil => rfl
  | cons c rest inductionHypothesis =>
      have later := inductionHypothesis (slashesAfter slashes c)
      simp only [escapeFrom, slashesAtEnd_cons]
      split
      · next guarded =>
        obtain rfl : c = '[' := by simpa using (Bool.and_eq_true_iff.mp guarded).1
        have odd : (slashes + (slashes + 1)) % 2 ≠ 0 := by omega
        rw [List.append_assoc, List.append_assoc, activeTagsFrom_replicate, ← later]
        simp [activeTagsFrom, odd]
        rfl
      · next unguarded =>
        rw [List.singleton_append, List.cons_append, activeTagsFrom, later]
        split
        · next bracket =>
          obtain rfl : c = '[' := by simpa using (Bool.and_eq_true_iff.mp bracket).1
          have nothing : tagAfterBracket? rest = none := by simpa using unguarded
          rw [closes.tagAfterBracket?_append, tagAfterBracket?_escapeFrom nothing]
        · rfl

/-- What is made of a text by escaping it adds no tag to what follows. -/
theorem activeTagsFrom_escape_append (closes : ClosesNothing back) (text : String) :
    activeTagsFrom 0 ((escape text).toList ++ back) =
      activeTagsFrom (slashesAtEnd 0 (escape text).toList) back := by
  unfold escape
  rw [String.toList_ofList]
  split
  · rw [List.append_assoc, List.singleton_append, activeTagsFrom_escapeFrom_append closes.slash,
      slashesAtEnd_append, slashesAtEnd_escapeFrom]
    rfl
  · rw [activeTagsFrom_escapeFrom_append closes, slashesAtEnd_escapeFrom]

/-- An escaped text by itself has no active tag. -/
theorem activeTags_escape (text : String) : activeTags (escape text) = [] := by
  have nothing := activeTagsFrom_escape_append closesNothing_nil text
  rw [List.append_nil] at nothing
  rw [activeTags, nothing]
  rfl

/-! ### Nesting -/

/-- The first of some tags that nest do so by themselves. -/
theorem nestsIn_of_append {opened tags others : List (List Char)}
    (nest : nestsIn opened (tags ++ others) = true) : nestsIn opened tags = true := by
  induction opened, tags using nestsIn.induct with
  | case1 opened => rfl
  | case2 opened rest inductionHypothesis =>
      simp only [List.cons_append, nestsIn, Bool.and_eq_true] at nest ⊢
      exact ⟨nest.1, inductionHypothesis nest.2⟩
  | case3 opened rest name named inductionHypothesis =>
      rw [List.cons_append, nestsIn.eq_3 _ _ _ named, Bool.and_eq_true] at nest
      rw [nestsIn.eq_3 _ _ _ named, Bool.and_eq_true]
      exact ⟨nest.1, inductionHypothesis nest.2⟩
  | case4 => simp [nestsIn] at nest
  | case5 opened tag rest unslashed unnamed unlinked inductionHypothesis =>
      rw [List.cons_append, nestsIn.eq_5 _ _ _ unslashed unnamed unlinked] at nest
      rw [nestsIn.eq_5 _ _ _ unslashed unnamed unlinked]
      exact inductionHypothesis nest

end TapeLab.Text
