import Mathlib.Data.List.DropRight
import TapeLab.Machine.TapeText
import TapeLab.Proofs.Machine.Reach
import TapeLab.Proofs.Machine.Vocabulary

/-!
# What the text of a tape shows

The text of a tape is without the blank cells at its end, and then without every character at the
end of what is left that occurs in the blank (`textTells`).  So it shows the cells up to the last
one that is not blank exactly if no character of the blank ends them.  That is so at every moment of
a machine none of whose symbols ends in such a character (`Definition.textTells_reached`), as in a
machine all of whose symbols are single characters (`Definition.endsVisibly_of_single`).
-/

namespace TapeLab

/-! ### Dropping from the end -/

section Text

variable {unwanted text after : List Char}

/-- Unwanted characters after a text are dropped with its own. -/
theorem dropTrailing_append (dropped : ∀ c ∈ after, c ∈ unwanted) :
    dropTrailing unwanted (text ++ after) = dropTrailing unwanted text := by
  have reversed : ∀ c ∈ after.reverse, unwanted.contains c = true := by simpa using dropped
  rw [dropTrailing, List.reverse_append, List.dropWhile_append_of_pos reversed, dropTrailing]

/-- Only unwanted characters are dropped. -/
theorem exists_dropTrailing (unwanted text : List Char) :
    ∃ lost, text = dropTrailing unwanted text ++ lost ∧ ∀ c ∈ lost, c ∈ unwanted :=
  ⟨text.rtakeWhile unwanted.contains,
    List.rdropWhile_append_rtakeWhile.symm,
    fun _ member => by simpa using List.mem_rtakeWhile_imp member⟩

/-- No unwanted character is left at the end. -/
theorem getLast?_dropTrailing {c : Char} (last : c ∈ (dropTrailing unwanted text).getLast?) :
    c ∉ unwanted := by
  rw [dropTrailing, List.getLast?_reverse] at last
  have stopped := List.head?_dropWhile_not unwanted.contains text.reverse
  rw [Option.mem_def.mp last] at stopped
  simpa using stopped

/-- A text is left as it is exactly if no unwanted character ends it. -/
theorem dropTrailing_eq_self_iff :
    dropTrailing unwanted text = text ↔ ∀ c ∈ text.getLast?, c ∉ unwanted := by
  constructor
  · intro kept c last
    rw [← kept] at last
    exact getLast?_dropTrailing last
  · intro ends
    refine List.rdropWhile_eq_self_iff.mpr fun nonempty => ?_
    simpa using ends _ (List.getLast?_eq_some_getLast nonempty)

end Text

/-! ### Cells and their text -/

section Cells

variable {tape : List Symbol} {blank : Symbol}

/-- Behind the used cells a tape is blank. -/
theorem exists_usedCells (tape : List Symbol) (blank : Symbol) :
    ∃ count, tape = usedCells tape blank ++ List.replicate count blank := by
  refine ⟨(tape.rtakeWhile (· == blank)).length, ?_⟩
  have blanks : tape.rtakeWhile (· == blank) =
      List.replicate (tape.rtakeWhile (· == blank)).length blank :=
    List.eq_replicate_of_mem fun symbol member => by simpa using List.mem_rtakeWhile_imp member
  rw [← blanks]
  exact List.rdropWhile_append_rtakeWhile.symm

/-- The last of the used cells is not blank. -/
theorem getLast?_usedCells {symbol : Symbol} (last : symbol ∈ (usedCells tape blank).getLast?) :
    symbol ≠ blank := by
  rw [usedCells, List.getLast?_reverse] at last
  have stopped := List.head?_dropWhile_not (· == blank) tape.reverse
  rw [Option.mem_def.mp last] at stopped
  simpa using stopped

/-- Nothing is shown of blank cells at the end. -/
theorem tapeText_append_blanks (cells : List Symbol) (blank : Symbol) (count : Nat) :
    tapeText (cells ++ List.replicate count blank) blank =
      String.ofList (dropTrailing blank.toList (cells.flatMap String.toList)) := by
  rw [tapeText, List.flatMap_append, dropTrailing_append]
  intro c member
  obtain ⟨symbol, isBlank, inside⟩ := List.mem_flatMap.mp member
  rwa [List.eq_of_mem_replicate isBlank] at inside

/-- The text of a tape is that of its used cells, without the characters of the blank at the
end. -/
theorem tapeText_eq_dropTrailing (tape : List Symbol) (blank : Symbol) :
    tapeText tape blank =
      String.ofList (dropTrailing blank.toList (cellText tape blank).toList) := by
  obtain ⟨count, cut⟩ := exists_usedCells tape blank
  rw [cellText, String.toList_ofList, ← tapeText_append_blanks _ _ count, ← cut]

/-- What the text of a tape tells of its cells. -/
structure TextTells (tape : List Symbol) (blank : Symbol) : Prop where
  /-- The used cells are those up to the last one that is not blank. -/
  used : ∃ count, tape = usedCells tape blank ++ List.replicate count blank
  last_ne : ∀ symbol ∈ (usedCells tape blank).getLast?, symbol ≠ blank
  /-- What is lost of their text are characters of the blank at its end, and all of those. -/
  lost : ∃ lost, (cellText tape blank).toList = (tapeText tape blank).toList ++ lost ∧
    ∀ c ∈ lost, c ∈ blank.toList
  ends : ∀ c ∈ (tapeText tape blank).toList.getLast?, c ∉ blank.toList
  /-- So nothing is lost exactly if no character of the blank ends the text of the used cells. -/
  eq_iff : tapeText tape blank = cellText tape blank ↔
    ∀ c ∈ (cellText tape blank).toList.getLast?, c ∉ blank.toList

/-- The text of every tape tells that of its cells. -/
theorem textTells (tape : List Symbol) (blank : Symbol) : TextTells tape blank where
  used := exists_usedCells tape blank
  last_ne _ := getLast?_usedCells
  lost := by
    rw [tapeText_eq_dropTrailing, String.toList_ofList]
    exact exists_dropTrailing _ _
  ends c last := by
    rw [tapeText_eq_dropTrailing, String.toList_ofList] at last
    exact getLast?_dropTrailing last
  eq_iff := by
    rw [← dropTrailing_eq_self_iff, tapeText_eq_dropTrailing, ← String.toList_inj,
      String.toList_ofList]

end Cells

/-! ### Machines none of whose symbols ends like the blank -/

namespace Definition

/-- A symbol stands on the tape of a machine at its start, or is written by one of its rules. -/
def Stores (definition : Definition) (symbol : Symbol) : Prop :=
  symbol ∈ definition.tape ∨
    ∃ rule ∈ definition.rules, rule.passthrough = false ∧ rule.write = symbol

/-- Every symbol that a machine stores ends in a character that is none of the blank's, unless it
is the blank. -/
def EndsVisibly (definition : Definition) : Prop :=
  ∀ symbol, definition.Stores symbol → symbol ≠ definition.blank →
    ∃ c ∈ symbol.toList.getLast?, c ∉ definition.blank.toList

/-- Different single characters do not end alike. -/
theorem endsVisibly_of_single {definition : Definition} (blank : definition.blank.length = 1)
    (single : ∀ symbol, definition.Stores symbol → symbol.length = 1) :
    definition.EndsVisibly := by
  intro symbol stored visible
  rw [← String.length_toList, List.length_eq_one_iff] at blank
  obtain ⟨b, isBlank⟩ := blank
  obtain ⟨c, isSymbol⟩ := List.length_eq_one_iff.mp
    (String.length_toList.trans (single symbol stored))
  refine ⟨c, by simp [isSymbol], fun member => visible ?_⟩
  rw [isBlank, List.mem_singleton] at member
  rw [← String.toList_inj, isSymbol, isBlank, member]

/-- A cell that a machine reaches holds a symbol that it stores, or the blank. -/
theorem stores_of_mem_reached {definition : Definition} {switches : Nat → Bool} {count : Nat}
    {symbol : Symbol} (member : symbol ∈ (definition.reached switches count).tape) :
    definition.Stores symbol ∨ symbol = definition.blank := by
  rcases (Config.madeOf_stage definition.rules definition.blank switches definition.initial
    count).cell symbol member with began | isBlank | written
  · exact (mem_tape_initial began).imp_left .inl
  · exact .inr isBlank
  · exact .inl (.inr written)

/-- At every moment that a machine reaches from its start, the text of its tape tells that of its
cells.  If every symbol that the machine stores ends in a character that is none of the blank's, it
is the text of the cells up to the last one that is not blank. -/
theorem textTells_reached (definition : Definition) (switches : Nat → Bool) (count : Nat) :
    TextTells (definition.reached switches count).tape.toList definition.blank ∧
      (definition.EndsVisibly →
        tapeText (definition.reached switches count).tape.toList definition.blank =
          cellText (definition.reached switches count).tape.toList definition.blank) := by
  have tells := textTells (definition.reached switches count).tape.toList definition.blank
  refine ⟨tells, fun endsVisibly => tells.eq_iff.mpr fun c last => ?_⟩
  obtain ⟨blanks, cut⟩ := tells.used
  rw [cellText, String.toList_ofList] at last
  -- The last character is that of the last used cell, which is no blank.
  cases lastCell : (usedCells (definition.reached switches count).tape.toList
      definition.blank).getLast? with
  | none =>
      rw [List.getLast?_eq_none_iff.mp lastCell] at last
      cases last
  | some symbol =>
      have visible := tells.last_ne symbol lastCell
      obtain ⟨before, split⟩ := List.getLast?_eq_some_iff.mp lastCell
      have stands : symbol ∈ (definition.reached switches count).tape := by
        rw [← Array.mem_toList_iff, cut, split]
        simp
      have stored := (stores_of_mem_reached stands).resolve_right visible
      obtain ⟨final, isLast, apart⟩ := endsVisibly symbol stored visible
      rw [split, List.flatMap_append, List.flatMap_singleton, List.getLast?_append,
        Option.mem_def.mp isLast] at last
      cases last
      exact apart

/-- A machine that writes one symbol in front of a blank. -/
def marker (blank mark : Symbol) : Definition where
  dialect := .structured
  rules := [⟨"s", "0", "t", mark, .right, false, none⟩, ⟨"t", blank, "t", blank, .stay, true, none⟩]
  tape := ["0"]
  start := "s"
  blank := blank

/-- It ends with the symbol and the blank on its tape. -/
theorem tape_marker {blank mark : Symbol} (apart : "0" ≠ blank) (visible : mark ≠ blank) :
    ((marker blank mark).reached (fun _ => false) 2).tape = #[mark, blank] := by
  simp [reached, Config.stage, marker, Table.ofDefinition, initial, Config.step,
    Table.lookup_ofRules, Table.scan, Table.firstFor, Rule.key, Config.scanned, Config.apply,
    Config.written, Config.writes, apart, visible]

/-- The symbols of a machine may be longer than its blank, as long as they do not end like it. -/
theorem textTells_reached_marker :
    (marker "__" "_a").EndsVisibly ∧
      tapeText ((marker "__" "_a").reached (fun _ => false) 2).tape.toList "__" = "_a" := by
  have endsVisibly : (marker "__" "_a").EndsVisibly := by
    rintro symbol (onTape | ⟨rule, known, passes, rfl⟩) visible
    · obtain rfl : symbol = "0" := by simpa [marker] using onTape
      exact ⟨'0', by simp, by simp [marker]⟩
    · rcases List.mem_cons.mp known with rfl | known
      · exact ⟨'a', by simp, by simp [marker]⟩
      · obtain rfl := List.mem_singleton.mp known
        cases passes
  have shown := (textTells_reached (marker "__" "_a") (fun _ => false) 2).2 endsVisibly
  refine ⟨endsVisibly, shown.trans ?_⟩
  rw [tape_marker (by decide) (by decide)]
  decide

/-- Of a symbol that ends in a character of the blank that character is lost, though the cell is
not blank; and nothing at all is left of one that has no other characters. -/
theorem tapeText_marker_cut :
    cellText ((marker "no" "go").reached (fun _ => false) 2).tape.toList "no" = "go" ∧
      tapeText ((marker "no" "go").reached (fun _ => false) 2).tape.toList "no" = "g" ∧
      cellText ((marker "no" "on").reached (fun _ => false) 2).tape.toList "no" = "on" ∧
      tapeText ((marker "no" "on").reached (fun _ => false) 2).tape.toList "no" = "" := by
  rw [tape_marker (by decide) (by decide), tape_marker (by decide) (by decide)]
  decide

end Definition

end TapeLab
