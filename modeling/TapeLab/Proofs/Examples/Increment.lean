import Mathlib.Tactic.Ring
import TapeLab.Proofs.Examples.Reading
import TapeLab.Proofs.Machine.Sweeping

/-!
# The machines that add one

Both bundled increment machines work in the same way (`Carries`): a state scans to the right end
of the word, and another one goes back with the carry, turns ones into zeros and puts it down at
the first zero (`ends_of_zero`).  The left end of the tape holds the head back, so a word of ones
only loses its carry there: the head meets the zero that it has just written, and the first
digit becomes a one (`ends_of_ones`).  The number on the tape is greater by one exactly if there
is a zero in the word (`leavesNumber_increment`).
-/

namespace TapeLab.Examples

open Textbook

/-! ### The machines -/

/-- The machine that the classic source declares. -/
def classicIncrementMachine : Definition where
  dialect := .classic
  rules :=
    [⟨"q0", "0", "q0", "0", .right, false, some 3⟩,
     ⟨"q0", "1", "q0", "1", .right, false, some 4⟩,
     ⟨"q0", "_", "q1", "_", .left, false, some 5⟩,
     ⟨"q1", "0", "q2", "1", .stay, false, some 6⟩,
     ⟨"q1", "1", "q1", "0", .left, false, some 7⟩,
     ⟨"q1", "_", "q2", "1", .stay, false, some 8⟩,
     ⟨"q2", "_", "q2", "_", .stay, false, some 9⟩]
  tape := ["0", "0", "0", "1"]
  start := "q0"

/-- The machine that the structured source declares. -/
def structuredIncrementMachine : Definition where
  dialect := .structured
  rules :=
    [⟨"right", "0", "right", "0", .right, true, some 8⟩,
     ⟨"right", "1", "right", "1", .right, true, some 8⟩,
     ⟨"right", "_", "carry", "_", .left, true, some 9⟩,
     ⟨"carry", "1", "carry", "0", .left, false, some 12⟩,
     ⟨"carry", "0", "done", "1", .stay, false, some 13⟩,
     ⟨"carry", "_", "done", "1", .stay, false, some 13⟩]
  tape := ["1", "0", "1", "1"]
  start := "right"

/-- The classic source is read as its machine. -/
theorem read_binaryIncrement : Source.read binaryIncrement = classicIncrementMachine := by
  rw [binaryIncrement]
  apply read_unlines
  · repeat constructor
  · decide +kernel
  · decide +kernel

/-- The structured source is read as its machine. -/
theorem read_structuredIncrement :
    Source.read structuredIncrement = structuredIncrementMachine := by
  rw [structuredIncrement]
  apply read_unlines
  · repeat constructor
  · decide +kernel
  · decide +kernel

/-! ### Words of bits -/

/-- The digit of a bit. -/
def bitChar : Bool → Char
  | false => '0'
  | true => '1'

/-- The symbol of a bit on the tape. -/
def bitSymbol : Bool → Symbol
  | false => "0"
  | true => "1"

/-- The number that bits name, the first one weighing most. -/
def bitsValue (word : List Bool) : Nat :=
  word.foldl (fun number bit => 2 * number + bit.toNat) 0

/-- The bit of a digit. -/
def bitOfChar? (c : Char) : Option Bool :=
  if c = '0' then some false else if c = '1' then some true else none

/-- The number that a text of binary digits names; no other text names one. -/
def binaryNumber? (text : String) : Option Nat :=
  if text.isEmpty then none else (text.toList.mapM bitOfChar?).map bitsValue

variable {word front rest : List Bool} {bit : Bool}

theorem toList_bitSymbol (bit : Bool) : (bitSymbol bit).toList = [bitChar bit] := by
  cases bit <;> decide

/-- Bits after others weigh less. -/
theorem bitsValue_append (front rest : List Bool) :
    bitsValue (front ++ rest) = bitsValue front * 2 ^ rest.length + bitsValue rest := by
  induction rest using List.reverseRecOn with
  | nil => simp [bitsValue]
  | append_singleton rest bit inductionHypothesis =>
      have last (word : List Bool) : bitsValue (word ++ [bit]) = 2 * bitsValue word + bit.toNat := by
        simp [bitsValue]
      rw [← List.append_assoc, last, last, inductionHypothesis, List.length_append,
        List.length_singleton, Nat.pow_succ]
      ring

/-- The first bit weighs most. -/
theorem bitsValue_cons (bit : Bool) (rest : List Bool) :
    bitsValue (bit :: rest) = bit.toNat * 2 ^ rest.length + bitsValue rest := by
  have first : bitsValue [bit] = bit.toNat := by simp [bitsValue]
  rw [← List.singleton_append, bitsValue_append, first]

/-- Zeros alone are nothing. -/
theorem bitsValue_zeros (count : Nat) : bitsValue (List.replicate count false) = 0 := by
  induction count with
  | zero => rfl
  | succ count inductionHypothesis =>
      simp [List.replicate_succ, bitsValue_cons, inductionHypothesis]

/-- Ones alone are one less than a power of two. -/
theorem bitsValue_ones (count : Nat) : bitsValue (List.replicate count true) + 1 = 2 ^ count := by
  induction count with
  | zero => rfl
  | succ count inductionHypothesis =>
      rw [List.replicate_succ, bitsValue_cons, List.length_replicate, Bool.toNat_true, Nat.pow_succ]
      omega

/-- A text of the digits of a word names the number that the word names. -/
theorem binaryNumber?_digits (nonempty : word ≠ []) :
    binaryNumber? (String.ofList (word.map bitChar)) = some (bitsValue word) := by
  have read : (word.map bitChar).mapM bitOfChar? = some word := by
    clear nonempty
    induction word with
    | nil => rfl
    | cons bit word inductionHypothesis =>
        have first : bitOfChar? (bitChar bit) = some bit := by cases bit <;> decide
        simp [first, inductionHypothesis]
  have visible : (String.ofList (word.map bitChar)).isEmpty = false := by
    simpa [String.isEmpty_iff] using nonempty
  rw [binaryNumber?, visible, String.toList_ofList, read]
  rfl

/-- A word ends with ones after its last zero, or it has ones only. -/
theorem exists_last_zero (word : List Bool) :
    (∃ front count, word = front ++ false :: List.replicate count true) ∨
      word = List.replicate word.length true := by
  induction word using List.reverseRecOn with
  | nil => exact .inr rfl
  | append_singleton word bit inductionHypothesis =>
      cases bit with
      | false => exact .inl ⟨word, 0, rfl⟩
      | true =>
          rcases inductionHypothesis with ⟨front, count, rfl⟩ | ones
          · refine .inl ⟨front, count + 1, ?_⟩
            rw [List.append_assoc, List.cons_append, List.replicate_succ']
          · right
            rw [List.length_append, List.length_singleton, List.replicate_succ', ← ones]

/-! ### Carrying -/

/-- Rules by which one state scans to the right end of a word and another goes back from there
with a carry. -/
structure Carries (rules : List Rule) (scan carry done : StateName) : Prop where
  scans : ∀ bit, PassesOver rules "_" scan .right (bitSymbol bit)
  turns : Acts rules "_" scan "_" "_" .left carry
  carries : Acts rules "_" carry (bitSymbol true) (bitSymbol false) .left carry
  settles : Acts rules "_" carry (bitSymbol false) (bitSymbol true) .stay done

/-- The cells of a tape on which a word stands. -/
def bitCells (word : List Bool) : Nat → Symbol := fun place =>
  (word[place]?.map bitSymbol).getD "_"

/-- The bit at a place of a word. -/
theorem bitCells_middle (front rest : List Bool) (bit : Bool) :
    bitCells (front ++ bit :: rest) front.length = bitSymbol bit := by
  simp [bitCells]

/-- Another bit at a place of a word. -/
theorem put_bitCells (front rest : List Bool) (old new : Bool) :
    put (bitCells (front ++ old :: rest)) front.length (bitSymbol new) =
      bitCells (front ++ new :: rest) := by
  funext place
  rcases Nat.lt_trichotomy place front.length with before | rfl | after
  · simp [put, bitCells, List.getElem?_append_left before, Nat.ne_of_lt before]
  · simp [put, bitCells]
  · obtain ⟨more, rfl⟩ := Nat.exists_eq_add_of_lt after
    simp [put, bitCells, List.getElem?_append_right, Nat.add_assoc]

variable {rules : List Rule} {scan carry done : StateName} {writeBlank : Bool}

/-- The right end of the word is found, and the head goes back by one cell. -/
theorem Carries.comes_turned (rule : Carries rules scan carry done) (word : List Bool) :
    Comes rules "_" writeBlank ⟨scan, 0, bitCells word⟩
      ⟨carry, word.length - 1, bitCells word⟩ := by
  have scans : Comes rules "_" writeBlank ⟨scan, 0, bitCells word⟩
      ⟨scan, word.length, bitCells word⟩ := by
    refine comes_right (Nat.zero_le _) fun place _ before => ?_
    rw [bitCells, List.getElem?_eq_getElem before]
    exact rule.scans _
  have blank : bitCells word word.length = "_" := by simp [bitCells]
  have turns : Comes rules "_" writeBlank ⟨scan, word.length, bitCells word⟩
      (Stance.after (bitCells word word.length) .left carry
        ⟨scan, word.length, bitCells word⟩) :=
    comes_of_acts blank (blank ▸ rule.turns) (by decide)
  simp only [Stance.after, put_self] at turns
  exact scans.trans turns

/-- The carry goes back over ones, which become zeros. -/
theorem Carries.comes_carried (rule : Carries rules scan carry done) (front : List Bool)
    (count : Nat) (rest : List Bool) :
    Comes rules "_" writeBlank
      ⟨carry, front.length + count - 1, bitCells (front ++ (List.replicate count true ++ rest))⟩
      ⟨carry, front.length - 1, bitCells (front ++ (List.replicate count false ++ rest))⟩ := by
  induction count generalizing rest with
  | zero => exact .refl _
  | succ count inductionHypothesis =>
      -- The last of the ones is met first.
      let others := front ++ List.replicate count true
      have place : front.length + (count + 1) - 1 = others.length := by
        simp [others, ← Nat.add_assoc]
      have before : front ++ (List.replicate (count + 1) true ++ rest) =
          others ++ true :: rest := by
        simp [others, List.replicate_succ']
      have carries : Comes rules "_" writeBlank
          ⟨carry, others.length, bitCells (others ++ true :: rest)⟩
          (Stance.after (bitSymbol false) .left carry
            ⟨carry, others.length, bitCells (others ++ true :: rest)⟩) :=
        comes_of_acts (bitCells_middle _ _ _) rule.carries (by decide)
      simp only [Stance.after, moved, put_bitCells] at carries
      have further : Comes rules "_" writeBlank
          ⟨carry, others.length - 1, bitCells (others ++ false :: rest)⟩
          ⟨carry, front.length - 1,
            bitCells (front ++ (List.replicate (count + 1) false ++ rest))⟩ := by
        simpa [others, List.replicate_succ'] using inductionHypothesis (false :: rest)
      rw [place, before]
      exact carries.trans further

/-- The carry is put down at a zero. -/
theorem Carries.ends_settled (rule : Carries rules scan carry done) (front rest : List Bool) :
    Ends rules "_" writeBlank ⟨carry, front.length, bitCells (front ++ false :: rest)⟩
      ⟨done, front.length, bitCells (front ++ true :: rest)⟩ := by
  have settles : Ends rules "_" writeBlank
      ⟨carry, front.length, bitCells (front ++ false :: rest)⟩
      (Stance.after (bitSymbol true) .stay done
        ⟨carry, front.length, bitCells (front ++ false :: rest)⟩) :=
    ends_of_acts (bitCells_middle _ _ _) rule.settles
  simpa only [Stance.after, moved, put_bitCells] using settles

/-- A word with a zero in it: the last zero becomes a one, and the ones after it zeros. -/
theorem Carries.ends_of_zero (rule : Carries rules scan carry done) (front : List Bool)
    (count : Nat) :
    Ends rules "_" writeBlank
      ⟨scan, 0, bitCells (front ++ false :: List.replicate count true)⟩
      ⟨done, front.length, bitCells (front ++ true :: List.replicate count false)⟩ := by
  have carried : Comes rules "_" writeBlank
      ⟨carry, (front ++ false :: List.replicate count true).length - 1,
        bitCells (front ++ false :: List.replicate count true)⟩
      ⟨carry, front.length, bitCells (front ++ false :: List.replicate count false)⟩ := by
    have same : Comes rules "_" writeBlank _ _ := rule.comes_carried (front ++ [false]) count []
    simpa [Nat.add_right_comm, ← Nat.add_assoc] using same
  exact ((rule.comes_turned _).trans carried).ends (rule.ends_settled front _)

/-- A word of ones: all of them become zeros, and the first one, on which the head is held back,
a one again. -/
theorem Carries.ends_of_ones (rule : Carries rules scan carry done) (count : Nat) :
    Ends rules "_" writeBlank ⟨scan, 0, bitCells (List.replicate (count + 1) true)⟩
      ⟨done, 0, bitCells (true :: List.replicate count false)⟩ := by
  have carried : Comes rules "_" writeBlank
      ⟨carry, (List.replicate (count + 1) true).length - 1,
        bitCells (List.replicate (count + 1) true)⟩
      ⟨carry, 0, bitCells (false :: List.replicate count false)⟩ := by
    have same : Comes rules "_" writeBlank _ _ := rule.comes_carried [] (count + 1) []
    simpa [List.replicate_succ] using same
  exact ((rule.comes_turned _).trans carried).ends (rule.ends_settled [] _)

/-- The number that is left of a word: the next one, unless there is no zero to take the carry. -/
def carriedValue (word : List Bool) : Nat :=
  if false ∈ word then bitsValue word + 1 else 2 ^ (word.length - 1)

/-- The number that is left is the next one exactly if there is a zero. -/
theorem carriedValue_eq_iff (nonempty : word ≠ []) :
    carriedValue word = bitsValue word + 1 ↔ false ∈ word := by
  by_cases zero : false ∈ word
  · simp [carriedValue, zero]
  · have ones : word = List.replicate word.length true :=
      List.eq_replicate_of_mem fun bit member => by
        cases bit with
        | false => exact absurd member zero
        | true => rfl
    have value := bitsValue_ones word.length
    rw [← ones] at value
    have smaller : 2 ^ (word.length - 1) < 2 ^ word.length := by
      have positive := List.length_pos_iff.mpr nonempty
      exact Nat.pow_lt_pow_right (by decide) (by omega)
    simp only [carriedValue, zero, if_false, value, iff_false]
    omega

/-- On every word that is not empty the run ends with bits that name that number. -/
theorem Carries.ends (rule : Carries rules scan carry done) (nonempty : word ≠ []) :
    ∃ place sum, sum ≠ [] ∧ bitsValue sum = carriedValue word ∧
      Ends rules "_" writeBlank ⟨scan, 0, bitCells word⟩ ⟨done, place, bitCells sum⟩ := by
  rcases exists_last_zero word with ⟨front, count, rfl⟩ | ones
  · refine ⟨_, _, by simp, ?_, rule.ends_of_zero front count⟩
    have zero : false ∈ front ++ false :: List.replicate count true := by simp
    have next : bitsValue (true :: List.replicate count false) =
        bitsValue (false :: List.replicate count true) + 1 := by
      simp [bitsValue_cons, bitsValue_zeros, bitsValue_ones]
    rw [carriedValue, if_pos zero, bitsValue_append, bitsValue_append, next]
    simp only [List.length_cons, List.length_replicate, Nat.add_assoc]
  · obtain ⟨count, length⟩ : ∃ count, word.length = count + 1 :=
      Nat.exists_eq_succ_of_ne_zero (by simpa using nonempty)
    rw [length] at ones
    subst ones
    refine ⟨_, _, by simp, ?_, rule.ends_of_ones count⟩
    have noZero : false ∉ List.replicate (count + 1) true := by simp
    simp [carriedValue, noZero, bitsValue_cons, bitsValue_zeros]

/-! ### Runs -/

/-- A machine that is set to work on a word. -/
def onBits (machine : Definition) (word : List Bool) : Config :=
  { machine.initial with tape := (word.map bitSymbol).toArray }

/-- A machine halts on a word after finitely many steps, and the text of its tape names a
number. -/
def LeavesNumber (machine : Definition) (writeBlank : Bool) (word : List Bool) (number : Nat) :
    Prop :=
  ∃ count final, final.status = .halted ∧
    binaryNumber? (tapeText final.tape.toList machine.blank) = some number ∧
    ∀ cap, count ≤ cap →
      (onBits machine word).run? (Table.ofDefinition machine) writeBlank cap = some final ∧
        (onBits machine word).runToEnd? (Table.ofDefinition machine) writeBlank cap = some final

/-- A machine leaves one number at most. -/
theorem LeavesNumber.unique {machine : Definition} {first second : Nat}
    (leaves : LeavesNumber machine writeBlank word first)
    (again : LeavesNumber machine writeBlank word second) : first = second := by
  obtain ⟨count, final, -, named, runs⟩ := leaves
  obtain ⟨more, other, -, namedToo, runsToo⟩ := again
  have same : final = other := Option.some.inj
    ((runs _ (Nat.le_max_left count more)).1.symm.trans (runsToo _ (Nat.le_max_right count more)).1)
  subst same
  exact Option.some.inj (named.symm.trans namedToo)

/-- A machine that leaves the carried number leaves the next one exactly if there is a zero. -/
theorem LeavesNumber.next_iff {machine : Definition}
    (leaves : LeavesNumber machine writeBlank word (carriedValue word)) (nonempty : word ≠ []) :
    LeavesNumber machine writeBlank word (bitsValue word + 1) ↔ false ∈ word := by
  rw [← carriedValue_eq_iff nonempty]
  exact ⟨fun next => leaves.unique next, fun same => same ▸ leaves⟩

/-- A stored tape that shows a word has its digits as text. -/
theorem tapeText_bits {tape : Array Symbol} (nonempty : word ≠ [])
    (shows : ∀ index, tape.getD index "_" = bitCells word index) :
    tapeText tape.toList "_" = String.ofList (word.map bitChar) := by
  have digits : (word.map bitSymbol).flatMap String.toList = word.map bitChar := by
    rw [List.flatMap_map, List.map_eq_flatMap]
    simp only [toList_bitSymbol]
  have visible (bit : Bool) : bitSymbol bit ≠ "_" ∧ bitChar bit ∉ "_".toList := by
    cases bit <;> decide
  rw [← digits]
  apply tapeText_of_cells
  · intro index
    rw [shows, bitCells, List.getD_eq_getElem?_getD, List.getElem?_map]
  · -- The last bit is no blank, so its cell is stored.
    rw [List.length_map]
    by_contra short
    have last : word.length - 1 < word.length := by
      have positive := List.length_pos_iff.mpr nonempty
      omega
    have shown := shows (word.length - 1)
    rw [bitCells, List.getElem?_eq_getElem last, Array.getD_eq_getD_getElem?,
      Array.getElem?_eq_none (by omega)] at shown
    exact (visible _).1 shown.symm
  · rw [digits]
    intro c last
    obtain ⟨bit, -, rfl⟩ := List.mem_map.mp (List.mem_of_getLast? last)
    exact (visible bit).2

/-- A machine whose rules carry leaves the carried number of every word. -/
theorem Carries.leavesNumber {machine : Definition} (blank : machine.blank = "_")
    (rule : Carries machine.rules machine.start carry done) (nonempty : word ≠ []) :
    LeavesNumber machine writeBlank word (carriedValue word) := by
  obtain ⟨place, sum, someBits, value, ends⟩ := rule.ends nonempty
  have onTape : (onBits machine word).OnTape := by
    simpa [onBits, Definition.initial, Config.OnTape, List.length_pos_iff] using nonempty
  have stands : view "_" (onBits machine word) =
      Stance.snapshot ⟨machine.start, 0, bitCells word⟩ 0 := by
    have cells : (fun index => (onBits machine word).tape.getD index "_") = bitCells word := by
      funext index
      simp [onBits, bitCells, Array.getD_eq_getD_getElem?]
    simp only [view, cells]
    rfl
  obtain ⟨count, final, halted, -, shows, runs⟩ := exists_run_of_ends onTape stands ends
  rw [LeavesNumber, Table.ofDefinition, blank]
  refine ⟨count, final, halted, ?_, runs⟩
  rw [tapeText_bits someBits shows, binaryNumber?_digits someBits, value]

/-- The rules of the classic machine carry. -/
theorem carries_classic : Carries classicIncrementMachine.rules "q0" "q1" "q2" where
  scans bit := by cases bit <;> decide
  turns := by decide
  carries := by decide
  settles := by decide

/-- So do those of the structured machine. -/
theorem carries_structured : Carries structuredIncrementMachine.rules "right" "carry" "done" where
  scans bit := by cases bit <;> decide
  turns := by decide
  carries := by decide
  settles := by decide

/-- Both bundled increment machines halt on every word that is not empty, whether or not they may
write the blank, and leave a number.  It is the next one exactly if there is a zero in the word; a
word of ones loses its carry at the left end and becomes a one followed by zeros. -/
theorem leavesNumber_increment (word : List Bool) (nonempty : word ≠ []) (writeBlank : Bool) :
    LeavesNumber (Source.read binaryIncrement) writeBlank word
        (if false ∈ word then bitsValue word + 1 else 2 ^ (word.length - 1)) ∧
      LeavesNumber (Source.read structuredIncrement) writeBlank word
        (if false ∈ word then bitsValue word + 1 else 2 ^ (word.length - 1)) ∧
      (LeavesNumber (Source.read binaryIncrement) writeBlank word (bitsValue word + 1) ↔
        false ∈ word) ∧
      (LeavesNumber (Source.read structuredIncrement) writeBlank word (bitsValue word + 1) ↔
        false ∈ word) := by
  rw [read_binaryIncrement, read_structuredIncrement, ← carriedValue]
  have classic : LeavesNumber classicIncrementMachine writeBlank word (carriedValue word) :=
    carries_classic.leavesNumber rfl nonempty
  have structured : LeavesNumber structuredIncrementMachine writeBlank word (carriedValue word) :=
    carries_structured.leavesNumber rfl nonempty
  exact ⟨classic, structured, classic.next_iff nonempty, structured.next_iff nonempty⟩

/-- The carry goes over two ones to the zero before them: eleven becomes twelve. -/
theorem leavesNumber_increment_eleven :
    [true, false, true, true] ≠ [] ∧
      LeavesNumber (Source.read binaryIncrement) false [true, false, true, true] 12 ∧
      LeavesNumber (Source.read structuredIncrement) false [true, false, true, true] 12 := by
  have nonempty : [true, false, true, true] ≠ [] := by decide
  obtain ⟨classic, structured, -, -⟩ :=
    leavesNumber_increment [true, false, true, true] nonempty false
  exact ⟨nonempty, classic, structured⟩

/-- A single one has no zero before it to take the carry, so one stays one. -/
theorem carry_of_one_lost :
    bitsValue [true] + 1 = 2 ∧
      LeavesNumber (Source.read binaryIncrement) false [true] 1 ∧
      ¬LeavesNumber (Source.read binaryIncrement) false [true] 2 ∧
      LeavesNumber (Source.read structuredIncrement) false [true] 1 ∧
      ¬LeavesNumber (Source.read structuredIncrement) false [true] 2 := by
  have classic : LeavesNumber (Source.read binaryIncrement) false [true] 1 := by
    rw [read_binaryIncrement]
    exact carries_classic.leavesNumber rfl (List.cons_ne_nil true [])
  have structured : LeavesNumber (Source.read structuredIncrement) false [true] 1 := by
    rw [read_structuredIncrement]
    exact carries_structured.leavesNumber rfl (List.cons_ne_nil true [])
  refine ⟨rfl, classic, fun next => ?_, structured, fun next => ?_⟩
  · exact absurd (classic.unique next) (by decide)
  · exact absurd (structured.unique next) (by decide)

end TapeLab.Examples
