import TapeLab.Proofs.Examples.Reading
import TapeLab.Proofs.Machine.Sweeping

/-!
# The palindrome machine

The bundled palindrome machine marks the first unmarked letter of its word, carries it to the
right end, compares it with the last unmarked letter, marks that too and returns.  So the
letters that are still unmarked stand between two places, and those outside match each other
(`Matched`).  A round narrows the unmarked part by a letter on either side (`comes_carried`,
`comes_returned`), and by induction on its length the machine ends with the right verdict
(`endsSaying_verdict`).
-/

namespace TapeLab.Examples

open Textbook

/-- The rules of a bundled source, read from the characters of its lines. -/
theorem rules_unlines {parts : List String} {spelled : List (List Char)} {rules : List Rule}
    (same : List.Forall₂ (fun part line => part = String.ofList line) parts spelled)
    (whole : ∀ line ∈ spelled, Text.Unbroken line)
    (read : (((Text.numberFrom 1 spelled).map fun line =>
      Classic.readLine line.1 line.2).filterMap Classic.Reading.rule?) = rules) :
    (Classic.read (unlines parts)).rules = rules := by
  simp only [Classic.read, Classic.readings, lines_unlines same whole, read]

/-! ### The rules -/

/-- The rules that the source of the palindrome machine declares. -/
def palindromeRules : List Rule :=
  [⟨"q0", "a", "q1", "X", .right, false, some 3⟩,
   ⟨"q0", "b", "q2", "X", .right, false, some 4⟩,
   ⟨"q0", "X", "accept", "X", .stay, false, some 5⟩,
   ⟨"q0", "_", "accept", "_", .stay, false, some 6⟩,
   ⟨"q1", "a", "q1", "a", .right, false, some 8⟩,
   ⟨"q1", "b", "q1", "b", .right, false, some 9⟩,
   ⟨"q1", "X", "q3", "X", .left, false, some 10⟩,
   ⟨"q1", "_", "q3", "_", .left, false, some 11⟩,
   ⟨"q2", "a", "q2", "a", .right, false, some 13⟩,
   ⟨"q2", "b", "q2", "b", .right, false, some 14⟩,
   ⟨"q2", "X", "q4", "X", .left, false, some 15⟩,
   ⟨"q2", "_", "q4", "_", .left, false, some 16⟩,
   ⟨"q3", "a", "q5", "X", .left, false, some 18⟩,
   ⟨"q3", "b", "reject", "b", .stay, false, some 19⟩,
   ⟨"q3", "X", "accept", "X", .stay, false, some 20⟩,
   ⟨"q4", "b", "q5", "X", .left, false, some 21⟩,
   ⟨"q4", "a", "reject", "a", .stay, false, some 22⟩,
   ⟨"q4", "X", "accept", "X", .stay, false, some 23⟩,
   ⟨"q5", "a", "q5", "a", .left, false, some 25⟩,
   ⟨"q5", "b", "q5", "b", .left, false, some 26⟩,
   ⟨"q5", "X", "q0", "X", .right, false, some 27⟩,
   ⟨"accept", "_", "accept", "_", .stay, false, some 28⟩,
   ⟨"reject", "_", "reject", "_", .stay, false, some 29⟩]

/-- Those are the rules that are read from it. -/
theorem rules_palindrome : (Classic.read palindrome).rules = palindromeRules := by
  rw [palindrome]
  apply rules_unlines
  · repeat constructor
  · decide +kernel
  · decide +kernel

/-- The letters of the words that the machine judges. -/
inductive Letter where
  | a
  | b
  deriving DecidableEq

namespace Letter

/-- The symbol of a letter on the tape. -/
def symbol : Letter → Symbol
  | .a => "a"
  | .b => "b"

/-- The state that carries a letter to the right end. -/
def carrier : Letter → StateName
  | .a => "q1"
  | .b => "q2"

/-- The state that compares the last letter with the one it carried. -/
def matcher : Letter → StateName
  | .a => "q3"
  | .b => "q4"

end Letter

/-- A symbol at which a sweep turns: a letter that was marked, or the blank after the word. -/
def IsEdge (symbol : Symbol) : Prop :=
  symbol = "X" ∨ symbol = "_"

theorem acts_mark (letter : Letter) :
    Acts palindromeRules "_" "q0" letter.symbol "X" .right letter.carrier := by
  cases letter <;> decide

theorem acts_done {symbol : Symbol} (edge : IsEdge symbol) :
    Acts palindromeRules "_" "q0" symbol symbol .stay "accept" := by
  rcases edge with rfl | rfl <;> decide

theorem passesOver_carry (letter other : Letter) :
    PassesOver palindromeRules "_" letter.carrier .right other.symbol := by
  cases letter <;> cases other <;> decide

theorem acts_turn (letter : Letter) {symbol : Symbol} (edge : IsEdge symbol) :
    Acts palindromeRules "_" letter.carrier symbol symbol .left letter.matcher := by
  rcases edge with rfl | rfl <;> cases letter <;> decide

theorem acts_match (letter : Letter) :
    Acts palindromeRules "_" letter.matcher letter.symbol "X" .left "q5" := by
  cases letter <;> decide

theorem acts_mismatch {letter other : Letter} (differ : other ≠ letter) :
    Acts palindromeRules "_" letter.matcher other.symbol other.symbol .stay "reject" := by
  cases letter <;> cases other <;> first | exact absurd rfl differ | decide

theorem acts_alone (letter : Letter) :
    Acts palindromeRules "_" letter.matcher "X" "X" .stay "accept" := by
  cases letter <;> decide

theorem passesOver_return (letter : Letter) :
    PassesOver palindromeRules "_" "q5" .left letter.symbol := by
  cases letter <;> decide

theorem acts_arrive : Acts palindromeRules "_" "q5" "X" "X" .right "q0" := by
  decide

/-! ### The tape -/

/-- The cells of a word whose letters are unmarked from one place to another. -/
def cells (word : List Letter) (left right : Nat) : Nat → Symbol := fun place =>
  if left ≤ place ∧ place < right then (word[place]?.map Letter.symbol).getD "_"
  else if place < word.length then "X" else "_"

variable {word : List Letter} {left right place : Nat} {letter : Letter}

/-- An unmarked cell holds its letter. -/
theorem cells_unmarked (found : word[place]? = some letter) (from_le : left ≤ place)
    (lt : place < right) : cells word left right place = letter.symbol := by
  simp [cells, from_le, lt, found]

/-- Every other cell is an edge. -/
theorem isEdge_cells (outside : place < left ∨ right ≤ place) :
    IsEdge (cells word left right place) := by
  have marked : ¬(left ≤ place ∧ place < right) := by omega
  simp only [cells, if_neg marked]
  split
  · exact .inl rfl
  · exact .inr rfl

/-- A cell of the word that is not unmarked is marked. -/
theorem cells_marked (outside : place < left ∨ right ≤ place) (lt : place < word.length) :
    cells word left right place = "X" := by
  have marked : ¬(left ≤ place ∧ place < right) := by omega
  simp [cells, marked, lt]

/-- Marking the first unmarked letter. -/
theorem put_cells_first (lt : left < right) (le : right ≤ word.length) :
    put (cells word left right) left "X" = cells word (left + 1) right := by
  funext index
  rcases Nat.lt_trichotomy index left with before | rfl | after
  · rw [put, if_neg (by omega), cells_marked (.inl before) (by omega),
      cells_marked (.inl (by omega)) (by omega)]
  · rw [put, if_pos rfl, cells_marked (.inl (by omega)) (by omega)]
  · have same : (left ≤ index ∧ index < right) = (left + 1 ≤ index ∧ index < right) := by
      apply propext
      omega
    simp only [put, if_neg (show index ≠ left by omega), cells, same]

/-- Marking the last unmarked letter. -/
theorem put_cells_last (lt : left < right) (le : right ≤ word.length) :
    put (cells word left right) (right - 1) "X" = cells word left (right - 1) := by
  funext index
  by_cases last : index = right - 1
  · subst last
    rw [put, if_pos rfl, cells_marked (.inr (Nat.le_refl _)) (by omega)]
  · have same : (left ≤ index ∧ index < right) = (left ≤ index ∧ index < right - 1) := by
      apply propext
      omega
    simp only [put, if_neg last, cells, same]

/-! ### Matching letters -/

/-- The letters before a place are those that stand as far from the end. -/
def Matched (word : List Letter) (count : Nat) : Prop :=
  ∀ place < count, word[place]? = word[word.length - 1 - place]?

/-- One pair of letters more matches. -/
theorem Matched.succ {count : Nat} (matched : Matched word count)
    (same : word[count]? = word[word.length - 1 - count]?) : Matched word (count + 1) := by
  intro place lt
  rcases Nat.lt_succ_iff_lt_or_eq.mp lt with before | rfl
  · exact matched place before
  · exact same

/-- A word is its own reverse if its letters match up to the middle. -/
theorem eq_reverse_of_matched {count : Nat} (matched : Matched word count)
    (enough : word.length ≤ 2 * count + 1) : word = word.reverse := by
  apply List.ext_getElem?
  intro place
  by_cases inside : place < word.length
  · rw [List.getElem?_reverse inside]
    by_cases half : place < count
    · exact matched place half
    · by_cases middle : word.length - 1 - place = place
      · rw [middle]
      · have mirrored := matched (word.length - 1 - place) (by omega)
        rw [mirrored]
        congr 1
        omega
  · rw [List.getElem?_eq_none (by omega), List.getElem?_eq_none (by simp; omega)]

/-- A letter that does not match shows that a word is not its own reverse. -/
theorem ne_reverse_of_mismatch (lt : place < word.length)
    (differ : word[place]? ≠ word[word.length - 1 - place]?) : word ≠ word.reverse := by
  intro same
  have mirrored : word.reverse[place]? = word[word.length - 1 - place]? :=
    List.getElem?_reverse lt
  rw [← same] at mirrored
  exact differ mirrored

/-! ### Rounds -/

variable {writeBlank : Bool}

/-- The first unmarked letter is marked and carried to the last unmarked one. -/
theorem comes_carried (found : word[left]? = some letter) (lt : left < right)
    (le : right ≤ word.length) :
    Comes palindromeRules "_" writeBlank ⟨"q0", left, cells word left right⟩
      ⟨letter.matcher, right - 1, cells word (left + 1) right⟩ := by
  have unmarked : cells word left right left = letter.symbol :=
    cells_unmarked found (Nat.le_refl _) lt
  have marks : Comes palindromeRules "_" writeBlank ⟨"q0", left, cells word left right⟩
      (Stance.after "X" .right letter.carrier ⟨"q0", left, cells word left right⟩) :=
    comes_of_acts unmarked (acts_mark letter) (by decide)
  simp only [Stance.after, moved, put_cells_first lt le] at marks
  have carries : Comes palindromeRules "_" writeBlank
      ⟨letter.carrier, left + 1, cells word (left + 1) right⟩
      ⟨letter.carrier, right, cells word (left + 1) right⟩ := by
    refine comes_right lt fun place after before => ?_
    have inside : place < word.length := by omega
    rw [cells_unmarked (List.getElem?_eq_getElem inside) after before]
    exact passesOver_carry letter _
  have turns : Comes palindromeRules "_" writeBlank
      ⟨letter.carrier, right, cells word (left + 1) right⟩
      (Stance.after (cells word (left + 1) right right) .left letter.matcher
        ⟨letter.carrier, right, cells word (left + 1) right⟩) :=
    comes_of_acts rfl (acts_turn letter (isEdge_cells (.inr (Nat.le_refl _)))) (by decide)
  simp only [Stance.after, put_self] at turns
  exact marks.trans (carries.trans turns)

/-- If the last unmarked letter matches, it is marked too and the head returns. -/
theorem comes_returned (found : word[right - 1]? = some letter) (lt : left + 1 < right)
    (le : right ≤ word.length) :
    Comes palindromeRules "_" writeBlank ⟨letter.matcher, right - 1, cells word (left + 1) right⟩
      ⟨"q0", left + 1, cells word (left + 1) (right - 1)⟩ := by
  have unmarked : cells word (left + 1) right (right - 1) = letter.symbol :=
    cells_unmarked found (by omega) (by omega)
  have marks : Comes palindromeRules "_" writeBlank
      ⟨letter.matcher, right - 1, cells word (left + 1) right⟩
      (Stance.after "X" .left "q5" ⟨letter.matcher, right - 1, cells word (left + 1) right⟩) :=
    comes_of_acts unmarked (acts_match letter) (by decide)
  simp only [Stance.after, moved, put_cells_last lt le] at marks
  have returns : Comes palindromeRules "_" writeBlank
      ⟨"q5", right - 1 - 1, cells word (left + 1) (right - 1)⟩
      ⟨"q5", left, cells word (left + 1) (right - 1)⟩ := by
    refine comes_left (by omega) fun place after before => ?_
    have inside : place < word.length := by omega
    rw [cells_unmarked (List.getElem?_eq_getElem inside) after (by omega)]
    exact passesOver_return _
  have marked : cells word (left + 1) (right - 1) left = "X" :=
    cells_marked (.inl (Nat.lt_succ_self left)) (by omega)
  have arrives : Comes palindromeRules "_" writeBlank
      ⟨"q5", left, cells word (left + 1) (right - 1)⟩
      (Stance.after "X" .right "q0" ⟨"q5", left, cells word (left + 1) (right - 1)⟩) :=
    comes_of_acts marked acts_arrive (by decide)
  rw [← marked] at arrives
  simp only [Stance.after, put_self] at arrives
  exact marks.trans (returns.trans arrives)

/-- What the machine says of a word. -/
def verdict (word : List Letter) : StateName :=
  if word = word.reverse then "accept" else "reject"

/-- The machine ends with a verdict. -/
def EndsSaying (writeBlank : Bool) (before : Stance) (state : StateName) : Prop :=
  ∃ final, final.state = state ∧ Ends palindromeRules "_" writeBlank before final

/-- A machine that comes to a stance says what it says from there. -/
theorem EndsSaying.of_comes {before between : Stance} {state : StateName}
    (comes : Comes palindromeRules "_" writeBlank before between)
    (saying : EndsSaying writeBlank between state) : EndsSaying writeBlank before state := by
  obtain ⟨final, same, ends⟩ := saying
  exact ⟨final, same, comes.ends ends⟩

/-- A letter without a partner in the middle of a word is accepted. -/
theorem endsSaying_alone (lt : left < word.length) :
    EndsSaying writeBlank ⟨letter.matcher, left, cells word (left + 1) (left + 1)⟩ "accept" := by
  have marked : cells word (left + 1) (left + 1) left = "X" :=
    cells_marked (.inl (Nat.lt_succ_self left)) lt
  exact ⟨_, rfl, ends_of_acts marked (acts_alone letter)⟩

/-- A last letter that does not match is rejected. -/
theorem endsSaying_mismatch {other : Letter} (found : word[right - 1]? = some other)
    (differ : other ≠ letter) (lt : left + 1 < right) :
    EndsSaying writeBlank ⟨letter.matcher, right - 1, cells word (left + 1) right⟩ "reject" := by
  have unmarked : cells word (left + 1) right (right - 1) = other.symbol :=
    cells_unmarked found (by omega) (by omega)
  exact ⟨_, rfl, ends_of_acts unmarked (acts_mismatch differ)⟩

/-- From the first unmarked letter on, the machine ends with the right verdict, if the marked
letters match and as many are marked on either side. -/
theorem endsSaying_verdict (le : left ≤ right) (centred : left + right = word.length)
    (matched : Matched word left) :
    EndsSaying writeBlank ⟨"q0", left, cells word left right⟩ (verdict word) := by
  -- The induction is on the number of letters that are unmarked still.
  induction unmarked : right - left using Nat.strong_induction_on generalizing left right with
  | _ size inductionHypothesis =>
  subst unmarked
  rcases Nat.eq_or_lt_of_le le with rfl | lt
  · have palindrome : word = word.reverse := eq_reverse_of_matched matched (by omega)
    rw [verdict, if_pos palindrome]
    exact ⟨_, rfl, ends_of_acts rfl (acts_done (isEdge_cells (.inr (Nat.le_refl _))))⟩
  · have inside : left < word.length := by omega
    have partner : word.length - 1 - left = right - 1 := by omega
    have first : word[left]? = some word[left] := List.getElem?_eq_getElem inside
    refine .of_comes (comes_carried first lt (by omega)) ?_
    rcases Nat.eq_or_lt_of_le (Nat.succ_le_of_lt lt) with rfl | further
    · have palindrome : word = word.reverse := eq_reverse_of_matched matched (by omega)
      rw [verdict, if_pos palindrome]
      exact endsSaying_alone inside
    · have last : word[right - 1]? = some word[right - 1] := List.getElem?_eq_getElem (by omega)
      by_cases same : word[right - 1] = word[left]
      · rw [same] at last
        refine .of_comes (comes_returned last further (by omega)) ?_
        exact inductionHypothesis (right - 1 - (left + 1)) (by omega) (by omega) (by omega)
          (matched.succ (by rw [partner, first, last])) rfl
      · have asymmetric : word ≠ word.reverse := by
          refine ne_reverse_of_mismatch inside ?_
          rw [partner, first, last]
          exact fun equal => same (Option.some.inj equal).symm
        rw [verdict, if_neg asymmetric]
        exact endsSaying_mismatch last same further

/-! ### The machine -/

/-- The palindrome machine at the start of a word, on a single blank if the word is empty. -/
def palindromeStart (word : List Letter) : Config where
  state := "q0"
  tape := if word.isEmpty then #["_"] else (word.map Letter.symbol).toArray

/-- At the start every letter is unmarked. -/
theorem view_palindromeStart (word : List Letter) :
    view "_" (palindromeStart word) = Stance.snapshot ⟨"q0", 0, cells word 0 word.length⟩ 0 := by
  have unmarked : (fun index => (palindromeStart word).tape.getD index "_") =
      cells word 0 word.length := by
    funext index
    have stored : (palindromeStart word).tape.getD index "_" =
        (word[index]?.map Letter.symbol).getD "_" := by
      cases word with
      | nil => cases index <;> simp [palindromeStart]
      | cons letter rest =>
          rw [← List.getElem?_map]
          simp [palindromeStart, Array.getD_eq_getD_getElem?]
    rw [stored, cells]
    by_cases inside : index < word.length
    · simp only [Nat.zero_le, inside, and_self, if_true]
    · simp [inside]
  simp only [view, Stance.snapshot, unmarked]
  rfl

/-- For every word, the bundled palindrome machine halts after finitely many steps, whether or
not it may write the blank: it accepts the word if that is its own reverse, and rejects it
otherwise. -/
theorem exists_run_palindrome (word : List Letter) (writeBlank : Bool) :
    ∃ count final, final.status = .halted ∧
      final.state = (if word = word.reverse then "accept" else "reject") ∧
      ∀ cap, count ≤ cap →
        (palindromeStart word).run? (Table.ofDefinition (Classic.read palindrome)) writeBlank cap =
            some final ∧
          (palindromeStart word).runToEnd? (Table.ofDefinition (Classic.read palindrome))
            writeBlank cap = some final := by
  have onTape : (palindromeStart word).OnTape := by
    cases word <;> simp [palindromeStart, Config.OnTape]
  have matched : Matched word 0 := fun _ before => absurd before (Nat.not_lt_zero _)
  have saying : EndsSaying writeBlank ⟨"q0", 0, cells word 0 word.length⟩ (verdict word) :=
    endsSaying_verdict (Nat.zero_le _) (Nat.zero_add _) matched
  obtain ⟨final, said, ends⟩ := saying
  obtain ⟨count, ended, halted, state, -, runs⟩ :=
    exists_run_of_ends onTape (view_palindromeStart word) ends
  rw [Table.ofDefinition, rules_palindrome]
  exact ⟨count, ended, halted, state.trans said, runs⟩

end TapeLab.Examples
