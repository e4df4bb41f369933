import TapeLab.Proofs.Text.Inserting

/-!
# Lines that go on

A text with something more at the end of one of its lines, in front of the boundary that ends it,
has the same lines but for this one.  Every line of every text can be made longer in this way
(`Text.exists_hasLineLonger`), and whatever is read of each line by itself changes only if that of
the longer line does (`Text.HasLineLonger.map_numberFrom_eq`).
-/

namespace TapeLab.Text

variable {text longer line extra : List Char} {index : Nat}

/-- A text and the same text with something more at the end of one of its lines. -/
structure HasLineLonger (extra line : List Char) (index : Nat) (text longer : List Char) :
    Prop where
  stands : (lines text)[index]? = some line
  lines_eq : lines longer = (lines text).set index (line ++ extra)

/-- Nothing has no boundary in it. -/
theorem unbroken_nil : Unbroken [] :=
  List.forall_mem_nil _

/-- A line goes on to the first boundary, unless a return before it makes that its own. -/
theorem linesFrom_append_break {front rest : List Char} {c : Char} {afterReturn : Bool}
    (unbroken : Unbroken front) (ends : isLineBreak c = true)
    (own : (afterReturn && c == '\n') = false) :
    linesFrom afterReturn (front ++ c :: rest) = front :: linesFrom (c == '\r') rest := by
  induction front generalizing afterReturn with
  | nil => simp [linesFrom, own, ends]
  | cons d front inductionHypothesis =>
      obtain ⟨goesOn, unbrokenRest⟩ := unbroken_cons.mp unbroken
      have notFeed : d ≠ '\n' := by rintro rfl; simp [isLineBreak] at goesOn
      have later := @inductionHypothesis false unbrokenRest rfl
      simp [linesFrom, notFeed, goesOn, later, pushToFirst]

/-- A character and what follows it on its line make up one line. -/
theorem pushToFirst_linesFrom {c : Char} (unbroken : Unbroken extra) :
    pushToFirst c (linesFrom false extra) = [c :: extra] := by
  cases extra with
  | nil => rfl
  | cons d rest =>
      have whole : linesFrom false (d :: rest) = [d :: rest] := lines_of_no_break unbroken nofun
      rw [whole]
      rfl

/-- The lines after the first one are not pushed to. -/
theorem getElem?_pushToFirst_succ (c : Char) (parts : List (List Char)) (index : Nat) :
    (pushToFirst c parts)[index + 1]? = parts[index + 1]? := by
  cases parts <;> rfl

/-- They can be exchanged before or after. -/
theorem set_pushToFirst_succ (c : Char) (parts : List (List Char)) (index : Nat)
    (part : List Char) :
    (pushToFirst c parts).set (index + 1) part = pushToFirst c (parts.set (index + 1) part) := by
  cases parts <;> rfl

/-- A line stands somewhere in a text, and goes on there with what is put after it.  The first line
begins with the text, unless a feed may have to be skipped. -/
def GoesOn (afterReturn : Bool) (text : List Char) (index : Nat) (line : List Char) : Prop :=
  ∃ before after, text = before ++ (line ++ after) ∧
    (afterReturn = false → index = 0 → before = []) ∧
    ∀ extra, Unbroken extra → linesFrom afterReturn (before ++ (line ++ (extra ++ after))) =
      (linesFrom afterReturn text).set index (line ++ extra)

/-- A line that begins behind a character goes on as it does without this character. -/
theorem GoesOn.cons {c : Char} {rest : List Char} {afterReturn later : Bool} {place : Nat}
    {step : List (List Char) → List (List Char)} (goesOn : GoesOn later rest place line)
    (steps : ∀ text, linesFrom afterReturn (c :: text) = step (linesFrom later text))
    (sets : ∀ parts part, step (parts.set place part) = (step parts).set index part)
    (behind : afterReturn = false → index ≠ 0) : GoesOn afterReturn (c :: rest) index line := by
  obtain ⟨before, after, rfl, -, longer⟩ := goesOn
  refine ⟨c :: before, after, rfl, fun none first => absurd first (behind none), ?_⟩
  intro extra unbroken
  rw [List.cons_append, steps, steps, longer extra unbroken, sets]

/-- The first line goes on as it does without its first character. -/
theorem GoesOn.first {c : Char} {rest : List Char} {afterReturn : Bool}
    (inside : ∀ text, linesFrom afterReturn (c :: text) = pushToFirst c (linesFrom false text))
    (later : ∀ first, (linesFrom false rest)[0]? = some first → GoesOn false rest 0 first)
    (stands : (linesFrom afterReturn (c :: rest))[0]? = some line) :
    GoesOn afterReturn (c :: rest) 0 line := by
  rw [inside] at stands
  cases cut : linesFrom false rest with
  | nil =>
      have nothing : rest = [] :=
        Decidable.byContradiction fun something => lines_ne_nil something cut
      obtain rfl : [c] = line := by simpa [cut, pushToFirst] using stands
      refine ⟨[], [], by simp [nothing], fun _ _ => rfl, fun extra unbroken => ?_⟩
      rw [List.append_nil, List.nil_append, List.singleton_append, inside, inside, cut,
        pushToFirst_linesFrom unbroken]
      rfl
  | cons first others =>
      obtain rfl : c :: first = line := by simpa [cut, pushToFirst] using stands
      obtain ⟨before, after, rfl, atStart, longer⟩ := later first (by rw [cut]; rfl)
      obtain rfl := atStart rfl rfl
      refine ⟨[], after, rfl, fun _ _ => rfl, fun extra unbroken => ?_⟩
      simp only [List.nil_append] at cut longer
      rw [List.nil_append, List.cons_append, List.nil_append, inside, inside,
        longer extra unbroken, cut]
      rfl

/-- Every line of a text stands somewhere in it, and goes on there. -/
theorem goesOn_of_getElem? {afterReturn : Bool}
    (stands : (linesFrom afterReturn text)[index]? = some line) :
    GoesOn afterReturn text index line := by
  induction text generalizing afterReturn index line with
  | nil => simp [linesFrom] at stands
  | cons c rest inductionHypothesis =>
      by_cases feed : (afterReturn && c == '\n') = true
      · -- The feed is skipped, and the lines behind it are all there are.
        have skips (text : List Char) :
            linesFrom afterReturn (c :: text) = id (linesFrom false text) := by
          simp [linesFrom, feed]
        rw [skips, id] at stands
        have behind : afterReturn = false → index ≠ 0 := by
          rintro rfl
          cases feed
        exact (inductionHypothesis stands).cons skips (fun _ _ => rfl) behind
      · have own : (afterReturn && c == '\n') = false := by simpa using feed
        by_cases ends : isLineBreak c = true
        · have breaks (text : List Char) :
              linesFrom afterReturn (c :: text) = [] :: linesFrom (c == '\r') text :=
            linesFrom_append_break unbroken_nil ends own
          cases index with
          | zero =>
              obtain rfl : [] = line := by simpa [breaks] using stands
              refine ⟨[], c :: rest, rfl, fun _ _ => rfl, fun extra unbroken => ?_⟩
              rw [breaks]
              exact linesFrom_append_break unbroken ends own
          | succ index =>
              rw [breaks] at stands
              exact (inductionHypothesis stands).cons breaks (fun _ _ => rfl) fun _ =>
                Nat.succ_ne_zero index
        · have pushes (text : List Char) :
              linesFrom afterReturn (c :: text) = pushToFirst c (linesFrom false text) := by
            simp [linesFrom, own, ends]
          cases index with
          | zero => exact GoesOn.first pushes (fun first => inductionHypothesis) stands
          | succ index =>
              rw [pushes, getElem?_pushToFirst_succ] at stands
              exact (inductionHypothesis stands).cons pushes
                (fun parts part => (set_pushToFirst_succ c parts index part).symm)
                fun _ => Nat.succ_ne_zero index

/-- Every line of a text stands somewhere in it, where it can be made longer. -/
theorem exists_hasLineLonger (stands : (lines text)[index]? = some line) :
    ∃ before after, text = before ++ (line ++ after) ∧ ∀ extra, Unbroken extra →
      HasLineLonger extra line index text (before ++ (line ++ (extra ++ after))) := by
  obtain ⟨before, after, cut, -, longer⟩ := goesOn_of_getElem? stands
  exact ⟨before, after, cut, fun extra unbroken => ⟨stands, longer extra unbroken⟩⟩

/-- What is read of each line by itself is the same if it is the same for the longer line. -/
theorem HasLineLonger.map_numberFrom_eq {α : Type} {f : Nat × List Char → α}
    (more : HasLineLonger extra line index text longer)
    (same : ∀ number, f (number, line ++ extra) = f (number, line)) :
    (numberFrom 1 (lines longer)).map f = (numberFrom 1 (lines text)).map f := by
  refine List.ext_getElem? fun place => ?_
  simp only [List.getElem?_map, getElem?_numberFrom, more.lines_eq, List.getElem?_set]
  split
  · next here =>
    subst here
    rw [more.stands]
    simp [same, (List.getElem?_eq_some_iff.mp more.stands).1]
  · rfl

end TapeLab.Text
