import TapeLab.Proofs.Fallible
import TapeLab.Proofs.Json.RoundTrip

/-!
# Depth

What is read is no deeper than there is room for (`depth_of_readWithin`).  What is written is begun
only if it is deeper than there is room for (`begun?_eq_none_iff`), and what is begun breaks off
before the end (`breaksOff_of_begun?`).
-/

namespace TapeLab.Json

open Fallible

/-! ### What is read -/

/-- A field that is put among others makes them no deeper than it is. -/
theorem depthOfFields_put (key : String) (value : Value) (fields : Fields) :
    depthOfFields (Keyed.put key value fields) ≤ max (depthOfFields fields) value.depth := by
  induction fields with
  | nil => simp [Keyed.put, depthOfFields]
  | cons field rest inductionHypothesis =>
      obtain ⟨name, old⟩ := field
      rw [Keyed.put]
      split
      all_goals
        simp only [depthOfFields]
        omega

/-- Fields that are merged are no deeper than before. -/
theorem depthOfFields_merge (fields others : Fields) :
    depthOfFields (Keyed.merge fields others) ≤
      max (depthOfFields fields) (depthOfFields others) := by
  induction others generalizing fields with
  | nil => exact Nat.le_max_left _ _
  | cons field rest inductionHypothesis =>
      obtain ⟨key, value⟩ := field
      have later : depthOfFields (Keyed.merge fields ((key, value) :: rest)) ≤
          max (depthOfFields (Keyed.put key value fields)) (depthOfFields rest) :=
        inductionHypothesis (Keyed.put key value fields)
      have here := depthOfFields_put key value fields
      rw [depthOfFields]
      omega

/-- The value under a key is no deeper than the fields. -/
theorem depth_le_of_get? {fields : Fields} {key : String} {value : Value}
    (found : Keyed.get? fields key = some value) : value.depth ≤ depthOfFields fields := by
  induction fields with
  | nil => simp [Keyed.get?] at found
  | cons field rest inductionHypothesis =>
      obtain ⟨name, old⟩ := field
      rw [depthOfFields]
      by_cases here : name == key
      · have same : old = value := by simpa [Keyed.get?, here] using found
        exact same ▸ Nat.le_max_left _ _
      · have later : Keyed.get? rest key = some value := by simpa [Keyed.get?, here] using found
        exact Nat.le_trans (inductionHypothesis later) (Nat.le_max_right _ _)

/-- A word stands for a flat value. -/
theorem depth_of_wordThen? {text : List Char} {found : Value × List Char}
    (word : wordThen? text = some found) : found.1.depth = 0 := by
  obtain ⟨entry, member, here⟩ := List.exists_of_findSome?_eq_some word
  have flat : ∀ entry ∈ wordValues, entry.2.depth = 0 := by
    simp [wordValues, Value.depth]
  split at here
  · cases here
    exact flat entry member
  · cases here

/-- A number is flat. -/
theorem depth_of_numberThen {text : List Char} {found : Value × List Char}
    (number : numberThen text = .ok found) : found.1.depth = 0 := by
  rw [numberThen] at number
  extract_lets at number
  split at number
  split at number
  · cases number
  split at number
  split at number
  -- Whatever was read, it is a whole number or a float.
  split at number
  · split at number <;> cases number
    rfl
  · split at number <;> cases number
    rfl

/-- Nothing that is read with some fuel is deeper than there is room for. -/
structure ReadsWithin (fuel : Nat) : Prop where
  value : ∀ {room text value rest}, valueThen room fuel text = .ok (value, rest) →
    value.depth ≤ room
  items : ∀ {room text items rest}, itemsThen room fuel text = .ok (items, rest) →
    depthOfItems items ≤ room
  fields : ∀ {room text fields rest}, fieldsThen room fuel text = .ok (fields, rest) →
    depthOfFields fields ≤ room

namespace ReadsWithin

variable {fuel room : Nat} {text rest : List Char}

/-- Brackets or braces stand around what is read in a room that is one less. -/
theorem succ_le_of_le_pred {depth : Nat} (roomy : ¬(room == 0) = true) (inside : depth ≤ room - 1) :
    depth + 1 ≤ room := by
  have some : room ≠ 0 := by simpa using roomy
  omega

/-- A value that is read with one more step. -/
theorem value_succ (reads : ReadsWithin fuel) {value : Value}
    (read : valueThen room (fuel + 1) text = .ok (value, rest)) : value.depth ≤ room := by
  cases text with
  | nil => simp [valueThen] at read
  | cons c others =>
      rw [valueThen] at read
      split at read
      · split at read <;> cases read
        exact Nat.zero_le _
      split at read
      · split at read
        · cases read
        · rename_i roomy
          extract_lets inside at read
          split at read
          · cases read
            exact succ_le_of_le_pred roomy (Nat.zero_le _)
          · obtain ⟨⟨items, after⟩, readItems, ⟨⟩⟩ := bind_eq_ok_iff.mp read
            exact succ_le_of_le_pred roomy (reads.items readItems)
      split at read
      · split at read
        · cases read
        · rename_i roomy
          extract_lets inside at read
          split at read
          · cases read
            exact succ_le_of_le_pred roomy (Nat.zero_le _)
          · obtain ⟨⟨fields, after⟩, readFields, ⟨⟩⟩ := bind_eq_ok_iff.mp read
            have merged := depthOfFields_merge [] fields
            rw [show depthOfFields [] = 0 from rfl, Nat.zero_max] at merged
            exact succ_le_of_le_pred roomy (Nat.le_trans merged (reads.fields readFields))
      split at read
      · rename_i found word
        cases read
        exact Nat.le_trans (Nat.le_of_eq (depth_of_wordThen? word)) (Nat.zero_le _)
      · exact Nat.le_trans (Nat.le_of_eq (depth_of_numberThen read)) (Nat.zero_le _)

/-- Items that are read with one more step. -/
theorem items_succ (reads : ReadsWithin fuel) {items : List Value}
    (read : itemsThen room (fuel + 1) text = .ok (items, rest)) : depthOfItems items ≤ room := by
  rw [itemsThen] at read
  obtain ⟨⟨item, afterItem⟩, readItem, read⟩ := bind_eq_ok_iff.mp read
  have first := reads.value readItem
  dsimp only at read
  split at read
  · cases read
  split at read
  · cases read
    exact Nat.max_le.mpr ⟨first, Nat.zero_le _⟩
  split at read
  · obtain ⟨⟨others, later⟩, readOthers, ⟨⟩⟩ := bind_eq_ok_iff.mp read
    exact Nat.max_le.mpr ⟨first, reads.items readOthers⟩
  · cases read

/-- Fields that are read with one more step. -/
theorem fields_succ (reads : ReadsWithin fuel) {fields : List (String × Value)}
    (read : fieldsThen room (fuel + 1) text = .ok (fields, rest)) :
    depthOfFields fields ≤ room := by
  cases text with
  | nil => simp [fieldsThen] at read
  | cons quote others =>
      rw [fieldsThen] at read
      split at read
      · cases read
      split at read
      · cases read
      split at read
      · cases read
      split at read
      · cases read
      obtain ⟨⟨value, afterValue⟩, readValue, read⟩ := bind_eq_ok_iff.mp read
      have first := reads.value readValue
      dsimp only at read
      split at read
      · cases read
      split at read
      · cases read
        exact Nat.max_le.mpr ⟨first, Nat.zero_le _⟩
      split at read
      · obtain ⟨⟨others, later⟩, readOthers, ⟨⟩⟩ := bind_eq_ok_iff.mp read
        exact Nat.max_le.mpr ⟨first, reads.fields readOthers⟩
      · cases read

/-- Nothing that is read is deeper than there is room for. -/
theorem all (fuel : Nat) : ReadsWithin fuel := by
  induction fuel with
  | zero =>
      constructor
      · intro room text value rest read
        simp [valueThen] at read
      · intro room text items rest read
        simp [itemsThen] at read
      · intro room text fields rest read
        simp [fieldsThen] at read
  | succ fuel reads => exact ⟨reads.value_succ, reads.items_succ, reads.fields_succ⟩

end ReadsWithin

/-- What a text holds is no deeper than there is room for. -/
theorem depth_of_readWithin {room : Nat} {text : List Char} {value : Value}
    (read : readWithin room text = .ok value) : value.depth ≤ room := by
  obtain ⟨⟨found, rest⟩, readValue, ended⟩ := bind_eq_ok_iff.mp read
  dsimp only at ended
  split at ended <;> cases ended
  exact (ReadsWithin.all _).value readValue

/-! ### What is begun -/

/-- A text is the front of another and not all of it. -/
def BreaksOff (begun whole : List Char) : Prop :=
  ∃ c rest, whole = begun ++ c :: rest

namespace BreaksOff

variable {begun whole : List Char}

theorem nil (c : Char) (rest : List Char) : BreaksOff [] (c :: rest) :=
  ⟨c, rest, rfl⟩

/-- What breaks off breaks off as well if more would come. -/
theorem append_right (breaks : BreaksOff begun whole) (later : List Char) :
    BreaksOff begun (whole ++ later) := by
  obtain ⟨c, rest, rfl⟩ := breaks
  exact ⟨c, rest ++ later, by simp⟩

/-- Something may stand before what breaks off. -/
theorem append_left (front : List Char) (breaks : BreaksOff begun whole) :
    BreaksOff (front ++ begun) (front ++ whole) := by
  obtain ⟨c, rest, rfl⟩ := breaks
  exact ⟨c, rest, by simp⟩

end BreaksOff

/-- Two parts are begun if one of them is. -/
theorem begunOf_eq_none_iff {first? second? : Option (List Char)} {whole : List Char} :
    begunOf first? whole second? = none ↔ first? = none ∧ second? = none := by
  cases first? <;> simp [begunOf]

/-- What is begun of two parts breaks off if what is begun of either does. -/
theorem breaksOff_of_begunOf {first? second? : Option (List Char)} {first second begun : List Char}
    (here : ∀ text, first? = some text → BreaksOff text first)
    (later : ∀ text, second? = some text → BreaksOff text second)
    (begins : begunOf first? first second? = some begun) : BreaksOff begun (first ++ second) := by
  cases first? with
  | some text =>
      obtain rfl : text = begun := by simpa [begunOf] using begins
      exact (here text rfl).append_right second
  | none =>
      obtain ⟨text, found, rfl⟩ := Option.map_eq_some_iff.mp begins
      exact (later text found).append_left first

variable (layout : Layout)

mutual

/-- Only a value for which there is no room is begun and not written. -/
theorem begun?_eq_none_iff (room level : Nat) (value : Value) :
    begun? layout room level value = none ↔ value.depth ≤ room := by
  match value with
  | .null | .bool _ | .integer _ | .float _ | .text _ => simp [begun?, Value.depth]
  | .list [] => cases room <;> simp [begun?, Value.depth, depthOfItems]
  | .record [] => cases room <;> simp [begun?, Value.depth, depthOfFields]
  | .list (item :: rest) =>
      cases room with
      | zero => simp [begun?, Value.depth]
      | succ room =>
          have here := begun?_eq_none_iff room (level + 1) item
          have later := begunItems?_eq_none_iff room (level + 1) rest
          simp [begun?, begunOf_eq_none_iff, here, later, Value.depth, depthOfItems, Nat.max_le]
  | .record ((key, inner) :: rest) =>
      cases room with
      | zero => simp [begun?, Value.depth]
      | succ room =>
          have here := begun?_eq_none_iff room (level + 1) inner
          have later := begunFields?_eq_none_iff room (level + 1) rest
          simp [begun?, begunOf_eq_none_iff, here, later, Value.depth, depthOfFields, Nat.max_le]

theorem begunItems?_eq_none_iff (room level : Nat) (items : List Value) :
    begunItems? layout room level items = none ↔ depthOfItems items ≤ room := by
  match items with
  | [] => simp [begunItems?, depthOfItems]
  | item :: rest =>
      have here := begun?_eq_none_iff room level item
      have later := begunItems?_eq_none_iff room level rest
      simp [begunItems?, begunOf_eq_none_iff, here, later, depthOfItems, Nat.max_le]

theorem begunFields?_eq_none_iff (room level : Nat) (fields : List (String × Value)) :
    begunFields? layout room level fields = none ↔ depthOfFields fields ≤ room := by
  match fields with
  | [] => simp [begunFields?, depthOfFields]
  | (key, value) :: rest =>
      have here := begun?_eq_none_iff room level value
      have later := begunFields?_eq_none_iff room level rest
      simp [begunFields?, begunOf_eq_none_iff, here, later, depthOfFields, Nat.max_le]

end

/-- Without room a list or a record breaks off before it begins. -/
theorem breaksOff_of_begun?_zero {level : Nat} {value : Value} {begun : List Char}
    (begins : begun? layout 0 level value = some begun) :
    BreaksOff begun (written layout level value) := by
  cases value with
  | list items =>
      obtain rfl : [] = begun := by simpa [begun?] using begins
      cases items <;> simpa [written] using BreaksOff.nil _ _
  | record fields =>
      obtain rfl : [] = begun := by simpa [begun?] using begins
      cases fields <;> simpa [written] using BreaksOff.nil _ _
  | _ => simp [begun?] at begins

mutual

/-- What is begun of a value breaks off before the end. -/
theorem breaksOff_of_begun? (room level : Nat) (value : Value) :
    ∀ begun, begun? layout room level value = some begun →
      BreaksOff begun (written layout level value) := by
  intro begun begins
  match room, value with
  | 0, _ => exact breaksOff_of_begun?_zero layout begins
  | _ + 1, .null | _ + 1, .bool _ | _ + 1, .integer _ | _ + 1, .float _ | _ + 1, .text _
  | _ + 1, .list [] | _ + 1, .record [] => simp [begun?] at begins
  | room + 1, .list (item :: rest) =>
      rw [begun?] at begins
      obtain ⟨inside, found, rfl⟩ := Option.map_eq_some_iff.mp begins
      have breaks := breaksOff_of_begunOf (breaksOff_of_begun? room (level + 1) item)
        (breaksOff_of_begunItems? room (level + 1) rest) found
      have whole := (breaks.append_left ('[' :: layout.edge (level + 1))).append_right
        (layout.edge level ++ [']'])
      simpa [written] using whole
  | room + 1, .record ((key, inner) :: rest) =>
      rw [begun?] at begins
      obtain ⟨inside, found, rfl⟩ := Option.map_eq_some_iff.mp begins
      have breaks := breaksOff_of_begunOf (breaksOff_of_begun? room (level + 1) inner)
        (breaksOff_of_begunFields? room (level + 1) rest) found
      have whole := (breaks.append_left
        ('\x7b' :: layout.edge (level + 1) ++ writtenText key ++ [':', ' '])).append_right
        (layout.edge level ++ ['\x7d'])
      simpa [written] using whole

theorem breaksOff_of_begunItems? (room level : Nat) (items : List Value) :
    ∀ begun, begunItems? layout room level items = some begun →
      BreaksOff begun (writtenItems layout level items) := by
  intro begun begins
  match items with
  | [] => simp [begunItems?] at begins
  | item :: rest =>
      rw [begunItems?] at begins
      obtain ⟨inside, found, rfl⟩ := Option.map_eq_some_iff.mp begins
      have breaks := breaksOff_of_begunOf (breaksOff_of_begun? room level item)
        (breaksOff_of_begunItems? room level rest) found
      simpa [writtenItems] using breaks.append_left (layout.separator level)

theorem breaksOff_of_begunFields? (room level : Nat) (fields : List (String × Value)) :
    ∀ begun, begunFields? layout room level fields = some begun →
      BreaksOff begun (writtenFields layout level fields) := by
  intro begun begins
  match fields with
  | [] => simp [begunFields?] at begins
  | (key, value) :: rest =>
      rw [begunFields?] at begins
      obtain ⟨inside, found, rfl⟩ := Option.map_eq_some_iff.mp begins
      have breaks := breaksOff_of_begunOf (breaksOff_of_begun? room level value)
        (breaksOff_of_begunFields? room level rest) found
      simpa [writtenFields] using
        breaks.append_left (layout.separator level ++ writtenText key ++ [':', ' '])

end

end TapeLab.Json
