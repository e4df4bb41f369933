import TapeLab.Proofs.Json.QuotedText

/-!
# Values read back

A value that is written, compactly or with one item a line, is read back as it was, if there
is room for its depth, and refused for its depth otherwise.  Numbers are taken on trust here: a
value is `Restorable` if every number in it is read back from its own text, and if no record in
it has two fields of one name.
-/

namespace TapeLab.Json

/-- What may follow a value: nothing, a space, or what separates or ends items. -/
def Ends (rest : List Char) : Prop :=
  ∀ c ∈ rest.head?, c = ',' ∨ c = ']' ∨ c = '\x7d' ∨ isJsonSpace c = true

/-- What reading something of a depth comes to. -/
def ifRoom {α : Type} (room depth : Nat) (result : α) : Except ReadFault α :=
  if depth ≤ room then .ok result else .error .nestedTooDeep

theorem ifRoom_of_le {α : Type} {room depth : Nat} (enough : depth ≤ room) (result : α) :
    ifRoom room depth result = .ok result :=
  if_pos enough

/-- A text is read as a value, whatever may follow it, if there is room for the value. -/
def IsTextOf (text : List Char) (value : Value) : Prop :=
  ∀ room fuel rest, Ends rest → text.length ≤ fuel →
    valueThen room fuel (text ++ rest) = ifRoom room value.depth (value, rest)

/-- A value that reading takes back. -/
inductive Restorable : Value → Prop where
  | null : Restorable .null
  | bool (value : Bool) : Restorable (.bool value)
  | integer {value : Int} (number : IsTextOf (writtenInteger value) (.integer value)) :
      Restorable (.integer value)
  | float {value : Number.Binary64}
      (number : IsTextOf (value.text Number.storedLayout).toList (.float value)) :
      Restorable (.float value)
  | text (value : String) : Restorable (.text value)
  | list {items : List Value} (each : ∀ item ∈ items, Restorable item) :
      Restorable (.list items)
  | record {fields : List (String × Value)} (distinct : (fields.map Prod.fst).Nodup)
      (each : ∀ field ∈ fields, Restorable field.2) : Restorable (.record fields)

/-- A layout that breaks lines with spaces alone. -/
structure Layout.Breaks (layout : Layout) : Prop where
  edge : ∀ level, ∀ c ∈ layout.edge level, isJsonSpace c = true
  separator : ∀ level, ∃ spaces, layout.separator level = ',' :: spaces ∧
    ∀ c ∈ spaces, isJsonSpace c = true

/-- Spaces are skipped. -/
theorem skipSpaces_append {spaces : List Char} (blank : ∀ c ∈ spaces, isJsonSpace c = true)
    (rest : List Char) : skipSpaces (spaces ++ rest) = skipSpaces rest := by
  induction spaces with
  | nil => rfl
  | cons c others inductionHypothesis =>
      have here : isJsonSpace c = true := blank c List.mem_cons_self
      have later := inductionHypothesis fun d member => blank d (List.mem_cons_of_mem c member)
      simpa [skipSpaces, here] using later

/-- Nothing is skipped before a character that is no space. -/
theorem skipSpaces_cons {c : Char} (visible : isJsonSpace c = false) (rest : List Char) :
    skipSpaces (c :: rest) = c :: rest := by
  simp [skipSpaces, visible]

/-- No value begins with a space or with the end of a list. -/
theorem head_of_valueThen {room fuel : Nat} {text : List Char} {found : Value × List Char}
    (read : valueThen room fuel text = .ok found) :
    skipSpaces text = text ∧ text.head? ≠ some ']' := by
  cases fuel with
  | zero => simp [valueThen] at read
  | succ fuel =>
      cases text with
      | nil => simp [valueThen] at read
      | cons c rest =>
          have refused : ∀ d : Char, isJsonSpace d = true ∨ d = ']' →
              valueThen room (fuel + 1) (d :: rest) = .error .malformed := by
            intro d unfit
            simp only [isJsonSpace, Bool.or_eq_true, beq_iff_eq] at unfit
            rcases unfit with (((rfl | rfl) | rfl) | rfl) | rfl
            all_goals
              simp [valueThen, wordThen?, wordValues, numberThen, wholePart, isPlainDigit]
          constructor
          · cases blank : isJsonSpace c with
            | false => exact skipSpaces_cons blank rest
            | true =>
                rw [refused c (Or.inl blank)] at read
                cases read
          · intro ending
            rw [refused c (Or.inr (Option.some.inj ending))] at read
            cases read

/-- A text in quotes is a text. -/
theorem isTextOf_writtenText (text : String) : IsTextOf (writtenText text) (.text text) := by
  intro room fuel rest _ enough
  have written := length_le_flatMap text.toList
  simp only [writtenText, List.length_append, List.length_cons, List.length_nil] at enough
  obtain ⟨less, rfl⟩ : ∃ less, fuel = less + 1 := ⟨fuel - 1, by omega⟩
  have short : text.toList.length < less := by omega
  have read := quotedText?_flatMap short rest
  simp [writtenText, valueThen, read, ifRoom, Value.depth]

/-- A value may be followed by the closing mark of the list or record around it. -/
theorem ends_closing {edge : List Char} (blank : ∀ c ∈ edge, isJsonSpace c = true)
    {closing : Char} (closes : closing = ']' ∨ closing = '\x7d') (rest : List Char) :
    Ends (edge ++ closing :: rest) := by
  intro c begins
  cases edge with
  | nil =>
      obtain rfl : closing = c := by simpa using begins
      rcases closes with bracket | brace
      · exact Or.inr (Or.inl bracket)
      · exact Or.inr (Or.inr (Or.inl brace))
  | cons d others =>
      obtain rfl : d = c := by simpa using begins
      exact Or.inr (Or.inr (Or.inr (blank d List.mem_cons_self)))

/-- A value may be followed by what begins with a comma. -/
theorem ends_comma (rest : List Char) : Ends (',' :: rest) := by
  intro c begins
  obtain rfl : ',' = c := by simpa using begins
  exact Or.inl rfl

/-- A list is its items between brackets, in a room that is one less. -/
theorem valueThen_list {room fuel depth : Nat} {text inside after : List Char}
    {items : List Value} (skipped : skipSpaces text = inside)
    (nonempty : inside.head? ≠ some ']')
    (read : itemsThen (room - 1) fuel inside = ifRoom (room - 1) depth (items, after)) :
    valueThen room (fuel + 1) ('[' :: text) = ifRoom room (depth + 1) (.list items, after) := by
  have open_ : (inside.head? == some ']') = false := beq_eq_false_iff_ne.mpr nonempty
  cases room with
  | zero => simp [valueThen, ifRoom]
  | succ room =>
      rw [Nat.add_sub_cancel, ifRoom] at read
      by_cases enough : depth ≤ room
      · rw [if_pos enough] at read
        simp [valueThen, skipped, open_, read, ifRoom, enough, bind, Except.bind, pure,
          Except.pure]
      · rw [if_neg enough] at read
        simp [valueThen, skipped, open_, read, ifRoom, enough, bind, Except.bind]

/-- A record is its fields between braces, in a room that is one less. -/
theorem valueThen_record {room fuel depth : Nat} {text inside after : List Char}
    {fields : List (String × Value)} (skipped : skipSpaces text = inside)
    (nonempty : inside.head? ≠ some '\x7d')
    (read : fieldsThen (room - 1) fuel inside = ifRoom (room - 1) depth (fields, after)) :
    valueThen room (fuel + 1) ('\x7b' :: text) =
      ifRoom room (depth + 1) (.record (Keyed.merge [] fields), after) := by
  have open_ : (inside.head? == some '\x7d') = false := beq_eq_false_iff_ne.mpr nonempty
  cases room with
  | zero => simp [valueThen, ifRoom]
  | succ room =>
      rw [Nat.add_sub_cancel, ifRoom] at read
      by_cases enough : depth ≤ room
      · rw [if_pos enough] at read
        simp [valueThen, skipped, open_, read, ifRoom, enough, bind, Except.bind, pure,
          Except.pure]
      · rw [if_neg enough] at read
        simp [valueThen, skipped, open_, read, ifRoom, enough, bind, Except.bind]

/-! ### Depth -/

mutual

/-- No value is deeper than what is written for it is long. -/
theorem depth_le_length (layout : Layout) (level : Nat) (value : Value) :
    value.depth ≤ (written layout level value).length := by
  match value with
  | .null | .bool _ | .integer _ | .float _ | .text _ => exact Nat.zero_le _
  | .list [] => simp [Value.depth, depthOfItems, written]
  | .list (item :: rest) =>
      have here := depth_le_length layout (level + 1) item
      have later := depthOfItems_le_length layout (level + 1) rest
      simp only [Value.depth, depthOfItems, written, List.length_append, List.length_cons,
        List.length_nil]
      omega
  | .record [] => simp [Value.depth, depthOfFields, written]
  | .record ((key, inner) :: rest) =>
      have here := depth_le_length layout (level + 1) inner
      have later := depthOfFields_le_length layout (level + 1) rest
      simp only [Value.depth, depthOfFields, written, List.length_append, List.length_cons,
        List.length_nil]
      omega

theorem depthOfItems_le_length (layout : Layout) (level : Nat) (items : List Value) :
    depthOfItems items ≤ (writtenItems layout level items).length := by
  match items with
  | [] => exact Nat.zero_le _
  | item :: rest =>
      have here := depth_le_length layout level item
      have later := depthOfItems_le_length layout level rest
      simp only [depthOfItems, writtenItems, List.length_append]
      omega

theorem depthOfFields_le_length (layout : Layout) (level : Nat)
    (fields : List (String × Value)) :
    depthOfFields fields ≤ (writtenFields layout level fields).length := by
  match fields with
  | [] => exact Nat.zero_le _
  | (key, value) :: rest =>
      have here := depth_le_length layout level value
      have later := depthOfFields_le_length layout level rest
      simp only [depthOfFields, writtenFields, List.length_append]
      omega

end

section Written

variable {layout : Layout}

/-- What is written for a value, at any level, is its text. -/
def IsWritten (layout : Layout) (value : Value) : Prop :=
  ∀ level, IsTextOf (written layout level value) value

/-- What is written for a value begins with no space, and not with the end of a list. -/
theorem IsWritten.visible {value : Value} (isWritten : IsWritten layout value) (level : Nat)
    {rest : List Char} (ends : Ends rest) :
    skipSpaces (written layout level value ++ rest) = written layout level value ++ rest ∧
      (written layout level value ++ rest).head? ≠ some ']' :=
  head_of_valueThen ((isWritten level _ _ rest ends (Nat.le_refl _)).trans
    (ifRoom_of_le (Nat.le_refl value.depth) _))

/-- What follows an item of a list that ends here. -/
theorem ends_writtenItems (breaks : layout.Breaks) (level : Nat) {edge : List Char}
    (blank : ∀ c ∈ edge, isJsonSpace c = true) (items : List Value) (rest : List Char) :
    Ends (writtenItems layout level items ++ (edge ++ ']' :: rest)) := by
  cases items with
  | nil => exact ends_closing blank (Or.inl rfl) rest
  | cons item others =>
      obtain ⟨spaces, separator, -⟩ := breaks.separator level
      simp only [writtenItems, separator, List.cons_append]
      exact ends_comma _

/-- What follows a field of a record that ends here. -/
theorem ends_writtenFields (breaks : layout.Breaks) (level : Nat) {edge : List Char}
    (blank : ∀ c ∈ edge, isJsonSpace c = true) (fields : List (String × Value))
    (rest : List Char) :
    Ends (writtenFields layout level fields ++ (edge ++ '\x7d' :: rest)) := by
  cases fields with
  | nil => exact ends_closing blank (Or.inr rfl) rest
  | cons field others =>
      obtain ⟨spaces, separator, -⟩ := breaks.separator level
      obtain ⟨key, value⟩ := field
      simp only [writtenFields, separator, List.cons_append]
      exact ends_comma _

/-- The items of a list are read up to the end of the list. -/
theorem itemsThen_written (breaks : layout.Breaks) (level : Nat) {edge : List Char}
    (blank : ∀ c ∈ edge, isJsonSpace c = true) (rest : List Char) (room : Nat)
    (items : List Value) (each : ∀ item ∈ items, IsWritten layout item) (first : Value)
    (firstWritten : IsWritten layout first) (fuel : Nat)
    (enough : (written layout level first).length + (writtenItems layout level items).length <
      fuel) :
    itemsThen room fuel (written layout level first ++ (writtenItems layout level items ++
      (edge ++ ']' :: rest))) =
        ifRoom room (depthOfItems (first :: items)) (first :: items, rest) := by
  induction items generalizing first fuel with
  | nil =>
      obtain ⟨less, rfl⟩ : ∃ less, fuel = less + 1 := ⟨fuel - 1, by omega⟩
      have item := firstWritten level room less _ (ends_writtenItems breaks level blank [] rest)
        (by omega)
      have bracket : isJsonSpace ']' = false := rfl
      simp only [itemsThen, item, ifRoom, depthOfItems, Nat.max_zero]
      split
      · simp [writtenItems, skipSpaces_append blank, skipSpaces_cons bracket, bind, Except.bind,
          pure, Except.pure]
      · rfl
  | cons second others inductionHypothesis =>
      obtain ⟨less, rfl⟩ : ∃ less, fuel = less + 1 := ⟨fuel - 1, by omega⟩
      obtain ⟨spaces, separator, spacesBlank⟩ := breaks.separator level
      have item := firstWritten level room less _
        (ends_writtenItems breaks level blank (second :: others) rest) (by omega)
      simp only [writtenItems, separator, List.length_append, List.length_cons] at enough
      have secondWritten := each second List.mem_cons_self
      have later := inductionHypothesis
        (fun item member => each item (List.mem_cons_of_mem _ member)) second secondWritten less
        (by omega)
      have visible := (secondWritten.visible level
        (ends_writtenItems breaks level blank others rest)).1
      have comma : isJsonSpace ',' = false := rfl
      rw [depthOfItems, itemsThen, item]
      by_cases here : first.depth ≤ room
      · rw [ifRoom_of_le here]
        simp only [writtenItems, separator, List.cons_append, List.append_assoc,
          skipSpaces_cons comma, skipSpaces_append spacesBlank, visible, later, bind, Except.bind]
        by_cases enough : depthOfItems (second :: others) ≤ room <;>
          simp [ifRoom, Nat.max_le, here, enough, pure, Except.pure]
      · simp [ifRoom, Nat.max_le, here, bind, Except.bind]

/-- A field is read up to what follows its value, if there is room for that. -/
theorem fieldsThen_field (level : Nat) (key : String) {value : Value}
    (valueWritten : IsWritten layout value) (room : Nat) {less : Nat}
    (enough : (writtenText key).length + (written layout level value).length ≤ less)
    {rest : List Char} (ends : Ends rest) :
    fieldsThen room (less + 1) (writtenText key ++ (':' :: ' ' :: (written layout level value ++
      rest))) = (do
        let _ ← ifRoom room value.depth ()
        match skipSpaces rest with
        | [] => .error .malformed
        | c :: after =>
          if c == '\x7d' then .ok ([(key, value)], after)
          else if c == ',' then do
            let (fields, later) ← fieldsThen room less (skipSpaces after)
            return ((key, value) :: fields, later)
          else .error .malformed) := by
  have colon : isJsonSpace ':' = false := rfl
  have space : isJsonSpace ' ' = true := rfl
  have keyShort := length_le_flatMap key.toList
  simp only [writtenText, List.length_append, List.length_cons, List.length_nil] at enough
  have keyEnough : key.toList.length < less := by omega
  have name := quotedText?_flatMap keyEnough
    (':' :: ' ' :: (written layout level value ++ rest))
  have item := valueWritten level room less rest ends (by omega)
  have visible := (valueWritten.visible level ends).1
  have blank : ∀ c ∈ [' '], isJsonSpace c = true := by simp [space]
  have skipped : skipSpaces (' ' :: (written layout level value ++ rest)) =
      written layout level value ++ rest :=
    (skipSpaces_append blank _).trans visible
  simp only [writtenText, List.cons_append, List.append_assoc, List.nil_append, fieldsThen, name,
    skipSpaces_cons colon, skipped, item, ifRoom]
  by_cases here : value.depth ≤ room
  · simp only [here, if_true, bind, Except.bind]
    cases skipSpaces rest with
    | nil => simp
    | cons c after => simp [pure, Except.pure]
  · simp [here, bind, Except.bind]

/-- The fields of a record are read up to the end of the record. -/
theorem fieldsThen_written (breaks : layout.Breaks) (level : Nat) {edge : List Char}
    (blank : ∀ c ∈ edge, isJsonSpace c = true) (rest : List Char) (room : Nat)
    (fields : List (String × Value)) (each : ∀ field ∈ fields, IsWritten layout field.2)
    (key : String) (value : Value) (valueWritten : IsWritten layout value) (fuel : Nat)
    (enough : (writtenText key).length + (written layout level value).length +
      (writtenFields layout level fields).length < fuel) :
    fieldsThen room fuel (writtenText key ++ (':' :: ' ' :: (written layout level value ++
      (writtenFields layout level fields ++ (edge ++ '\x7d' :: rest))))) =
        ifRoom room (depthOfFields ((key, value) :: fields)) ((key, value) :: fields, rest) := by
  induction fields generalizing key value fuel with
  | nil =>
      obtain ⟨less, rfl⟩ : ∃ less, fuel = less + 1 := ⟨fuel - 1, by omega⟩
      have brace : isJsonSpace '\x7d' = false := rfl
      rw [fieldsThen_field level key valueWritten room (by omega)
        (ends_writtenFields breaks level blank [] rest)]
      simp only [ifRoom, depthOfFields, Nat.max_zero]
      split
      · simp [writtenFields, skipSpaces_append blank, skipSpaces_cons brace, bind, Except.bind]
      · rfl
  | cons second others inductionHypothesis =>
      obtain ⟨less, rfl⟩ : ∃ less, fuel = less + 1 := ⟨fuel - 1, by omega⟩
      obtain ⟨secondKey, secondValue⟩ := second
      obtain ⟨spaces, separator, spacesBlank⟩ := breaks.separator level
      rw [fieldsThen_field level key valueWritten room (by omega)
        (ends_writtenFields breaks level blank _ rest)]
      simp only [writtenFields, separator, List.length_append, List.length_cons,
        List.length_nil] at enough
      have later := inductionHypothesis
        (fun field member => each field (List.mem_cons_of_mem _ member)) secondKey secondValue
        (each _ List.mem_cons_self) less (by omega)
      have quote : isJsonSpace '"' = false := rfl
      have comma : isJsonSpace ',' = false := rfl
      have skipped : ∀ after, skipSpaces (writtenText secondKey ++ after) =
          writtenText secondKey ++ after := fun after => by
        simp only [writtenText, List.cons_append, skipSpaces_cons quote]
      rw [depthOfFields]
      by_cases here : value.depth ≤ room
      · simp only [ifRoom_of_le here, writtenFields, separator, List.cons_append,
          List.append_assoc, List.nil_append, skipSpaces_append spacesBlank,
          skipSpaces_cons comma, skipped, later, bind, Except.bind]
        by_cases enough : depthOfFields ((secondKey, secondValue) :: others) ≤ room <;>
          simp [ifRoom, Nat.max_le, here, enough, pure, Except.pure]
      · simp [ifRoom, Nat.max_le, here, bind, Except.bind]

/-- A word is read back. -/
theorem isWritten_word {value : Value} (word : List Char)
    (spelled : ∀ level, written layout level value = word)
    (read : ∀ room fuel rest,
      valueThen room (fuel + 1) (word ++ rest) = ifRoom room value.depth (value, rest))
    (some : word ≠ []) : IsWritten layout value := by
  intro level room fuel rest _ enough
  rw [spelled] at enough ⊢
  have positive := List.length_pos_iff.mpr some
  obtain ⟨less, rfl⟩ : ∃ less, fuel = less + 1 := ⟨fuel - 1, by omega⟩
  exact read room less rest

/-- A list is read back if its items are. -/
theorem isWritten_list (breaks : layout.Breaks) {items : List Value}
    (each : ∀ item ∈ items, IsWritten layout item) : IsWritten layout (.list items) := by
  cases items with
  | nil =>
      exact isWritten_word ['[', ']'] (fun _ => by rw [written])
        (fun room _ _ => by cases room <;> rfl) (by decide)
  | cons first others =>
      intro level room fuel rest _ enough
      simp only [written, List.length_append, List.length_cons, List.length_nil] at enough
      obtain ⟨less, rfl⟩ : ∃ less, fuel = less + 1 := ⟨fuel - 1, by omega⟩
      have firstWritten := each first List.mem_cons_self
      have inside := itemsThen_written breaks (level + 1) (breaks.edge level) rest (room - 1) others
        (fun item member => each item (List.mem_cons_of_mem _ member)) first firstWritten less
        (by omega)
      have visible := firstWritten.visible (level + 1)
        (ends_writtenItems breaks (level + 1) (breaks.edge level) others rest)
      simp only [written, List.cons_append, List.append_assoc, List.nil_append]
      refine valueThen_list ?_ visible.2 inside
      rw [skipSpaces_append (breaks.edge (level + 1)), visible.1]

/-- A record is read back if the values of its fields are, and no name stands in it twice. -/
theorem isWritten_record (breaks : layout.Breaks) {fields : List (String × Value)}
    (distinct : (fields.map Prod.fst).Nodup)
    (each : ∀ field ∈ fields, IsWritten layout field.2) : IsWritten layout (.record fields) := by
  cases fields with
  | nil =>
      exact isWritten_word ['\x7b', '\x7d'] (fun _ => by rw [written])
        (fun room _ _ => by cases room <;> rfl) (by decide)
  | cons first others =>
      intro level room fuel rest _ enough
      obtain ⟨key, value⟩ := first
      simp only [written, List.length_append, List.length_cons, List.length_nil] at enough
      obtain ⟨less, rfl⟩ : ∃ less, fuel = less + 1 := ⟨fuel - 1, by omega⟩
      have inside := fieldsThen_written breaks (level + 1) (breaks.edge level) rest (room - 1) others
        (fun field member => each field (List.mem_cons_of_mem _ member)) key value
        (each (key, value) List.mem_cons_self) less (by omega)
      have quote : isJsonSpace '"' = false := rfl
      have merged : Keyed.merge [] ((key, value) :: others) = (key, value) :: others :=
        Keyed.merge_of_distinct distinct
      simp only [written, List.cons_append, List.append_assoc, List.nil_append]
      refine (valueThen_record ?_ ?_ inside).trans (by rw [merged, Value.depth])
      · rw [skipSpaces_append (breaks.edge (level + 1))]
        simp only [writtenText, List.cons_append, skipSpaces_cons quote]
      · simp [writtenText]

/-- Every restorable value is read back from what is written for it. -/
theorem Restorable.isWritten {value : Value} (restorable : Restorable value)
    (breaks : layout.Breaks) : IsWritten layout value := by
  induction restorable with
  | null =>
      exact isWritten_word "null".toList (fun _ => by rw [written]) (fun _ _ _ => rfl) (by decide)
  | bool truth =>
      cases truth with
      | false =>
          exact isWritten_word "false".toList (fun _ => by rw [written]; rfl) (fun _ _ _ => rfl)
            (by decide)
      | true =>
          exact isWritten_word "true".toList (fun _ => by rw [written]; rfl) (fun _ _ _ => rfl)
            (by decide)
  | integer number =>
      intro level
      rw [written]
      exact number
  | float number =>
      intro level
      rw [written]
      exact number
  | text text =>
      intro level
      rw [written]
      exact isTextOf_writtenText text
  | list each inductionHypothesis => exact isWritten_list breaks inductionHypothesis
  | record distinct each inductionHypothesis =>
      exact isWritten_record breaks distinct inductionHypothesis

/-- Reading takes back what is written for a restorable value, if there is room for it. -/
theorem readWithin_written (breaks : layout.Breaks) {value : Value}
    (restorable : Restorable value) (room : Nat) :
    readWithin room (written layout 0 value) = ifRoom room value.depth value := by
  have isWritten := restorable.isWritten breaks
  have ends : Ends [] := fun c begins => by cases begins
  have visible := (isWritten.visible 0 ends).1
  have whole := isWritten 0 room (2 * (written layout 0 value).length + 2) [] ends (by omega)
  rw [List.append_nil] at visible whole
  simp only [readWithin, visible, whole, ifRoom]
  split <;> rfl

end Written

/-! ### The two layouts -/

theorem breaks_compact : Layout.compact.Breaks where
  edge := fun _ _ member => by cases member
  separator := fun _ => ⟨[' '], rfl, by simp [isJsonSpace]⟩

theorem breaks_indented : Layout.indented.Breaks := by
  have blank : ∀ level, ∀ c ∈ indentBreak level, isJsonSpace c = true := by
    intro level c member
    rcases List.mem_cons.mp member with rfl | space
    · rfl
    · rw [(List.mem_replicate.mp space).2]
      rfl
  exact {
    edge := blank
    separator := fun level => ⟨indentBreak level, rfl, blank level⟩ }

/-- A value on one line is read back. -/
theorem read_compact {value : Value} (restorable : Restorable value) :
    read value.compact.toList = .ok value := by
  rw [read, Value.compact, String.toList_ofList, readWithin_written breaks_compact restorable,
    ifRoom_of_le (depth_le_length .compact 0 value)]

/-- A value with one item a line is read back, if there is room for it. -/
theorem readWithin_indented {value : Value} (restorable : Restorable value) (room : Nat) :
    readWithin room value.indented.toList = ifRoom room value.depth value := by
  rw [Value.indented, String.toList_ofList, readWithin_written breaks_indented restorable]

end TapeLab.Json
