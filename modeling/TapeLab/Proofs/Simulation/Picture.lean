import TapeLab.Proofs.Simulation.Performing
import TapeLab.Proofs.Text.Digits
import TapeLab.Proofs.Text.Trimming
import TapeLab.Proofs.WholeNames
import TapeLab.Simulation.Picture

/-!
# What a picture shows

The line of cells and the line with the caret are cut into columns of one width, that of the
longest cell shown (`Picture.cellLine_concat_space`, `Picture.caretLine_concat_space`).  So the
caret stands where the cell under the head begins, whatever symbols are on the tape, and wherever
the window ends (`Simulation.pointsAtHead_of_actions`).

The two are the first lines of the picture unless a symbol has a line boundary in it.  A run names
nothing but what its machine names, so it is enough to ask this of the machine; and a machine that
is read from a source has no such symbol (`Simulation.lines_picture_of_source`).
-/

namespace TapeLab

namespace Picture

open TapeLab.Text

section Columns

variable {α : Type} {width index : Nat} {item : α} {items : List α} {text : List Char}
  {texts : List (List Char)} {block : α → List Char}

/-- Texts with a space between them, and one more, are texts each with a space. -/
theorem spaced_concat_space (nonempty : texts ≠ []) :
    spaced texts ++ [' '] = texts.flatMap fun text => text ++ [' '] := by
  induction texts with
  | nil => exact absurd rfl nonempty
  | cons text rest inductionHypothesis =>
      cases rest with
      | nil => simp [spaced]
      | cons next others =>
          have later := inductionHypothesis (List.cons_ne_nil next others)
          rw [spaced] at later ⊢
          rw [List.intercalate_cons_cons, List.flatMap_cons, ← later]
          simp

/-- Blocks of one width are as wide together as their number says. -/
theorem length_blocks (even : ∀ item ∈ items, (block item).length = width) :
    (items.flatMap block).length = items.length * width := by
  rw [List.length_flatMap, List.map_congr_left even, List.map_const', List.sum_replicate_nat]

/-- Of blocks of one width each stands at its own multiple of the width. -/
theorem block_at (even : ∀ item ∈ items, (block item).length = width)
    (stands : items[index]? = some item) :
    ((items.flatMap block).drop (index * width)).take width = block item := by
  induction items generalizing index with
  | nil => simp at stands
  | cons first rest inductionHypothesis =>
      obtain ⟨firstWide, restEven⟩ := List.forall_mem_cons.mp even
      rw [List.flatMap_cons]
      cases index with
      | zero =>
          obtain rfl : first = item := by simpa using stands
          rw [Nat.zero_mul, List.drop_zero, List.take_left' firstWide]
      | succ index =>
          rw [Nat.succ_mul, Nat.add_comm, ← List.drop_drop, List.drop_left' firstWide]
          exact inductionHypothesis restEven (by simpa using stands)

/-- Blocks of spaces are spaces. -/
theorem blocks_of_spaces (spaces : ∀ item ∈ items, block item = List.replicate width ' ') :
    items.flatMap block = List.replicate (items.length * width) ' ' := by
  rw [List.eq_replicate_iff]
  refine ⟨length_blocks fun item member => by simp [spaces item member], fun c member => ?_⟩
  obtain ⟨item, isItem, inside⟩ := List.mem_flatMap.mp member
  rw [spaces item isItem] at inside
  exact List.eq_of_mem_replicate inside

/-- A text that is no wider than its column fills it. -/
theorem length_padEnd (fits : text.length ≤ width) : (padEnd width text).length = width := by
  rw [padEnd, List.length_append, List.length_replicate]
  omega

/-- The greatest of the lengths of some texts. -/
theorem max?_map_length (nonempty : texts ≠ []) :
    (texts.map List.length).max? = some (widest texts) := by
  have folded : widest texts = (texts.map List.length).foldl max 0 := by
    rw [List.foldl_map, widest]
  cases longest : (texts.map List.length).max? with
  | none => exact absurd (List.map_eq_nil_iff.mp (List.max?_eq_none_iff.mp longest)) nonempty
  | some length => rw [folded, List.foldl_max, longest, Option.getD_some, Nat.zero_max]

/-- One of some texts is as long as the longest. -/
theorem exists_length_eq_widest (nonempty : texts ≠ []) :
    ∃ text ∈ texts, text.length = widest texts :=
  List.mem_map.mp (List.max?_eq_some_iff.mp (max?_map_length nonempty)).1

/-- No text is longer than the longest. -/
theorem length_le_widest (member : text ∈ texts) : text.length ≤ widest texts :=
  (List.max?_eq_some_iff.mp (max?_map_length (List.ne_nil_of_mem member))).2 _
    (List.mem_map_of_mem member)

end Columns

section Cells

variable {blank : Symbol} {window cell : Nat} {config : Config}

/-- A picture shows the cells that are no farther from the head than its window is wide. -/
def Shows (window : Nat) (config : Config) (cell : Nat) : Prop :=
  config.head - window ≤ cell ∧ cell ≤ config.head + window

/-- The cells of a picture are those that it shows. -/
theorem mem_shownCells_iff : cell ∈ shownCells window config ↔ Shows window config cell := by
  rw [shownCells, List.mem_range'_1, firstCell, Shows]
  omega

/-- The head is among the cells of a picture. -/
theorem shownCells_eq :
    shownCells window config = List.range' (firstCell window config)
        (config.head - firstCell window config) ++
      config.head :: List.range' (config.head + 1) window := by
  have reaches : firstCell window config + (config.head - firstCell window config) =
      config.head := by
    rw [firstCell]
    omega
  have count : config.head + window + 1 - firstCell window config =
      (config.head - firstCell window config) + (window + 1) := by
    omega
  rw [shownCells, count, ← List.range'_append_1, reaches, List.range'_succ]

/-- A cell stands in a picture as many places behind the first one as on the tape. -/
theorem getElem?_shownCells (shows : Shows window config cell) :
    (shownCells window config)[cell - firstCell window config]? = some cell := by
  obtain ⟨least, most⟩ := shows
  rw [shownCells, List.getElem?_range' (by rw [firstCell] at *; omega), firstCell]
  congr 1
  omega

/-- The width of the columns of a picture. -/
def columnWidth (blank : Symbol) (window : Nat) (config : Config) : Nat :=
  widest ((shownCells window config).map (cellText blank config))

/-- One of the cells shown is as long as the columns are wide. -/
theorem exists_length_eq_columnWidth (blank : Symbol) (window : Nat) (config : Config) :
    ∃ cell, Shows window config cell ∧
      (cellText blank config cell).length = columnWidth blank window config := by
  have nonempty : (shownCells window config).map (cellText blank config) ≠ [] := by
    simp [shownCells_eq]
  obtain ⟨text, member, longest⟩ := exists_length_eq_widest nonempty
  obtain ⟨cell, shown, rfl⟩ := List.mem_map.mp member
  exact ⟨cell, mem_shownCells_iff.mp shown, longest⟩

/-- No cell shown is longer than the columns are wide. -/
theorem length_le_columnWidth (shows : Shows window config cell) :
    (cellText blank config cell).length ≤ columnWidth blank window config :=
  length_le_widest (List.mem_map_of_mem (mem_shownCells_iff.mpr shows))

/-- The columns have a width exactly if one of the cells shown is not empty. -/
theorem columnWidth_pos_iff :
    0 < columnWidth blank window config ↔
      ∃ cell, Shows window config cell ∧ cellText blank config cell ≠ [] := by
  constructor
  · intro visible
    obtain ⟨cell, shows, longest⟩ := exists_length_eq_columnWidth blank window config
    exact ⟨cell, shows, List.length_pos_iff.mp (longest ▸ visible)⟩
  · rintro ⟨cell, shows, nonempty⟩
    exact Nat.lt_of_lt_of_le (List.length_pos_iff.mpr nonempty) (length_le_columnWidth shows)

/-- The column of a cell in the line of cells. -/
def cellColumn (blank : Symbol) (window : Nat) (config : Config) (cell : Nat) : List Char :=
  padEnd (columnWidth blank window config) (cellText blank config cell) ++ [' ']

/-- The column of a cell in the line with the caret. -/
def caretColumn (blank : Symbol) (window : Nat) (config : Config) (cell : Nat) : List Char :=
  padEnd (columnWidth blank window config) [if cell = config.head then '^' else ' '] ++ [' ']

/-- The line of cells, filled up with a space, is made up of columns. -/
theorem cellLine_concat_space :
    cellLine blank window config ++ [' '] =
      (shownCells window config).flatMap (cellColumn blank window config) := by
  have nonempty : ((shownCells window config).map (cellText blank config)).map
      (padEnd (columnWidth blank window config)) ≠ [] := by
    simp [shownCells_eq]
  refine (spaced_concat_space nonempty).trans ?_
  rw [List.map_map, List.flatMap_map]
  rfl

/-- So is the line with the caret. -/
theorem caretLine_concat_space :
    caretLine blank window config ++ [' '] =
      (shownCells window config).flatMap (caretColumn blank window config) := by
  have nonempty : (shownCells window config).map (fun cell =>
      padEnd (columnWidth blank window config) [if cell = config.head then '^' else ' ']) ≠ [] := by
    simp [shownCells_eq]
  refine (spaced_concat_space nonempty).trans ?_
  rw [List.flatMap_map]
  rfl

/-- The column of a cell is as wide as all are, and one space more. -/
theorem length_cellColumn (shown : cell ∈ shownCells window config) :
    (cellColumn blank window config cell).length = columnWidth blank window config + 1 := by
  rw [cellColumn, List.length_append, List.length_singleton,
    length_padEnd (length_le_columnWidth (mem_shownCells_iff.mp shown))]

/-- The caret is followed by spaces, and other columns hold nothing but spaces. -/
theorem caretColumn_eq (visible : 0 < columnWidth blank window config) :
    caretColumn blank window config cell =
      (if cell = config.head then '^' else ' ') ::
        List.replicate (columnWidth blank window config) ' ' := by
  obtain ⟨width, isWidth⟩ := Nat.exists_eq_add_of_lt visible
  rw [caretColumn, padEnd, isWidth]
  simp [List.replicate_succ']

/-- Columns of cells that are not under the head hold nothing but spaces. -/
theorem caretColumns_eq_spaces (visible : 0 < columnWidth blank window config) {cells : List Nat}
    (apart : ∀ cell ∈ cells, cell ≠ config.head) :
    cells.flatMap (caretColumn blank window config) =
      List.replicate (cells.length * (columnWidth blank window config + 1)) ' ' :=
  blocks_of_spaces fun cell member => by
    rw [caretColumn_eq visible, if_neg (apart cell member), List.replicate_succ]

/-- The line with the caret, filled up with a space: nothing but spaces around the caret. -/
theorem caretLine_eq (visible : 0 < columnWidth blank window config) :
    caretLine blank window config ++ [' '] =
      List.replicate ((config.head - firstCell window config) *
        (columnWidth blank window config + 1)) ' ' ++
      '^' :: List.replicate (columnWidth blank window config +
        window * (columnWidth blank window config + 1)) ' ' := by
  have before : ∀ cell ∈ List.range' (firstCell window config)
      (config.head - firstCell window config), cell ≠ config.head := fun cell member => by
    rw [List.mem_range'_1] at member
    omega
  have after : ∀ cell ∈ List.range' (config.head + 1) window, cell ≠ config.head :=
    fun cell member => by
      rw [List.mem_range'_1] at member
      omega
  rw [caretLine_concat_space, shownCells_eq, List.flatMap_append, List.flatMap_cons,
    caretColumns_eq_spaces visible before, caretColumns_eq_spaces visible after,
    caretColumn_eq visible, if_pos rfl, List.cons_append, List.replicate_append_replicate,
    List.length_range', List.length_range']

/-- The caret stands at the column of the head, and nothing stands after it. -/
theorem trimEnd_caretLine (visible : 0 < columnWidth blank window config) :
    trimEnd (caretLine blank window config) =
      List.replicate ((config.head - firstCell window config) *
        (columnWidth blank window config + 1)) ' ' ++ ['^'] := by
  have blanks (count : Nat) : AllBlank (List.replicate count ' ') := fun c member => by
    rw [List.eq_of_mem_replicate member]
    decide
  rw [← trimEnd_append (blanks 1), List.replicate_one, caretLine_eq visible,
    trimEnd_append_visible (by decide), trimEnd_of_allBlank (blanks _)]

/-- A picture of a configuration, of a width, with its line of cells and its line with a caret. -/
structure PointsAtHead (blank : Symbol) (window : Nat) (config : Config) (picture : String)
    (width : Nat) (cells caret : List Char) : Prop where
  /-- Below the two lines there is one about the configuration. -/
  picture_eq : picture =
    String.ofList cells ++ "\n" ++ String.ofList caret ++ "\n" ++ statusLine config
  /-- The width is the length of the longest cell that is shown. -/
  width_eq : ∃ cell, Shows window config cell ∧ (cellText blank config cell).length = width
  width_le : ∀ cell, Shows window config cell → (cellText blank config cell).length ≤ width
  /-- In front of the caret there are spaces, as many as the columns up to the head are wide. -/
  caret_eq : caret =
    List.replicate ((config.head - firstCell window config) * (width + 1)) ' ' ++ ['^']
  /-- With the white space that was cut off, the line of cells is made up of the columns of the
  cells shown, each of them a cell with spaces up to the width and one more. -/
  columns : ∃ blanks, AllBlank blanks ∧
    (cells ++ blanks).length =
      (config.head + window + 1 - firstCell window config) * (width + 1) ∧
    ∀ cell, Shows window config cell →
      ((cells ++ blanks).drop ((cell - firstCell window config) * (width + 1))).take (width + 1) =
        padEnd width (cellText blank config cell) ++ [' ']

/-- A picture that shows anything of a cell points at the head. -/
theorem pointsAtHead_render (visible : 0 < columnWidth blank window config) :
    PointsAtHead blank window config (render blank window config)
      (columnWidth blank window config) (trimEnd (cellLine blank window config))
      (trimEnd (caretLine blank window config)) where
  picture_eq := rfl
  width_eq := exists_length_eq_columnWidth blank window config
  width_le _ := length_le_columnWidth
  caret_eq := trimEnd_caretLine visible
  columns := by
    obtain ⟨after, allBlank, cut⟩ := exists_trimEnd (cellLine blank window config)
    refine ⟨after ++ [' '], List.forall_mem_append.mpr ⟨allBlank, by simp [isBlank]⟩, ?_⟩
    rw [← List.append_assoc, ← cut, cellLine_concat_space]
    refine ⟨?_, fun cell shows =>
      block_at (fun _ => length_cellColumn) (getElem?_shownCells shows)⟩
    rw [length_blocks fun _ => length_cellColumn, shownCells, List.length_range']

example : render "_" 2 { state := "q0", tape := #["0", "0", "0", "1"], head := 1, steps := 1 } =
    "0 0 0 1\n  ^\nState: q0, Step: 1, Status: running" := by decide

/-! ### Lines of pictures -/

/-- No line ends in a column if none ends in what is filled up there. -/
theorem unbroken_column {text : List Char} (whole : Unbroken text) (width : Nat) :
    Unbroken (padEnd width text ++ [' ']) := by
  refine unbroken_append.mpr ⟨unbroken_append.mpr ⟨whole, fun c member => ?_⟩, by decide⟩
  rw [List.eq_of_mem_replicate member]
  decide

/-- No line ends in what is left of a line if none ends in its columns. -/
theorem unbroken_trimEnd {line : List Char} {cells : List Nat} {column : Nat → List Char}
    (cut : line ++ [' '] = cells.flatMap column) (whole : ∀ cell ∈ cells, Unbroken (column cell)) :
    Unbroken (trimEnd line) := by
  have columns : Unbroken (line ++ [' ']) := fun c member => by
    rw [cut] at member
    obtain ⟨cell, isCell, inside⟩ := List.mem_flatMap.mp member
    exact whole cell isCell c inside
  obtain ⟨after, -, trimmed⟩ := exists_trimEnd line
  rw [trimmed, List.append_assoc] at columns
  exact (unbroken_append.mp columns).1

/-- No line ends in the line of cells if none ends in a cell. -/
theorem unbroken_cells (whole : config.Unbroken) (wholeBlank : Unbroken blank.toList) :
    Unbroken (trimEnd (cellLine blank window config)) :=
  unbroken_trimEnd cellLine_concat_space fun cell _ =>
    unbroken_column (whole.getD wholeBlank cell) _

/-- No line ends in the line with the caret. -/
theorem unbroken_caret : Unbroken (trimEnd (caretLine blank window config)) := by
  refine unbroken_trimEnd caretLine_concat_space fun cell _ => unbroken_column ?_ _
  split <;> decide

/-- No line ends in the line about a configuration. -/
theorem unbroken_statusLine (whole : config.Unbroken) : Unbroken (statusLine config).toList := by
  obtain ⟨label, step, status⟩ : Unbroken "State: ".toList ∧ Unbroken ", Step: ".toList ∧
      Unbroken ", Status: ".toList := by decide +kernel
  obtain ⟨opening, state, symbol, quote, closing⟩ : Unbroken " (".toList ∧
      Unbroken "No transition defined for state '".toList ∧
      Unbroken "' reading symbol '".toList ∧ Unbroken "'".toList ∧ Unbroken ")".toList := by
    decide +kernel
  have word : Unbroken config.status.word.toList := by cases config.status <;> decide +kernel
  have plain := ((((label.append whole.state).append step).append
    (unbroken_toString config.steps)).append status).append word
  unfold statusLine
  cases isMissing : config.missing with
  | none => exact plain
  | some missing =>
      obtain ⟨missedState, missedSymbol⟩ := whole.missing missing isMissing
      have message := (((state.append missedState).append symbol).append missedSymbol).append quote
      exact ((plain.append opening).append message).append closing

/-- A picture of a configuration in which no line ends has the three lines that it is made of. -/
theorem lines_render (whole : config.Unbroken) (wholeBlank : Unbroken blank.toList) :
    lines (render blank window config).toList =
      [trimEnd (cellLine blank window config), trimEnd (caretLine blank window config),
        (statusLine config).toList] := by
  have feed : "\n".toList = ['\n'] := rfl
  have nonempty : (statusLine config).toList ≠ [] := by
    unfold statusLine
    split <;> simp
  rw [render]
  simp only [String.toList_append, String.toList_ofList, feed, List.append_assoc,
    List.cons_append, List.nil_append]
  rw [lines_append_feed (unbroken_cells whole wholeBlank), lines_append_feed unbroken_caret,
    lines_of_no_break (unbroken_statusLine whole) nonempty]

end Cells

end Picture

namespace Simulation

open Picture

variable {start : Simulation} {machine : Definition} {writeBlank keepHistory : Bool}

/-- Whatever is done to a simulation, its picture is that of its configuration. -/
theorem render?_performAll
    (started : Simulation.start machine writeBlank keepHistory = .ok start)
    (actions : List Action) (window : Nat) :
    (start.performAll actions).render? window =
      some (Picture.render machine.blank window (start.performAll actions).config) := by
  obtain ⟨-, rfl⟩ := start_eq_ok_iff.mp started
  rw [render?, if_neg (by omega), Int.toNat_natCast, Simulation.render,
    ((simulates_atStart machine writeBlank keepHistory).performAll actions).definition]

/-- Whatever is done to a simulation, no line ends in a name of its configuration if none ends in
one of its machine. -/
theorem unbroken_performAll
    (started : Simulation.start machine writeBlank keepHistory = .ok start)
    (unbroken : machine.Unbroken) (actions : List Action) :
    (start.performAll actions).config.Unbroken := by
  obtain ⟨-, rfl⟩ := start_eq_ok_iff.mp started
  exact (simulates_atStart machine writeBlank keepHistory).performAll_keeps unbroken.initial
    unbroken.step unbroken.initial actions

/-- Whatever is done to a simulation, its picture points at the head as long as something of a cell
is shown; and its lines are the three that it is made of if no line ends in a name of the machine. -/
theorem pointsAtHead_of_actions
    (started : Simulation.start machine writeBlank keepHistory = .ok start)
    (actions : List Action) (window : Nat) :
    let config := (start.performAll actions).config
    (∃ cell, Shows window config cell ∧ Picture.cellText machine.blank config cell ≠ []) →
      ∃ picture width cells caret,
        (start.performAll actions).render? window = some picture ∧
          PointsAtHead machine.blank window config picture width cells caret ∧
          (machine.Unbroken →
            Text.lines picture.toList = [cells, caret, (statusLine config).toList]) := by
  intro config nonempty
  refine ⟨_, _, _, _, render?_performAll started actions window,
    pointsAtHead_render (columnWidth_pos_iff.mpr nonempty), fun unbroken => ?_⟩
  exact lines_render (unbroken_performAll started unbroken actions) unbroken.blank

/-- A machine that writes a symbol longer than its others, in the middle of its tape. -/
def widener : Definition :=
  { dialect := .structured, tape := ["0", "1", "1"], start := "s", blank := " ",
    rules := [⟨"s", "0", "t", " ", .right, true, none⟩, ⟨"t", "1", "u", "ab", .right, false, none⟩] }

/-- After two steps it stands behind the long symbol. -/
theorem config_widener :
    ((atStart widener false false).performAll [.run 2]).config =
      { state := "u", tape := #["0", "ab", "1"], head := 2, steps := 2 } := by
  simp [performAll, perform, run_fst, atStart, widener, Table.ofDefinition, Definition.initial,
    Config.run, Config.finished, Config.step, Table.lookup_ofRules, Table.scan, Table.firstFor,
    Rule.key, Config.scanned, Config.apply, Config.written, Config.writes]

/-- The picture begins with the long symbol and ends in white space, beyond the tape. -/
theorem pointsAtHead_of_actions_widener :
    let start := atStart widener false false
    let config := (start.performAll [.run 2]).config
    Simulation.start widener false false = .ok start ∧ widener.Unbroken ∧
      (Shows 1 config 3 ∧ Picture.cellText widener.blank config 3 ≠ []) ∧
      ∃ picture width cells caret,
        (start.performAll [.run 2]).render? 1 = some picture ∧
          PointsAtHead widener.blank 1 config picture width cells caret ∧
          Text.lines picture.toList = [cells, caret, (statusLine config).toList] := by
  intro start config
  have started : Simulation.start widener false false = .ok start := rfl
  have unbroken : widener.Unbroken := ⟨by decide, by decide, by decide, by decide⟩
  have visible : Shows 1 config 3 ∧ Picture.cellText widener.blank config 3 ≠ [] := by
    rw [show config = _ from config_widener]
    exact ⟨by unfold Shows; decide, by decide⟩
  obtain ⟨picture, width, cells, caret, drawn, points, lines⟩ :=
    pointsAtHead_of_actions started [.run 2] 1 ⟨3, visible⟩
  exact ⟨started, unbroken, visible, picture, width, cells, caret, drawn, points, lines unbroken⟩

/-- Whatever is done to a simulation of a machine that was read from a source, its picture has three
lines. -/
theorem lines_picture_of_source (source : String) (dialect : Option Dialect)
    (started : Simulation.start (Source.read source dialect) writeBlank keepHistory = .ok start)
    (actions : List Action) (window : Nat) :
    ∃ picture, (start.performAll actions).render? window = some picture ∧
      (Text.lines picture.toList).length = 3 := by
  have unbroken := Source.unbroken_read source dialect
  refine ⟨_, render?_performAll started actions window, ?_⟩
  rw [lines_render (unbroken_performAll started unbroken actions) unbroken.blank]
  rfl

end Simulation

end TapeLab
