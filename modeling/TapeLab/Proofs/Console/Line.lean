import Mathlib.Data.List.Basic
import Mathlib.Data.List.Flatten
import TapeLab.Console.Terminal
import TapeLab.Proofs.Text.Markup

/-!
# Lines with fillings

A line for the console is markup of the program's own with texts put in between (`Line`).  On a
terminal that disarms what it escapes, the tags that are active in a line are those of the markup,
whatever was put in, as long as what comes from outside is escaped or begins no tag
(`Line.activeTags_sublist`).  A closing tag right after such a text can get lost, if the text ends
in an odd number of backslashes; otherwise every tag of the markup is active
(`Line.activeTags_eq`).
-/

namespace TapeLab.Console

open Text

/-- No character of a text can begin a tag or guard one. -/
def Unmarked (text : String) : Prop :=
  ∀ c ∈ text.toList, c ≠ '[' ∧ c ≠ '\\'

-- A literal is the text of its characters by definition, which costs less to check than to have
-- its bytes decoded.
theorem unmarked_of_chars {text : String} (chars : List Char) (spelled : text = String.ofList chars)
    (plain : (chars.all fun c => c != '[' && c != '\\') = true) :
    Unmarked text := by
  simpa [Unmarked, spelled] using plain

theorem Unmarked.append {first second : String} (begins : Unmarked first)
    (ends : Unmarked second) : Unmarked (first ++ second) := by
  intro c member
  rw [String.toList_append] at member
  exact (List.mem_append.mp member).elim (begins c) (ends c)

theorem unmarked_of_isDigit {c : Char} (digit : c.isDigit = true) : c ≠ '[' ∧ c ≠ '\\' := by
  constructor
  all_goals
    rintro rfl
    exact absurd digit (by decide)

/-- A text that is put into a line. -/
inductive Filling where
  /-- A text of the program's own that is not always the same, such as a number. -/
  | own (text : String)
  /-- A text from outside, escaped. -/
  | guarded (text : String)
  /-- A text from outside, as it is. -/
  | bare (text : String)
  deriving DecidableEq

namespace Filling

/-- What a line shows of a filling. -/
def shown [Terminal] : Filling → String
  | .own text => text
  | .guarded text => Terminal.escape text
  | .bare text => text

/-- The filling without its text. -/
def blank : Filling → Filling
  | .own _ => .own ""
  | .guarded _ => .guarded ""
  | .bare _ => .bare ""

/-- A text of the program's own is plain. -/
def Proper : Filling → Prop
  | .own text => Unmarked text
  | _ => True

/-- No tag begins in a text from outside that is put in as it is. -/
def Harmless : Filling → Prop
  | .bare text => beginsTag text.toList = false
  | _ => True

/-- Whether a filling was escaped. -/
def isGuarded : Filling → Bool
  | .guarded _ => true
  | _ => false

/-- Whether a filling may stand before a markup.  An escaped text can hold a bracket that is not
closed, so that only the bracket of another tag may follow. -/
def fits (isGuarded : Bool) : List Char → Bool
  | [] => true
  | c :: _ => if isGuarded then c == '[' else !startsTagName c && c != '\\'

end Filling

/-- A line: the markup that it begins with, and fillings with the markup after each. -/
structure Line where
  start : String
  rest : List (Filling × String) := []
  deriving DecidableEq

namespace Line

/-- The text of a line. -/
def shown [Terminal] (line : Line) : String :=
  line.rest.foldl (fun text part => text ++ part.1.shown ++ part.2) line.start

/-- The line without the texts that were put in. -/
def outline (line : Line) : Line where
  start := line.start
  rest := line.rest.map fun part => (part.1.blank, part.2)

/-- The tags of the markup, which are all that a line should have. -/
def tags (line : Line) : List String :=
  activeTags line.start ++ line.rest.flatMap fun part => activeTags part.2

/-- What the program put in of its own is plain. -/
def Proper (line : Line) : Prop :=
  ∀ part ∈ line.rest, part.1.Proper

/-- No tag begins in what was put in as it is. -/
def Harmless (line : Line) : Prop :=
  ∀ part ∈ line.rest, part.1.Harmless

/-- No text right before a tag of the markup ends, as it is shown, in an odd number of
backslashes. -/
def Tidy [Terminal] (line : Line) : Prop :=
  ∀ part ∈ line.rest, part.2.toList.head? = some '[' →
    slashesAtEnd 0 part.1.shown.toList % 2 = 0

instance [Terminal] (line : Line) : Decidable line.Tidy :=
  inferInstanceAs (Decidable (∀ part ∈ line.rest, _))

variable {line : Line} {filling : Filling} {markup : String} {rest : List (Filling × String)}

/-- The tags of a line are those of its outline. -/
theorem tags_outline (line : Line) : line.outline.tags = line.tags := by
  simp [tags, outline, List.flatMap_map]

/-! ### Sound lines -/

/-- Whether a markup is complete by itself: no bracket is left open, and no backslash stands at
its end. -/
def settled (markup : List Char) : Bool :=
  !endsOpen markup && markup.getLast? != some '\\'

/-- Whether fillings stand only before markup that they fit, and markup is missing only at the
end. -/
def soundRest : List (Filling × String) → Bool
  | [] => true
  | (filling, markup) :: rest =>
    Filling.fits filling.isGuarded markup.toList && settled markup.toList &&
      (!markup.toList.isEmpty || rest.isEmpty) && soundRest rest

/-- A line in which tags of the markup are tags of its own, whatever is put in. -/
def sound (line : Line) : Bool :=
  settled line.start.toList && soundRest line.rest

/-- A line is sound if its parts are, given by their characters. -/
theorem sound_of_chars {start : String} (chars : List Char) (spelled : start = String.ofList chars)
    (complete : settled chars = true) (later : soundRest rest = true) :
    sound ⟨start, rest⟩ = true := by
  rw [sound, spelled, String.toList_ofList, complete, later]
  rfl

theorem soundRest_cons_of_chars (chars : List Char) (spelled : markup = String.ofList chars)
    (complete : settled chars = true) (filled : chars.isEmpty = false ∨ rest = [])
    (fits : Filling.fits filling.isGuarded chars = true) (later : soundRest rest = true) :
    soundRest ((filling, markup) :: rest) = true := by
  have ends : (!chars.isEmpty || rest.isEmpty) = true := by
    rcases filled with filled | rfl <;> simp [*]
  rw [soundRest, spelled, String.toList_ofList, fits, complete, ends, later]
  rfl

/-- The characters of the fillings and the markup after them. -/
def restChars [Terminal] (rest : List (Filling × String)) : List Char :=
  rest.flatMap fun part => part.1.shown.toList ++ part.2.toList

theorem toList_shown [Terminal] (line : Line) :
    line.shown.toList = line.start.toList ++ restChars line.rest := by
  obtain ⟨start, rest⟩ := line
  unfold shown
  induction rest generalizing start with
  | nil => simp [restChars]
  | cons part rest inductionHypothesis =>
      rw [List.foldl_cons, inductionHypothesis]
      simp [restChars, List.append_assoc]

/-- After a markup that is settled, no backslash is left over. -/
theorem slashesAtEnd_of_settled (complete : settled markup.toList = true)
    (filled : markup.toList ≠ []) (slashes : Nat) : slashesAtEnd slashes markup.toList = 0 := by
  obtain ⟨-, ends⟩ := Bool.and_eq_true_iff.mp complete
  obtain ⟨last, found⟩ := Option.ne_none_iff_exists'.mp (mt List.getLast?_eq_none_iff.mp filled)
  exact slashesAtEnd_of_getLast found (by simpa [found] using ends) slashes

/-- Every markup of a sound line fits the filling before it. -/
theorem fits_of_mem (sound : soundRest rest = true) :
    ∀ part ∈ rest, Filling.fits part.1.isGuarded part.2.toList = true := by
  induction rest with
  | nil => nofun
  | cons part rest inductionHypothesis =>
      simp only [soundRest, Bool.and_eq_true] at sound
      exact List.forall_mem_cons.mpr ⟨sound.1.1.1, inductionHypothesis sound.2⟩

/-- Markup after a filling does not begin with a backslash. -/
theorem head?_of_fits (fits : Filling.fits filling.isGuarded markup.toList = true) :
    markup.toList.head? ≠ some '\\' := by
  cases chars : markup.toList with
  | nil => nofun
  | cons c others =>
      rw [chars] at fits
      rintro slash
      obtain rfl : c = '\\' := by simpa using slash
      cases filling <;> simp [Filling.fits] at fits

/-- The tags of the markup after the first filling, as it stands by itself. -/
def restTags (rest : List (Filling × String)) : List (List Char) :=
  rest.flatMap fun part => activeTagsFrom 0 part.2.toList

theorem tags_eq (line : Line) : line.tags =
    (activeTagsFrom 0 line.start.toList ++ restTags line.rest).map String.ofList := by
  rw [tags, List.map_append, restTags, List.map_flatMap]
  rfl

/-- Whether the tags of a markup nest, and at most one of them stands after a filling. -/
def nestsAround (line : Line) : Bool :=
  nestsIn [] (activeTagsFrom 0 line.start.toList ++ restTags line.rest) &&
    (restTags line.rest).length ≤ 1

/-- A line that can be shown whatever is put into it from outside, as long as that is escaped: its
markup is sound and nests, and what the program put in of its own is plain. -/
structure Worded (line : Line) : Prop where
  sound : line.sound = true
  proper : line.Proper
  nests : line.nestsAround = true

/-- Fillings with the markup after them, as they can stand at the end of a line, and the tags of
that markup. -/
structure Filled (rest : List (Filling × String)) (tags : List (List Char)) : Prop where
  sound : soundRest rest = true
  proper : ∀ part ∈ rest, part.1.Proper
  tags : restTags rest = tags

theorem filled_nil : Filled [] [] :=
  ⟨rfl, nofun, rfl⟩

theorem Filled.cons {tags : List (List Char)} (chars : List Char)
    (spelled : markup = String.ofList chars)
    (complete : (settled chars && Filling.fits filling.isGuarded chars) = true)
    (filled : chars.isEmpty = false ∨ rest = []) (proper : filling.Proper)
    (later : Filled rest tags) :
    Filled ((filling, markup) :: rest) (activeTagsFrom 0 chars ++ tags) where
  sound := by
    obtain ⟨settles, fits⟩ := Bool.and_eq_true_iff.mp complete
    exact soundRest_cons_of_chars chars spelled settles filled fits later.sound
  proper := List.forall_mem_cons.mpr ⟨proper, later.proper⟩
  tags := by
    rw [← later.tags, restTags, List.flatMap_cons, spelled, String.toList_ofList]
    rfl

/-- A line is worded if it is so by its characters. -/
theorem Worded.of_chars {start : String} {tags : List (List Char)} (chars : List Char)
    (spelled : start = String.ofList chars) (complete : settled chars = true)
    (filled : Filled rest tags)
    (nest : (nestsIn [] (activeTagsFrom 0 chars ++ tags) && decide (tags.length ≤ 1)) = true) :
    Worded ⟨start, rest⟩ where
  sound := sound_of_chars chars spelled complete filled.sound
  proper := filled.proper
  nests := by
    rw [nestsAround, filled.tags, spelled, String.toList_ofList]
    exact nest

section Shown

variable [Terminal]

/-- The tags after a markup that is settled. -/
theorem activeTagsFrom_settled_append (complete : settled markup.toList = true)
    (last : markup.toList = [] → rest = []) (slashes : Nat) :
    activeTagsFrom slashes (markup.toList ++ restChars rest) =
      activeTagsFrom slashes markup.toList ++ activeTagsFrom 0 (restChars rest) := by
  have closed : endsOpen markup.toList = false := by
    simpa using (Bool.and_eq_true_iff.mp complete).1
  rw [activeTagsFrom_append_of_settled closed]
  by_cases empty : markup.toList = []
  · rw [last empty]
    rfl
  · rw [slashesAtEnd_of_settled complete empty]

/-- A filling adds no tag to what follows it. -/
theorem activeTagsFrom_filling_append (disarms : Terminal.Disarms)
    (fits : Filling.fits filling.isGuarded markup.toList = true)
    (last : markup.toList = [] → rest = []) (proper : filling.Proper)
    (harmless : filling.Harmless) :
    activeTagsFrom 0 (filling.shown.toList ++ (markup.toList ++ restChars rest)) =
      activeTagsFrom (slashesAtEnd 0 filling.shown.toList)
        (markup.toList ++ restChars rest) := by
  -- Nothing follows, or the markup does.
  have none : markup.toList = [] → markup.toList ++ restChars rest = [] := by
    intro empty
    rw [empty, last empty]
    rfl
  have unguarded : (∀ c others, markup.toList = c :: others → startsTagName c = false) →
      beginsTag filling.shown.toList = false →
      activeTagsFrom 0 (filling.shown.toList ++ (markup.toList ++ restChars rest)) =
        activeTagsFrom (slashesAtEnd 0 filling.shown.toList)
          (markup.toList ++ restChars rest) := by
    intro starts begins
    refine activeTagsFrom_append_of_not_beginsTag begins (fun c head => ?_) 0
    cases chars : markup.toList with
    | nil => simp [none chars] at head
    | cons d others =>
        obtain rfl : d = c := by simpa [chars] using head
        exact starts d others chars
  cases filling with
  | own text =>
      refine unguarded (fun c others chars => ?_)
        (beginsTag_of_not_mem fun member => (proper _ member).1 rfl)
      simp only [chars, Filling.isGuarded, Filling.fits, Bool.false_eq_true, if_false,
        Bool.and_eq_true, Bool.not_eq_true'] at fits
      exact fits.1
  | bare text =>
      refine unguarded (fun c others chars => ?_) harmless
      simp only [chars, Filling.isGuarded, Filling.fits, Bool.false_eq_true, if_false,
        Bool.and_eq_true, Bool.not_eq_true'] at fits
      exact fits.1
  | guarded text =>
      have closes : ClosesNothing (markup.toList ++ restChars rest) := by
        cases chars : markup.toList with
        | nil =>
            rw [← chars, none chars]
            exact closesNothing_nil
        | cons c others =>
            obtain rfl : c = '[' := by simpa [chars, Filling.isGuarded, Filling.fits] using fits
            exact closesNothing_bracket _
      have disarmed : activeTagsFrom 0 (Terminal.escape text).toList = [] :=
        List.map_eq_nil_iff.mp (disarms text)
      rw [Filling.shown, closes.activeTagsFrom_append, disarmed, List.nil_append]

/-- The tags of fillings and the markup after them, one after another. -/
theorem activeTagsFrom_restChars_cons (disarms : Terminal.Disarms)
    (sound : soundRest ((filling, markup) :: rest) = true) (proper : filling.Proper)
    (harmless : filling.Harmless) :
    activeTagsFrom 0 (restChars ((filling, markup) :: rest)) =
      activeTagsFrom (slashesAtEnd 0 filling.shown.toList) markup.toList ++
        activeTagsFrom 0 (restChars rest) := by
  simp only [soundRest, Bool.and_eq_true, Bool.or_eq_true, Bool.not_eq_true', List.isEmpty_iff]
    at sound
  obtain ⟨⟨⟨fits, complete⟩, followed⟩, -⟩ := sound
  have last : markup.toList = [] → rest = [] := by
    intro empty
    simpa [empty] using followed
  have parts : restChars ((filling, markup) :: rest) =
      filling.shown.toList ++ (markup.toList ++ restChars rest) := by
    simp [restChars, List.append_assoc]
  rw [parts, activeTagsFrom_filling_append disarms fits last proper harmless,
    activeTagsFrom_settled_append complete last]

/-- All that a markup can notice of the filling before it is how many backslashes that ends in. -/
theorem activeTagsFrom_restChars (disarms : Terminal.Disarms) (sound : soundRest rest = true)
    (proper : ∀ part ∈ rest, part.1.Proper) (harmless : ∀ part ∈ rest, part.1.Harmless) :
    activeTagsFrom 0 (restChars rest) = rest.flatMap fun part =>
      activeTagsFrom (slashesAtEnd 0 part.1.shown.toList) part.2.toList := by
  induction rest with
  | nil => rfl
  | cons part rest inductionHypothesis =>
      obtain ⟨here, later⟩ := List.forall_mem_cons.mp harmless
      obtain ⟨properHere, properLater⟩ := List.forall_mem_cons.mp proper
      have soundLater : soundRest rest = true := by
        simp only [soundRest, Bool.and_eq_true] at sound
        exact sound.2
      rw [activeTagsFrom_restChars_cons disarms sound properHere here,
        inductionHypothesis soundLater properLater later,
        List.flatMap_cons]

/-- The tags of a line are those of the markup that are left by the backslashes before them. -/
theorem activeTagsFrom_shown (disarms : Terminal.Disarms) (sound : line.sound = true)
    (proper : line.Proper) (harmless : line.Harmless) :
    activeTagsFrom 0 line.shown.toList = activeTagsFrom 0 line.start.toList ++
      line.rest.flatMap fun part =>
        activeTagsFrom (slashesAtEnd 0 part.1.shown.toList) part.2.toList := by
  obtain ⟨complete, soundRest⟩ := Bool.and_eq_true_iff.mp sound
  rw [← activeTagsFrom_restChars disarms soundRest proper harmless, toList_shown]
  by_cases empty : line.start.toList = []
  · rw [empty]
    rfl
  · exact activeTagsFrom_settled_append complete (fun none => absurd none empty) 0

/-- Fillings can only take tags of the markup away. -/
theorem restTags_sublist (sound : soundRest rest = true) :
    (rest.flatMap fun part => activeTagsFrom (slashesAtEnd 0 part.1.shown.toList)
      part.2.toList).Sublist (restTags rest) := by
  have fits := fits_of_mem sound
  exact List.Sublist.flatMap_right _ fun part member =>
    activeTagsFrom_sublist (head?_of_fits (fits part member)) _

/-- What is put into a sound line adds no tag to it. -/
theorem activeTags_sublist (disarms : Terminal.Disarms) (sound : line.sound = true)
    (proper : line.Proper) (harmless : line.Harmless) :
    (activeTags line.shown).Sublist line.tags := by
  rw [activeTags, activeTagsFrom_shown disarms sound proper harmless, tags_eq]
  exact ((List.Sublist.refl _).append
    (restTags_sublist (Bool.and_eq_true_iff.mp sound).2)).map _

/-- The tags of a sound line are exactly those of its markup, if it is tidy as well. -/
theorem activeTags_eq (disarms : Terminal.Disarms) (sound : line.sound = true)
    (proper : line.Proper) (harmless : line.Harmless) (tidy : line.Tidy) :
    activeTags line.shown = line.tags := by
  have fits := fits_of_mem (Bool.and_eq_true_iff.mp sound).2
  have same : ∀ part ∈ line.rest,
      activeTagsFrom (slashesAtEnd 0 part.1.shown.toList) part.2.toList =
        activeTagsFrom 0 part.2.toList := fun part member =>
    activeTagsFrom_of_head (head?_of_fits (fits part member)) (tidy part member)
  rw [activeTags, activeTagsFrom_shown disarms sound proper harmless, tags_eq, restTags,
    List.flatMap_congr same]

/-- The tags of a line nest if those of its markup do, even if the last of them gets lost. -/
theorem nests_shown (disarms : Terminal.Disarms) (sound : line.sound = true)
    (proper : line.Proper) (harmless : line.Harmless) (nest : line.nestsAround = true) :
    nests line.shown = true := by
  obtain ⟨nested, single⟩ := Bool.and_eq_true_iff.mp nest
  have fewer := restTags_sublist (Bool.and_eq_true_iff.mp sound).2
  rw [nests, activeTagsFrom_shown disarms sound proper harmless]
  cases left : line.rest.flatMap fun part =>
      activeTagsFrom (slashesAtEnd 0 part.1.shown.toList) part.2.toList with
  | nil =>
      rw [List.append_nil]
      exact nestsIn_of_append nested
  | cons tag others =>
      rw [left] at fewer
      have all : tag :: others = restTags line.rest := by
        refine fewer.eq_of_length_le ?_
        have atMost : (restTags line.rest).length ≤ 1 := of_decide_eq_true single
        rw [List.length_cons]
        omega
      rw [all]
      exact nested

end Shown

end Line

/-! ### Terminals -/

/-- What is escaped in the usual way is disarmed. -/
theorem disarms_strict : @Terminal.Disarms Terminal.strict :=
  activeTags_escape

theorem showsNested_strict : @Terminal.ShowsNested Terminal.strict :=
  fun _ nested => if_pos nested

end TapeLab.Console
