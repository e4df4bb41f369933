import TapeLab.Structured.Printer

/-!
# Declarations that stay as they are

Declarations for different keys are all kept, and none of them is reported.  Those of one
state are gathered in one block; if they stand together already, they stay in order
(`Structured.flatMap_byState`).
-/

namespace TapeLab.Structured

section Grouping

variable {α β : Type} {element : α} {list : List α}

/-- What follows the first element of a grouped list is grouped. -/
theorem Grouped.tail (grouped : Grouped (element :: list)) : Grouped list := by
  intro front between rest other cut
  exact grouped (element :: front) between rest other (by rw [cut, List.cons_append])

/-- In a grouped list, an element that occurs again is followed by itself. -/
theorem Grouped.head?_of_mem (grouped : Grouped (element :: list)) (again : element ∈ list) :
    list.head? = some element := by
  obtain ⟨between, rest, rfl⟩ := List.append_of_mem again
  cases between with
  | nil => rfl
  | cons first between =>
      have same : first = element := grouped [] (first :: between) rest element rfl first
        List.mem_cons_self
      rw [same]
      rfl

/-- A list is grouped if what follows its first element is, and the element, should it occur
there again, follows itself. -/
theorem grouped_cons_iff :
    Grouped (element :: list) ↔ (element ∈ list → list.head? = some element) ∧ Grouped list := by
  refine ⟨fun grouped => ⟨grouped.head?_of_mem, grouped.tail⟩, ?_⟩
  rintro ⟨follows, grouped⟩ front between rest other cut
  cases front with
  | cons first front => exact grouped front between rest other (List.cons.inj cut).2
  | nil =>
      obtain ⟨rfl, rfl⟩ := List.cons.inj cut
      cases between with
      | nil => simp
      | cons second between =>
          have same : second = element := by simpa using follows (by simp)
          subst same
          have later := grouped [] between rest second rfl
          simpa using later

/-- Whether a list is grouped is seen by comparing each element with the next. -/
instance decidableGrouped [DecidableEq α] : (list : List α) → Decidable (Grouped list)
  | [] => isTrue fun _ _ _ _ cut => by simp at cut
  | element :: list =>
    have := decidableGrouped list
    decidable_of_iff ((element ∈ list → list.head? = some element) ∧ Grouped list)
      grouped_cons_iff.symm

variable [BEq β] [LawfulBEq β] {key : α → β}

/-- Elements are gathered by their keys if those with the first key come first and the others
are gathered after them. -/
theorem flatMap_filter_cons (first : α) (rest : List α) :
    ((first :: rest).map key).eraseDups.flatMap
        (fun name => (first :: rest).filter fun element => key element == name) =
      first :: rest.filter (fun element => key element == key first) ++
        ((rest.map key).filter fun name => !name == key first).eraseDups.flatMap
          fun name => rest.filter fun element => key element == name := by
  have skips : ∀ name ∈ ((rest.map key).filter fun name => !name == key first).eraseDups,
      (first :: rest).filter (fun element => key element == name) =
        rest.filter fun element => key element == name := by
    intro name member
    have differs : name ≠ key first := by
      simpa using (List.mem_filter.mp (List.mem_eraseDups.mp member)).2
    simp [Ne.symm differs]
  rw [List.map_cons, List.eraseDups_cons, List.flatMap_cons, List.flatMap_congr skips,
    List.filter_cons_of_pos (by simp)]

/-- Elements that stand together stay in order when they are gathered by their keys. -/
theorem Grouped.flatMap_filter (grouped : Grouped (list.map key)) :
    (list.map key).eraseDups.flatMap (fun name => list.filter fun element => key element == name) =
      list := by
  induction list with
  | nil => rfl
  | cons first rest inductionHypothesis =>
      have later := inductionHypothesis grouped.tail
      rw [flatMap_filter_cons, List.cons_append]
      congr 1
      by_cases again : key first ∈ rest.map key
      · -- The next element has the same key, so gathering begins in the rest as it does here.
        obtain ⟨second, more, rfl, same⟩ : ∃ second more, rest = second :: more ∧
            key second = key first := by
          have next := grouped.head?_of_mem again
          cases rest with
          | nil => simp at again
          | cons second more => exact ⟨second, more, rfl, by simpa using next⟩
        rw [List.map_cons, List.eraseDups_cons, List.flatMap_cons, same] at later
        simpa [same] using later
      · have nothing : rest.filter (fun element => key element == key first) = [] := by
          simpa [List.filter_eq_nil_iff] using again
        have everything : (rest.map key).filter (fun name => !name == key first) = rest.map key := by
          rw [List.filter_eq_self]
          intro name member
          simpa using fun same : name = key first => again (same ▸ member)
        rw [nothing, everything, List.nil_append, later]

end Grouping

variable {declarations : List Declaration} {known : List (StateName × Symbol)}

/-- Declarations for different keys are all kept, and none is reported. -/
theorem firstsOf_of_nodup (distinct : (declarations.map Declaration.key).Nodup)
    (fresh : ∀ declaration ∈ declarations, declaration.key ∉ known) :
    firstsOf known declarations = declarations ∧ repeatsOf known declarations = [] := by
  induction declarations generalizing known with
  | nil => exact ⟨rfl, rfl⟩
  | cons declaration rest inductionHypothesis =>
      obtain ⟨once, distinctRest⟩ := List.nodup_cons.mp distinct
      have first : declaration.key ∉ known := fresh declaration List.mem_cons_self
      have freshRest : ∀ other ∈ rest, other.key ∉ declaration.key :: known := by
        intro other member
        rw [List.mem_cons, not_or]
        refine ⟨fun same => once ?_, fresh other (List.mem_cons_of_mem _ member)⟩
        exact same ▸ List.mem_map_of_mem member
      obtain ⟨kept, none⟩ := inductionHypothesis distinctRest freshRest
      simp [firstsOf, repeatsOf, first, kept, none]

/-- Declarations of which those of each state stand together stay in order. -/
theorem flatMap_byState (grouped : Grouped (declarations.map Declaration.state)) :
    (byState declarations).flatMap Prod.snd = declarations := by
  rw [byState, List.flatMap_map]
  exact grouped.flatMap_filter

/-- A document of lines that declare different keys, state after state, has the rules of all
its declarations in order. -/
theorem rules_of_grouped (blank : Symbol) (grouped : Grouped (declarations.map Declaration.state)) :
    (byState declarations).flatMap (fun block => block.2.map (Declaration.rule blank)) =
      declarations.map (Declaration.rule blank) := by
  have gathered := congrArg (List.map (Declaration.rule blank)) (flatMap_byState grouped)
  rwa [List.map_flatMap] at gathered

end TapeLab.Structured
