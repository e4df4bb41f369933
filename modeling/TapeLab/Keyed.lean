/-!
# Values under keys

Values in the order in which their keys were first put there.  Keys are compared by
their Boolean equality alone, so keys may count as one without being written alike; a
value that is replaced stays under the key it was first put there with.
-/

namespace TapeLab

/-- Values under keys, in order. -/
abbrev Keyed (κ α : Type) := List (κ × α)

namespace Keyed

variable {κ α : Type} [BEq κ]

/-- The value under a key. -/
def get? (entries : Keyed κ α) (key : κ) : Option α :=
  (entries.find? fun entry => entry.1 == key).map Prod.snd

/-- The entries after a value was put under a key: an entry that was there keeps its
place, and a new one comes last. -/
def put (key : κ) (value : α) : Keyed κ α → Keyed κ α
  | [] => [(key, value)]
  | (name, old) :: rest =>
    if name == key then (name, value) :: rest else (name, old) :: put key value rest

/-- The entries after others were put there one by one. -/
def merge (entries others : Keyed κ α) : Keyed κ α :=
  others.foldl (fun merged entry => put entry.1 entry.2 merged) entries

/-- What was put is found, and nothing else changes. -/
theorem get?_put [EquivBEq κ] (entries : Keyed κ α) (key other : κ) (value : α) :
    get? (put key value entries) other =
      if key == other then some value else get? entries other := by
  induction entries with
  | nil => by_cases same : key == other <;> simp [put, get?, same]
  | cons entry rest inductionHypothesis =>
    obtain ⟨name, old⟩ := entry
    simp only [get?] at inductionHypothesis
    by_cases here : name == key
    · have found : (name == other) = (key == other) := BEq.congr_left here
      by_cases same : key == other <;> simp [put, get?, here, found, same]
    · by_cases same : name == other
      · have differs : (key == other) = false := by
          have : (name == key) = (other == key) := BEq.congr_left same
          rw [BEq.comm, ← this]
          simpa using here
        simp [put, get?, here, same, differs]
      · simp [put, get?, here, same, inductionHypothesis]

/-- What is put under a new key comes last. -/
theorem put_of_new {entries : Keyed κ α} {key : κ} (value : α)
    (new : ∀ entry ∈ entries, (entry.1 == key) = false) :
    put key value entries = entries ++ [(key, value)] := by
  induction entries with
  | nil => rfl
  | cons entry rest inductionHypothesis =>
    obtain ⟨name, old⟩ := entry
    have differs : (name == key) = false := new (name, old) List.mem_cons_self
    have later := inductionHypothesis fun entry member =>
      new entry (List.mem_cons_of_mem _ member)
    simp [put, differs, later]

/-- Entries under new keys, no two of them alike, come after those that were there. -/
theorem merge_of_distinct [LawfulBEq κ] {entries others : Keyed κ α}
    (distinct : ((entries ++ others).map Prod.fst).Nodup) :
    merge entries others = entries ++ others := by
  induction others generalizing entries with
  | nil => simp [merge]
  | cons entry rest inductionHypothesis =>
    obtain ⟨key, value⟩ := entry
    have new : ∀ entry ∈ entries, (entry.1 == key) = false := by
      intro entry member
      rw [beq_eq_false_iff_ne]
      rintro rfl
      simp only [List.map_append, List.map_cons] at distinct
      have apart := (List.nodup_append.mp distinct).2.2
      exact apart _ (List.mem_map_of_mem member) _ List.mem_cons_self rfl
    have apart : (((entries ++ [(key, value)]) ++ rest).map Prod.fst).Nodup := by
      simpa using distinct
    have later := inductionHypothesis apart
    simp only [merge, List.foldl_cons, put_of_new value new] at later ⊢
    simpa using later

end Keyed

end TapeLab
