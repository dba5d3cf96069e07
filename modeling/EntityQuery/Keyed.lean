/-! # Lists of named values

A list of values with names, each name once. `insert` keeps the names in ascending order of their
code points; `put` keeps them in the order in which they were first written. Both replace the value
of a name that is there already, and reading sees no difference between them.
-/

namespace EntityQuery

/-- Values by name. -/
abbrev Keyed (α : Type) := List (String × α)

namespace Keyed

variable {α : Type}

def get? : Keyed α → String → Option α
  | [], _ => none
  | (name, value) :: rest, key => if name = key then some value else get? rest key

/-- Write a value at its place in the order of names. -/
def insert : Keyed α → String → α → Keyed α
  | [], key, value => [(key, value)]
  | (name, old) :: rest, key, value =>
      if key < name then (key, value) :: (name, old) :: rest
      else if name = key then (key, value) :: rest
      else (name, old) :: insert rest key value

/-- Write a value where its name stands, or behind all others. -/
def put : Keyed α → String → α → Keyed α
  | [], key, value => [(key, value)]
  | (name, old) :: rest, key, value =>
      if name = key then (key, value) :: rest else (name, old) :: put rest key value

/-- Write a value in front of all others. -/
def putFirst (entries : Keyed α) (key : String) (value : α) : Keyed α :=
  (key, value) :: entries.filter (·.1 ≠ key)

def names (entries : Keyed α) : List String := entries.map (·.1)

def values (entries : Keyed α) : List α := entries.map (·.2)

/-- Write several values at their places in the order of names; a later one wins. -/
def ofList (entries : List (String × α)) : Keyed α :=
  entries.foldl (fun m e => insert m e.1 e.2) []

@[simp] theorem get?_nil (key : String) : get? ([] : Keyed α) key = none := rfl

theorem get?_insert (entries : Keyed α) (key other : String) (value : α) :
    get? (insert entries key value) other =
      if key = other then some value else get? entries other := by
  induction entries with
  | nil => simp [insert, get?]
  | cons entry rest ih =>
    rcases entry with ⟨name, old⟩
    simp only [insert]
    split
    · simp [get?]
    · split
      · next same => subst same; by_cases h : name = other <;> simp [get?, h]
      · next different =>
        by_cases h : name = other
        · subst h; simp [get?, Ne.symm different]
        · simp [get?, h, ih]

theorem get?_put (entries : Keyed α) (key other : String) (value : α) :
    get? (put entries key value) other =
      if key = other then some value else get? entries other := by
  induction entries with
  | nil => simp [put, get?]
  | cons entry rest ih =>
    rcases entry with ⟨name, old⟩
    simp only [put]
    split
    · next same => subst same; by_cases h : name = other <;> simp [get?, h]
    · next different =>
      by_cases h : name = other
      · subst h; simp [get?, Ne.symm different]
      · simp [get?, h, ih]

theorem get?_eq_none_iff {entries : Keyed α} {key : String} :
    get? entries key = none ↔ key ∉ names entries := by
  induction entries with
  | nil => simp [names]
  | cons entry rest ih =>
    rcases entry with ⟨name, old⟩
    by_cases h : name = key
    · simp [get?, names, h]
    · simpa [get?, names, h, Ne.symm h] using ih

theorem mem_of_get? {entries : Keyed α} {key : String} {value : α}
    (present : get? entries key = some value) : (key, value) ∈ entries := by
  induction entries with
  | nil => cases present
  | cons entry rest ih =>
    rcases entry with ⟨name, first⟩
    by_cases h : name = key
    · simp_all [get?]
    · exact List.mem_cons_of_mem _ (ih (by simpa [get?, h] using present))

/-- A name that is new is added once. -/
theorem names_insert {entries : Keyed α} {key : String} (value : α) (fresh : key ∉ names entries) :
    (names (insert entries key value)).Perm (key :: names entries) := by
  induction entries with
  | nil => exact .refl _
  | cons entry rest ih =>
    rcases entry with ⟨name, old⟩
    have other : name ≠ key := fun same => fresh (same ▸ List.mem_cons_self)
    have later : key ∉ names rest := fun inside => fresh (List.mem_cons_of_mem _ inside)
    rw [insert, if_neg other]
    split
    · exact .refl _
    · exact ((ih later).cons name).trans (.swap key name _)

theorem names_cons (name : String) (value : α) (rest : Keyed α) :
    names ((name, value) :: rest) = name :: names rest := rfl

theorem names_put_eq (entries : Keyed α) (key : String) (value : α) :
    names (put entries key value) =
      if key ∈ names entries then names entries else names entries ++ [key] := by
  induction entries with
  | nil => simp [put, names]
  | cons entry rest ih =>
      obtain ⟨name, old⟩ := entry
      rw [put]
      by_cases same : name = key
      · simp [names_cons, same]
      · rw [if_neg same, names_cons, names_cons, ih]
        by_cases known : key ∈ names rest
        · simp [known]
        · simp [known, Ne.symm same]

/-- A name that is there already stays where it stands. -/
theorem names_put {entries : Keyed α} {key : String} {old : α} (value : α)
    (present : get? entries key = some old) : names (put entries key value) = names entries := by
  have known : key ∈ names entries := List.mem_map.mpr ⟨_, mem_of_get? present, rfl⟩
  rw [names_put_eq, if_pos known]

theorem mem_names_put {entries : Keyed α} {name other : String} {value : α}
    (member : other ∈ names (put entries name value)) : other = name ∨ other ∈ names entries := by
  rw [names_put_eq] at member
  split at member
  · exact .inr member
  · exact (List.mem_append.mp member).symm.imp_left List.mem_singleton.mp

theorem get?_of_mem {entries : Keyed α} {key : String} {value : α}
    (apart : (names entries).Nodup) (inside : (key, value) ∈ entries) :
    get? entries key = some value := by
  induction entries with
  | nil => cases inside
  | cons entry rest ih =>
    rcases entry with ⟨name, first⟩
    obtain ⟨fresh, others⟩ := List.nodup_cons.mp apart
    rw [get?]
    rcases List.mem_cons.mp inside with own | later
    · cases own
      rw [if_pos rfl]
    · have other : name ≠ key := by
        rintro rfl
        exact fresh (List.mem_map.mpr ⟨_, later, rfl⟩)
      rw [if_neg other]
      exact ih others later

end Keyed

end EntityQuery
