import EntityQuery.Engine.Assembly

/-! # Values at paths

Writing a value at a path of an object and reading at the same or another path. Two paths are apart
if neither leads through the other; writing at one changes nothing at the other.
-/

namespace EntityQuery

/-- The value at a path of field names, if the path leads anywhere. -/
def Value.at? (v : Value) (path : List String) : Option Value :=
  path.foldlM (fun (v : Value) name => v.field? name) v

/-- Neither path leads through the other. -/
def Apart (path other : AttributePath) : Prop := ¬ path <+: other ∧ ¬ other <+: path

theorem Apart.symm {path other : AttributePath} (apart : Apart path other) : Apart other path :=
  ⟨apart.2, apart.1⟩

theorem Apart.cons {path other : AttributePath} (name : String) (apart : Apart path other) :
    Apart (name :: path) (name :: other) := by
  simpa [Apart, List.cons_prefix_cons] using apart

theorem Apart.of_cons {path other : AttributePath} {name : String}
    (apart : Apart (name :: path) (name :: other)) : Apart path other := by
  simpa [Apart, List.cons_prefix_cons] using apart

theorem apart_of_ne {a b : String} (path other : AttributePath) (different : a ≠ b) :
    Apart (a :: path) (b :: other) := by
  simp [Apart, List.cons_prefix_cons, different, Ne.symm different]

/-- The fields inside a field, none if there is no object in it. -/
def Keyed.objectAt (fields : Fields) (name : String) : Fields :=
  match Keyed.get? fields name with
  | some (.object inner) => inner
  | _ => []

theorem placeAt_through (fields : Fields) (name next : String) (rest : List String) (v : Value) :
    placeAt fields (name :: next :: rest) v =
      Keyed.insert fields name
        (.object (placeAt (Keyed.objectAt fields name) (next :: rest) v)) := rfl

namespace Value

theorem at?_cons (fields : Fields) (name : String) (path : List String) :
    (object fields).at? (name :: path) = (Keyed.get? fields name).bind (·.at? path) := rfl

theorem at?_placeAt (fields : Fields) {path : AttributePath} (v : Value) (ne : path ≠ []) :
    (object (placeAt fields path v)).at? path = some v := by
  induction path generalizing fields with
  | nil => exact absurd rfl ne
  | cons name rest ih =>
      cases rest with
      | nil =>
          rw [placeAt, at?_cons, Keyed.get?_insert, if_pos rfl]
          rfl
      | cons next rest =>
          rw [placeAt_through, at?_cons, Keyed.get?_insert, if_pos rfl]
          exact ih _ (by simp)

theorem at?_objectAt (fields : Fields) (name next : String) (more : List String) :
    (object (Keyed.objectAt fields name)).at? (next :: more) =
      (object fields).at? (name :: next :: more) := by
  rw [at?_cons fields, Keyed.objectAt]
  cases found : Keyed.get? fields name with
  | none => rfl
  | some v =>
      cases v with
      | object inner => rfl
      | null | bool b | int i | float x | string s | array items => rfl

/-- Writing at a path changes nothing at paths apart from it. -/
theorem at?_placeAt_apart (fields : Fields) {path other : AttributePath} (v : Value)
    (apart : Apart path other) :
    (object (placeAt fields path v)).at? other = (object fields).at? other := by
  induction path generalizing fields other with
  | nil => exact absurd (List.nil_prefix) apart.1
  | cons name rest ih =>
      cases other with
      | nil => exact absurd (List.nil_prefix) apart.2
      | cons first more =>
          by_cases same : name = first
          · subst same
            have inside : Apart rest more := apart.of_cons
            cases rest with
            | nil => exact absurd (List.nil_prefix) inside.1
            | cons next rest =>
                cases more with
                | nil => exact absurd (List.nil_prefix) inside.2
                | cons second more =>
                    rw [placeAt_through, at?_cons, Keyed.get?_insert, if_pos rfl, ← at?_objectAt]
                    exact ih _ inside
          · cases rest with
            | nil => rw [placeAt, at?_cons, at?_cons, Keyed.get?_insert, if_neg same]
            | cons next rest =>
                rw [placeAt_through, at?_cons, at?_cons, Keyed.get?_insert, if_neg same]

end Value

end EntityQuery
