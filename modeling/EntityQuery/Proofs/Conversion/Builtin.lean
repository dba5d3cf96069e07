import EntityQuery.Conversion.Converter
import EntityQuery.Proofs.Value.Sameness

/-! # The converters at hand

What the converters that need no code of the application have in common: what they store is never
null unless the value is, it can be written as a literal, and a value and its literal are stored
alike.
-/

namespace EntityQuery.Converter

inductive Builtin : Converter → Prop where
  | booleanInt : Builtin .booleanInt
  | scaled (scale : Nat) : Builtin (.scaled scale)
  | coded (name : String) (table : CodeTable) : Builtin (.coded name table)

/-- The converter stores nothing but null and values of its stored kind. -/
def StoresOwnKind (c : Converter) : Prop :=
  ∀ v stored, c.toDatabase v = .ok stored → stored.isNull = true ∨ stored.kind = c.storedKind

namespace Builtin

variable {c : Converter} {v stored : Value}

/-- A stored form is a single value again. -/
theorem stored_single (builtin : c.Builtin) (converted : c.toDatabase v = .ok stored)
    (not_null : v.isNull = false) :
    (Literal.ofValue? stored).isSome ∧ stored.isNull = false := by
  cases builtin with
  | booleanInt =>
      cases v with
      | null => cases not_null
      | bool b =>
          cases converted
          cases b <;> exact ⟨by decide, rfl⟩
      | int i | float x | string s | array items | object fields => cases converted
  | scaled scale =>
      have isInt : ∃ i, stored = .int i := by
        cases v with
        | null => cases not_null
        | int i | float x =>
            cases converted
            exact ⟨_, rfl⟩
        | bool b | string s | array items | object fields => cases converted
      obtain ⟨i, rfl⟩ := isInt
      exact ⟨Literal.ofValue?_isSome nofun nofun, rfl⟩
  | coded name table =>
      cases v with
      | null => cases not_null
      | string s =>
          simp only [Converter.coded] at converted
          split at converted
          · cases converted
            exact ⟨rfl, rfl⟩
          · cases converted
      | bool b | int i | float x | array items | object fields => cases converted

theorem storesOwnKind (builtin : c.Builtin) : c.StoresOwnKind := by
  intro v stored converted
  cases builtin with
  | booleanInt =>
      cases v with
      | null =>
          cases converted
          exact .inl rfl
      | bool b =>
          cases converted
          exact .inr rfl
      | int i | float x | string s | array items | object fields => cases converted
  | scaled scale =>
      cases v with
      | null =>
          cases converted
          exact .inl rfl
      | int i | float x =>
          cases converted
          exact .inr rfl
      | bool b | string s | array items | object fields => cases converted
  | coded name table =>
      cases v with
      | null =>
          cases converted
          exact .inl rfl
      | string s =>
          simp only [Converter.coded] at converted
          split at converted
          · cases converted
            exact .inr rfl
          · cases converted
      | bool b | int i | float x | array items | object fields => cases converted

/-- The literal for a value is stored like the value. -/
theorem toDatabase_literal (builtin : c.Builtin) {l : Literal}
    (literal : Literal.ofValue? v = some l) (converted : c.toDatabase v = .ok stored) :
    c.toDatabase l.toValue = .ok stored := by
  rcases Literal.ofValue?_cases literal with same | ⟨i, rfl, nearest⟩
  · rw [same]
    exact converted
  · rw [nearest]
    cases builtin with
    | booleanInt => cases converted
    | scaled scale => exact converted
    | coded name table => cases converted

end Builtin

end EntityQuery.Converter
