import Mathlib.Data.List.Induction
import EntityQuery.Proofs.Conversion.Builtin
import EntityQuery.Proofs.Distinct

/-! # Booleans and codes

What is stored as a number for a boolean, or as a code for a name, reads as the boolean or the name
again. A boolean has no other number, but a name may have several codes, of which the first one is
stored.
-/

namespace EntityQuery.Converter

theorem CodeTable.ofPairs_concat (pairs : List (String × String)) (pair : String × String) :
    ofPairs (pairs ++ [pair]) = Keyed.put (ofPairs pairs) pair.1 pair.2 := by
  rw [ofPairs, List.foldl_append]
  rfl

theorem CodeTable.names_ofPairs (pairs : List (String × String)) :
    Keyed.names (ofPairs pairs) = (pairs.map (·.1)).eraseDups := by
  induction pairs using List.reverseRecOn with
  | nil => rfl
  | append_singleton pairs pair ih =>
      rw [ofPairs_concat, List.map_append]
      exact Keyed.names_put_distinct ih pair.1 pair.2

/-- However often codes were given names, each code has one entry. -/
theorem CodeTable.nodup_ofPairs (pairs : List (String × String)) :
    (Keyed.names (CodeTable.ofPairs pairs)).Nodup :=
  names_ofPairs pairs ▸ nodup_eraseDups _

/-- The code of a name reads as the name. -/
theorem CodeTable.get?_codeOf? {pairs : List (String × String)} {name code : String}
    (known : (CodeTable.ofPairs pairs).codeOf? name = some code) :
    Keyed.get? (CodeTable.ofPairs pairs) code = some name := by
  obtain ⟨⟨first, named⟩, found, same⟩ := Option.map_eq_some_iff.mp known
  have isName : named = name := by simpa using List.find?_some found
  cases same
  cases isName
  exact Keyed.get?_of_mem (CodeTable.nodup_ofPairs pairs) (List.mem_of_find?_eq_some found)

/-- The converters of booleans and of names. -/
inductive Discrete : Converter → Prop where
  | booleanInt : Discrete .booleanInt
  | coded (name : String) (pairs : List (String × String)) :
      Discrete (.coded name (.ofPairs pairs))

/-- Several codes read as the value. -/
def Ambiguous (c : Converter) (v : Value) : Prop :=
  ∃ code code', code ≠ code' ∧ c.toDomain (.string code) = .ok v ∧
    c.toDomain (.string code') = .ok v

namespace Discrete

variable {c : Converter} {v w form stored : Value}

theorem builtin (discrete : c.Discrete) : c.Builtin := by
  cases discrete with
  | booleanInt => exact .booleanInt
  | coded name pairs => exact .coded name _

theorem booleanInt_toDatabase (converted : Converter.booleanInt.toDatabase v = .ok form)
    (not_null : v.isNull = false) : ∃ b, v = .bool b ∧ form = .int (if b then 1 else 0) := by
  cases v with
  | null => cases not_null
  | bool b =>
      cases converted
      exact ⟨b, rfl, rfl⟩
  | int i | float x | string s | array items | object fields => cases converted

theorem booleanInt_toDomain (read : Converter.booleanInt.toDomain stored = .ok w) :
    (stored = .null ∧ w = .null) ∨ ∃ b, stored = .int (if b then 1 else 0) ∧ w = .bool b := by
  simp only [Converter.booleanInt] at read
  split at read
  · cases read
    exact .inl ⟨rfl, rfl⟩
  · cases read
    exact .inr ⟨false, rfl, rfl⟩
  · cases read
    exact .inr ⟨true, rfl, rfl⟩
  · cases read

theorem coded_toDatabase {name : String} {table : CodeTable}
    (converted : (Converter.coded name table).toDatabase v = .ok form)
    (not_null : v.isNull = false) :
    ∃ s code, v = .string s ∧ table.codeOf? s = some code ∧ form = .string code := by
  cases v with
  | null => cases not_null
  | string s =>
      simp only [Converter.coded] at converted
      split at converted
      · next code known =>
        cases converted
        exact ⟨s, code, rfl, known, rfl⟩
      · cases converted
  | bool b | int i | float x | array items | object fields => cases converted

theorem coded_reads {name s code : String} {table : CodeTable}
    (known : Keyed.get? table code = some s) :
    (Converter.coded name table).toDomain (.string code) = .ok (.string s) := by
  simp only [Converter.coded, known]

theorem coded_toDomain {name : String} {table : CodeTable}
    (read : (Converter.coded name table).toDomain stored = .ok w) :
    (stored = .null ∧ w = .null) ∨
      ∃ code s, stored = .string code ∧ Keyed.get? table code = some s ∧ w = .string s := by
  cases stored with
  | null =>
      cases read
      exact .inl ⟨rfl, rfl⟩
  | string code =>
      simp only [Converter.coded] at read
      split at read
      · next s known =>
        cases read
        exact .inr ⟨code, s, rfl, known, rfl⟩
      · cases read
  | bool b | int i | float x | array items | object fields => cases read

/-- The numbers of two booleans are the same if the booleans are. -/
theorem bit_same (b b' : Bool) :
    (Value.int (if b then 1 else 0)).same (.int (if b' then 1 else 0)) =
      (Value.bool b).same (.bool b') := by
  cases b <;> cases b' <;> decide +kernel

/-- A stored value that equals the form of a value reads as the value. -/
theorem same_of_form (discrete : c.Discrete) (converted : c.toDatabase v = .ok form)
    (not_null : v.isNull = false) (read : c.toDomain stored = .ok w)
    (equal : stored.same form = true) : w.same v = true := by
  cases discrete with
  | booleanInt =>
      obtain ⟨b, rfl, rfl⟩ := booleanInt_toDatabase converted not_null
      rcases booleanInt_toDomain read with ⟨rfl, rfl⟩ | ⟨b', rfl, rfl⟩
      · cases b <;> cases equal
      · rwa [bit_same] at equal
  | coded name pairs =>
      obtain ⟨s, code, rfl, known, rfl⟩ := coded_toDatabase converted not_null
      rcases coded_toDomain read with ⟨rfl, rfl⟩ | ⟨code', s', rfl, known', rfl⟩
      · cases equal
      · have sameCode : code' = code := by simpa [Value.same] using equal
        rw [sameCode, CodeTable.get?_codeOf? known] at known'
        cases known'
        exact beq_self_eq_true _

/-- A stored value that reads as a value equals the form of the value, unless that is one of several
    codes. -/
theorem form_of_same (discrete : c.Discrete) (single : ¬ c.Ambiguous v)
    (converted : c.toDatabase v = .ok form) (not_null : v.isNull = false)
    (read : c.toDomain stored = .ok w) (equal : w.same v = true) : stored.same form = true := by
  cases discrete with
  | booleanInt =>
      obtain ⟨b, rfl, rfl⟩ := booleanInt_toDatabase converted not_null
      rcases booleanInt_toDomain read with ⟨rfl, rfl⟩ | ⟨b', rfl, rfl⟩
      · cases equal
      · rwa [bit_same]
  | coded name pairs =>
      obtain ⟨s, code, rfl, known, rfl⟩ := coded_toDatabase converted not_null
      rcases coded_toDomain read with ⟨rfl, rfl⟩ | ⟨code', s', rfl, known', rfl⟩
      · cases equal
      · have sameName : s' = s := by simpa [Value.same] using equal
        rw [sameName] at read
        have sameCode : code' = code := by
          apply Decidable.byContradiction
          intro different
          exact single
            ⟨code', code, different, read, coded_reads (CodeTable.get?_codeOf? known)⟩
        rw [sameCode]
        exact beq_self_eq_true _

end Discrete

end EntityQuery.Converter
