import EntityQuery.Term.Literal
import EntityQuery.Value.Order

/-! # Equal values and same values

What the operator of equality is true of, and how it agrees with the equality that recognises a
value among others: two values that equal a third one are the same.
-/

namespace EntityQuery

namespace Value

theorem eq_holds_iff_order {a b : Value} :
    compareTruth a .eq b = .holds ↔ orderFor .eq a b = some .eq := by
  unfold compareTruth
  cases orderFor .eq a b with
  | none => simp
  | some o => cases o <;> simp [Truth.ofBool, Comparison.accepts]

/-- The operator is true of equal booleans, of equal texts, and of numbers that a comparison sees
    alike. -/
theorem eq_holds_iff {a b : Value} :
    compareTruth a .eq b = .holds ↔
      (∃ x, a = .bool x ∧ b = .bool x) ∨ (∃ s, a = .string s ∧ b = .string s) ∨
        ∃ m, a.magnitude? = some m ∧ b.magnitude? = some m := by
  rw [eq_holds_iff_order]
  cases a <;> cases b <;> simp [orderFor, magnitude?, toBinary64?]
  all_goals exact eq_comm

theorem same_of_magnitude {a b : Value} {m : Int} (left : a.magnitude? = some m)
    (right : b.magnitude? = some m) : a.same b = true := by
  cases a with
  | int i | float x => cases b <;> simp_all [same, magnitude?, toBinary64?]
  | null | bool b | string s | array items | object fields => cases left

/-- Two values that equal a third one are the same. -/
theorem same_of_eq_holds {a b c : Value} (left : compareTruth a .eq c = .holds)
    (right : compareTruth b .eq c = .holds) : a.same b = true := by
  rcases eq_holds_iff.mp left with ⟨x, rfl, rfl⟩ | ⟨s, rfl, rfl⟩ | ⟨m, seen, other⟩
  · rcases eq_holds_iff.mp right with ⟨y, rfl, same⟩ | ⟨s, -, same⟩ | ⟨m, -, same⟩
    · cases same
      exact beq_self_eq_true _
    · cases same
    · cases same
  · rcases eq_holds_iff.mp right with ⟨x, -, same⟩ | ⟨t, rfl, same⟩ | ⟨m, -, same⟩
    · cases same
    · cases same
      exact beq_self_eq_true _
    · cases same
  · rcases eq_holds_iff.mp right with ⟨x, -, rfl⟩ | ⟨s, -, rfl⟩ | ⟨n, seen', other'⟩
    · cases other
    · cases other
    · cases other.symm.trans other'
      exact same_of_magnitude seen seen'

/-- Except for null, the operator is true of what is the same. -/
theorem eq_holds_iff_same {a b : Value} (not_null : b.isNull = false) :
    compareTruth a .eq b = .holds ↔ a.same b = true := by
  rw [eq_holds_iff]
  cases a <;> cases b <;> simp_all [same, magnitude?, toBinary64?, isNull]
  all_goals exact eq_comm

/-- Every value with a literal equals itself, except null. -/
theorem eq_self_holds {v : Value} (literal : (Literal.ofValue? v).isSome)
    (not_null : v.isNull = false) : compareTruth v .eq v = .holds := by
  apply eq_holds_iff.mpr
  cases v with
  | null => cases not_null
  | bool b => exact .inl ⟨b, rfl, rfl⟩
  | string s => exact .inr (.inl ⟨s, rfl, rfl⟩)
  | int i => exact .inr (.inr ⟨_, rfl, rfl⟩)
  | float x => exact .inr (.inr ⟨_, rfl, rfl⟩)
  | array items => cases literal
  | object fields => cases literal

end Value

/-- Only lists and objects have no literal. -/
theorem Literal.ofValue?_isSome {v : Value} (noList : v.kind ≠ .array)
    (noObject : v.kind ≠ .object) : (ofValue? v).isSome := by
  cases v with
  | null | bool b | string s | float x => rfl
  | int i =>
      simp only [ofValue?]
      split <;> rfl
  | array items => exact absurd rfl noList
  | object fields => exact absurd rfl noObject

/-- The literal for a value stands for it, or for the float next to an integer. -/
theorem Literal.ofValue?_cases {v : Value} {l : Literal} (literal : ofValue? v = some l) :
    l.toValue = v ∨ ∃ i, v = .int i ∧ l.toValue = .float (Binary64.ofInt i) := by
  cases v with
  | null | bool b | string s | float x =>
      cases literal
      exact .inl rfl
  | int i =>
      unfold ofValue? at literal
      cases range : (Value.int i).toInt64? with
      | some j =>
          have same : j = i := by
            simp only [Value.toInt64?, Option.ite_none_right_eq_some, Option.some.injEq] at range
            exact range.2.symm
          simp only [range] at literal
          cases literal
          exact .inl (congrArg Value.int same)
      | none =>
          simp only [range] at literal
          cases literal
          exact .inr ⟨i, rfl, rfl⟩
  | array items => cases literal
  | object fields => cases literal

end EntityQuery
