import EntityQuery.Value.Order

/-! # Negated truth

Negation turns a conjunction into a disjunction and back, with three truth values as with two, and
turns a comparison into the one with the complementary operator.
-/

namespace EntityQuery

namespace Truth

/-- The disjunction of truth values, false of none. -/
def anyOf (truths : List Truth) : Truth := truths.foldl or .fails

/-- The conjunction of truth values, true of none. -/
def allOf (truths : List Truth) : Truth := truths.foldl and .holds

@[simp] theorem not_not (t : Truth) : t.not.not = t := by
  cases t <;> rfl

theorem not_inj {t u : Truth} : t.not = u.not ↔ t = u := by
  cases t <;> cases u <;> decide

@[simp] theorem not_and (t u : Truth) : (t.and u).not = t.not.or u.not := by
  cases t <;> cases u <;> rfl

@[simp] theorem not_or (t u : Truth) : (t.or u).not = t.not.and u.not := by
  cases t <;> cases u <;> rfl

@[simp] theorem not_ofBool (b : Bool) : (ofBool b).not = ofBool !b := by
  cases b <;> rfl

theorem negateIf_not (negated : Bool) (t : Truth) :
    t.negateIf (!negated) = (t.negateIf negated).not := by
  cases negated <;> simp [negateIf]

instance : Std.Associative or := ⟨fun a b c => by cases a <;> cases b <;> cases c <;> rfl⟩

@[simp] theorem anyOf_nil : anyOf [] = .fails := rfl

@[simp] theorem anyOf_cons (t : Truth) (rest : List Truth) :
    anyOf (t :: rest) = t.or (anyOf rest) := by
  have first : Truth.or .fails t = t.or .fails := by cases t <;> rfl
  rw [anyOf, List.foldl_cons, first, List.foldl_assoc, anyOf]

theorem not_foldl_or (truths : List Truth) (t : Truth) :
    (truths.foldl or t).not = (truths.map not).foldl and t.not := by
  induction truths generalizing t with
  | nil => rfl
  | cons u rest ih => rw [List.foldl_cons, ih, not_or, List.map_cons, List.foldl_cons]

/-- The negation of a disjunction is the conjunction of the negations. -/
theorem not_anyOf (truths : List Truth) : (anyOf truths).not = allOf (truths.map not) :=
  not_foldl_or truths .fails

theorem or_holds {t u : Truth} : t.or u = .holds ↔ t = .holds ∨ u = .holds := by
  cases t <;> cases u <;> decide

theorem or_unknown {t u : Truth} :
    t.or u = .unknown ↔ (t ≠ .holds ∧ u ≠ .holds) ∧ (t = .unknown ∨ u = .unknown) := by
  cases t <;> cases u <;> decide

theorem anyOf_holds {truths : List Truth} : anyOf truths = .holds ↔ .holds ∈ truths := by
  induction truths with
  | nil => simp
  | cons t rest ih => rw [anyOf_cons, or_holds, ih, List.mem_cons, eq_comm]

theorem anyOf_unknown {truths : List Truth} :
    anyOf truths = .unknown ↔ .holds ∉ truths ∧ .unknown ∈ truths := by
  induction truths with
  | nil => simp
  | cons t rest ih =>
      rw [anyOf_cons, or_unknown, ih, ne_eq, ne_eq, anyOf_holds]
      cases t <;> simp

end Truth

/-- The operator that is true of things exactly where the other one is false. -/
def Comparison.complement : Comparison → Comparison
  | .eq => .ne
  | .ne => .eq
  | .lt => .ge
  | .ge => .lt
  | .le => .gt
  | .gt => .le

theorem Comparison.accepts_complement (op : Comparison) (o : Ordering) :
    op.complement.accepts o = !op.accepts o := by
  cases op <;> cases o <;> rfl

/-- An operator and its complement have an order for the same values, and the same one. -/
theorem Value.orderFor_complement (op : Comparison) (a b : Value) :
    orderFor op.complement a b = orderFor op a b := by
  have equality : op.complement = .eq ∨ op.complement = .ne ↔ op = .eq ∨ op = .ne := by
    cases op <;> decide
  cases a <;> cases b <;> simp only [orderFor, equality]

/-- A comparison fails where the complementary one holds, and both are unknown of the same
    values. -/
theorem Value.compareTruth_complement (op : Comparison) (a b : Value) :
    compareTruth a op.complement b = (compareTruth a op b).not := by
  unfold compareTruth
  rw [orderFor_complement]
  cases orderFor op a b with
  | none => rfl
  | some o => simp only [Comparison.accepts_complement, Truth.not_ofBool]

end EntityQuery
