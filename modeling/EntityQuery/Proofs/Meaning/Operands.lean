import EntityQuery.Proofs.Compilation.Growth
import EntityQuery.Proofs.Meaning.Rows
import EntityQuery.Proofs.Value.Sameness

/-! # The meaning of compiled operands

A compiled operand has on a row under evaluation the value that the operand has in the environment
the row represents, provided that the scan took over every column the compilation recorded.
-/

namespace EntityQuery

variable {d : Domain} {usage : Option ColumnUsage} {limit : Nat} {scope : Scope} {env : Environment}
  {row : Row}

theorem CompileState.referred_scans {s : CompileState} {c : Column}
    (covers : Covers usage (s.referred c).usage) : Scans usage c.qualifier c.column :=
  covers _ _ (s.usage.record_ref_has c)

/-- A column of a table in scope, once it is referred to, reads as the stored column of the row
    behind the alias. -/
theorem Represents.column {aliasName : String} {binding : Binding} {a : BasicAttribute}
    {s : CompileState} (represents : Represents usage limit scope env row)
    (resolved : scope.resolve? aliasName = some binding)
    (covers : Covers usage (s.referred (columnOf d.registry binding.table a)).usage) :
    ∃ f, env.frame? aliasName = some f ∧ f.entity = binding.entity ∧
      Expression.eval row (.ref (columnOf d.registry binding.table a)) =
        f.row.stored a.column := by
  obtain ⟨f, located, entity, held⟩ := represents.resolve resolved
  exact ⟨f, located, entity, held a.column (CompileState.referred_scans covers)⟩

theorem compilePath_lookup {clause : Clause} {path : Path} {s s' : CompileState} {e : Expression}
    {converter : Option Converter}
    (compiled : compilePath d scope clause path s = .ok ((e, converter), s'))
    (covers : Covers usage s'.usage) (represents : Represents usage limit scope env row) :
    ∃ source a, env.lookup? path = some (source, a) ∧ e.eval row = source.stored a.column ∧
      converter = d.registry.inEffect? a := by
  obtain ⟨binding, a, resolved, located, effective, rfl, rfl⟩ := compilePath_ok compiled
  obtain ⟨f, found, entity, held⟩ := represents.column resolved covers
  refine ⟨f.row, a, ?_, held, ?_⟩
  · simp [Environment.lookup?, Entity.columnAt?, found, entity, located]
  · simp [ConverterRegistry.inEffect?, effective]

mutual

theorem compileOperand_value {clause : Clause} {t : Operand} {s s' : CompileState} {e : Expression}
    {converter : Option Converter}
    (compiled : compileOperand d scope clause t s = .ok ((e, converter), s'))
    (covers : Covers usage s'.usage) (represents : Represents usage limit scope env row) :
    e.eval row = env.value t := by
  cases t with
  | ref path =>
      rw [compileOperand] at compiled
      obtain ⟨source, a, found, held, -⟩ := compilePath_lookup compiled covers represents
      simp only [Environment.value, Environment.stored, found, held]
  | literal l =>
      rw [compileOperand] at compiled
      cases compiled
      rw [Environment.value]
      rfl
  | call name args =>
      obtain ⟨es, each, rfl, -⟩ := compileOperand_call_ok compiled
      show applyFunction name.toLower (Term.evalList _ es) = _
      rw [compileOperands_values each covers represents, Environment.value]
termination_by sizeOf t

theorem compileOperands_values {clause : Clause} {args : List Operand} {s s' : CompileState}
    {es : List Expression} (compiled : compileOperands d scope clause args s = .ok (es, s'))
    (covers : Covers usage s'.usage) (represents : Represents usage limit scope env row) :
    Term.evalList (fun c : Column => (Keyed.get? row c.rowKey).getD .null) es =
      env.values args := by
  cases args with
  | nil =>
      rw [compileOperands] at compiled
      cases compiled
      rw [Environment.values]
      rfl
  | cons t rest =>
      obtain ⟨e, converter, s₁, others, first, each, rfl⟩ := compileOperands_cons_ok compiled
      have value : e.eval row = env.value t :=
        compileOperand_value first ((compileOperands_grows each).covers covers) represents
      rw [Term.evalList, compileOperands_values each covers represents, Environment.values, ← value]
      rfl
termination_by sizeOf args

end

theorem compileExpression_value {clause : Clause} {t : Operand} {s s' : CompileState}
    {e : Expression} (compiled : compileExpression d scope clause t s = .ok (e, s'))
    (covers : Covers usage s'.usage) (represents : Represents usage limit scope env row) :
    e.eval row = env.value t := by
  obtain ⟨converter, operand⟩ := compileExpression_ok compiled
  exact compileOperand_value operand covers represents

theorem compileOperand_converter {clause : Clause} {t : Operand} {s s' : CompileState}
    {e : Expression} {converter : Option Converter}
    (compiled : compileOperand d scope clause t s = .ok ((e, converter), s'))
    (covers : Covers usage s'.usage) (represents : Represents usage limit scope env row) :
    converter = env.converter? d.registry t := by
  cases t with
  | ref path =>
      rw [compileOperand] at compiled
      obtain ⟨source, a, found, -, effective⟩ := compilePath_lookup compiled covers represents
      simp [Environment.converter?, found, effective]
  | literal l =>
      rw [compileOperand] at compiled
      cases compiled
      rfl
  | call name args =>
      obtain ⟨es, -, -, rfl⟩ := compileOperand_call_ok compiled
      rfl

/-- Only literals compile to literals. -/
theorem compileOperand_literal {clause : Clause} {t : Operand} {s s' : CompileState} {l : Literal}
    {converter : Option Converter}
    (compiled : compileOperand d scope clause t s = .ok ((.literal l, converter), s')) :
    t = .literal l := by
  cases t with
  | ref path =>
      rw [compileOperand] at compiled
      obtain ⟨binding, a, -, -, -, isRef, -⟩ := compilePath_ok compiled
      cases isRef
  | literal l' =>
      rw [compileOperand] at compiled
      cases compiled
      rfl
  | call name args =>
      obtain ⟨es, -, isCall, -⟩ := compileOperand_call_ok compiled
      cases isCall

section Comparands

/-- Two values that every comparison treats alike, on either side. -/
def Value.Interchangeable (v w : Value) : Prop :=
  ∀ op other, Value.compareTruth v op other = Value.compareTruth w op other ∧
    Value.compareTruth other op v = Value.compareTruth other op w

theorem Value.Interchangeable.refl (v : Value) : v.Interchangeable v := fun _ _ => ⟨rfl, rfl⟩

/-- The float next to an integer compares like the integer. -/
theorem Value.interchangeable_ofInt (i : Int) :
    (Value.float (Binary64.ofInt i)).Interchangeable (.int i) := by
  intro op other
  constructor
  · cases other <;> rfl
  · cases other <;> rfl

/-- The literal for a value compares like the value, even where it is another one. -/
theorem Literal.ofValue?_interchangeable {v : Value} {l : Literal}
    (literal : Literal.ofValue? v = some l) : l.toValue.Interchangeable v := by
  rcases Literal.ofValue?_cases literal with same | ⟨i, rfl, nearest⟩
  · rw [same]
    exact .refl v
  · rw [nearest]
    exact Value.interchangeable_ofInt i

/-- The stored form of an operand compares like the comparand. -/
theorem storedForm_comparand {t other : Operand} {s s' : CompileState} {e e' : Expression}
    {own converter : Option Converter}
    (compiled : compileOperand d scope .restriction t s = .ok ((e, own), s'))
    (stored : storedForm e converter = .ok e') (covers : Covers usage s'.usage)
    (represents : Represents usage limit scope env row)
    (beside : converter = env.converter? d.registry other) :
    (e'.eval row).Interchangeable (env.comparand d.registry t other) := by
  have value : e.eval row = env.value t := compileOperand_value compiled covers represents
  rcases storedForm_ok stored with ⟨rfl, unchanged⟩ | ⟨l, c, v, l', rfl, isSome, converted, literal,
    rfl⟩
  · -- The operand stands as it is: it is no literal, or nothing converts it.
    have same : env.comparand d.registry t other = env.value t := by
      unfold Environment.comparand
      rw [← beside]
      cases t with
      | ref path => rfl
      | call name args => rfl
      | literal l =>
          rcases unchanged with rfl | noLiteral
          · rfl
          · rw [compileOperand] at compiled
            cases compiled
            exact absurd rfl (noLiteral l)
    rw [same, value]
    exact .refl _
  · have isLiteral : t = .literal l := compileOperand_literal compiled
    subst isLiteral
    have same : env.comparand d.registry (.literal l) other = v := by
      unfold Environment.comparand
      rw [← beside, isSome]
      simp only [converted]
    rw [same]
    exact Literal.ofValue?_interchangeable literal

end Comparands

end EntityQuery
