import EntityQuery.Proofs.Compilation.Selection
import EntityQuery.Proofs.Meaning.Columns

/-! # What select lists consist of

The expressions that operands compile to, and the columns of a select list, given by functions of
the scope alone: the state that a compilation has come to and the slots it has given out have no say
in them.
-/

namespace EntityQuery

/-- The column that a leaf asks for, if it is stored. -/
def Leaf.requests (registry : ConverterRegistry) (table : TableRef) : Leaf → List Expression
  | .basic a => [.ref (columnOf registry table a)]
  | .transient _ => []

namespace Scope

variable (scope : Scope) (registry : ConverterRegistry)

/-- The column that a path stands for. -/
def column? (path : Path) : Option Column :=
  (scope.resolve? path.aliasName).bind fun binding =>
    (binding.entity.columnAt? path).map (columnOf registry binding.table)

mutual

/-- The operand with columns in the place of paths. -/
def expression? : Operand → Option Expression
  | .ref path => (scope.column? registry path).map .ref
  | .literal l => some (.literal l)
  | .call name args => (expressions? args).map (Expression.function name)

def expressions? : List Operand → Option (List Expression)
  | [] => some []
  | t :: rest => do
      let e ← expression? t
      let es ← expressions? rest
      some (e :: es)

end

/-- The expressions that a selection asks columns for. A path asks for those of its stored
    leaves. -/
def requests : Operand → List Expression
  | .ref path =>
      match scope.resolve? path.aliasName with
      | some binding =>
          (binding.entity.leavesAt path).flatMap (·.2.requests registry binding.table)
      | none => []
  | t => (scope.expression? registry t).toList

end Scope

/-- A request for a column adds it to the others, unless one of them is the same. -/
def withRequest (columns : List Expression) (e : Expression) : List Expression :=
  if columns.any (·.same e) then columns else columns ++ [e]

variable {d : Domain} {scope : Scope}

section Operands

variable {clause : Clause}

mutual

theorem compileOperand_expression {t : Operand} {s s' : CompileState} {e : Expression}
    {converter : Option Converter}
    (compiled : compileOperand d scope clause t s = .ok ((e, converter), s')) :
    scope.expression? d.registry t = some e := by
  cases t with
  | ref path =>
      rw [compileOperand] at compiled
      obtain ⟨binding, a, resolved, located, -, rfl, -⟩ := compilePath_ok compiled
      simp [Scope.expression?, Scope.column?, resolved, Entity.columnAt?, located]
  | literal l =>
      rw [compileOperand] at compiled
      cases compiled
      rw [Scope.expression?]
  | call name args =>
      obtain ⟨es, each, rfl, -⟩ := compileOperand_call_ok compiled
      rw [Scope.expression?, compileOperands_expressions each]
      rfl
termination_by sizeOf t

theorem compileOperands_expressions {args : List Operand} {s s' : CompileState}
    {es : List Expression} (compiled : compileOperands d scope clause args s = .ok (es, s')) :
    scope.expressions? d.registry args = some es := by
  cases args with
  | nil =>
      rw [compileOperands] at compiled
      cases compiled
      rw [Scope.expressions?]
  | cons t rest =>
      obtain ⟨e, converter, s₁, others, first, each, rfl⟩ := compileOperands_cons_ok compiled
      rw [Scope.expressions?, compileOperand_expression first, compileOperands_expressions each]
      rfl
termination_by sizeOf args

end

theorem compileExpression_expression {t : Operand} {s s' : CompileState} {e : Expression}
    (compiled : compileExpression d scope clause t s = .ok (e, s')) :
    scope.expression? d.registry t = some e := by
  obtain ⟨converter, operand⟩ := compileExpression_ok compiled
  exact compileOperand_expression operand

end Operands

/-- Whatever is selected but paths asks for itself. -/
theorem Scope.requests_expression {registry : ConverterRegistry} {t : Operand} {e : Expression}
    (noPath : ∀ path, t ≠ .ref path) (translated : scope.expression? registry t = some e) :
    scope.requests registry t = [e] := by
  cases t with
  | ref path => exact absurd rfl (noPath path)
  | literal l | call name args =>
      rw [Scope.requests, translated]
      · rfl
      all_goals simp

section Slots

theorem Slot.expression?_eq_some {slot : Slot} {e : Expression} :
    slot.expression? = some e ↔ slot.key = .expression e := by
  cases slot <;> simp [Slot.expression?, Slot.key]

theorem Resolver.Ordered.resultColumns_resolve {ω : Type} {r : Resolver ω} (ordered : r.Ordered)
    (e : Expression) (kind : Kind) :
    resultColumns (r.resolve e kind).2.block.select =
      withRequest (resultColumns r.block.select) e := by
  unfold withRequest
  rcases r.resolve_cases e kind with ⟨slot, found, step⟩ | ⟨missing, step⟩
  · obtain ⟨inside, same⟩ := ordered.of_slotOf? found
    obtain ⟨e', isColumn, alike⟩ := Slot.expression?_of_key same
    have member : e' ∈ resultColumns r.block.select :=
      List.mem_filterMap.mpr ⟨slot, inside, isColumn⟩
    rw [step, if_pos (List.any_eq_true.mpr ⟨e', member, by simpa [Expression.same] using alike⟩)]
  · have fresh : ¬ (resultColumns r.block.select).any (·.same e) = true := by
      intro known
      obtain ⟨e', member, alike⟩ := List.any_eq_true.mp known
      obtain ⟨slot, inside, isColumn⟩ := List.mem_filterMap.mp member
      rw [ordered.select_eq] at inside
      obtain ⟨entry, assigned, rfl⟩ := List.mem_map.mp inside
      apply slotOf?_eq_none missing
      have key : entry.1 = (SlotKey.expression e).identity := by
        rw [ordered.keyed entry assigned, Slot.expression?_eq_some.mp isColumn]
        simpa [Expression.same, SlotKey.identity] using alike
      exact key ▸ List.mem_map_of_mem assigned
    rw [step, Resolver.create_select, resultColumns_append, if_neg fresh]
    rfl

theorem Resolver.resultColumns_placeholder_step {r r' : Resolver Unit} {slot : Slot}
    (step : r.placeholder = .ok (slot, r')) :
    resultColumns r'.block.select = resultColumns r.block.select := by
  rcases r.placeholder_cases with ⟨failure, refused⟩ | ⟨-, -, created⟩
  · rw [refused] at step
    cases step
  · rw [created] at step
    cases step
    show resultColumns (_ ++ [_]) = _
    rw [resultColumns_append, resultColumns_placeholder, List.append_nil]

end Slots

section Selections

variable {selections : List Selection} {st st' : SelectState} {aliasName : String}
  {binding : Binding}

/-- The columns of the select list so far. -/
def SelectState.columns (st : SelectState) : List Expression :=
  resultColumns st.resolver.block.select

theorem selectLeaf_columns {path : AttributePath} {leaf : Leaf} {field : ResultField}
    (selecting : Selecting d scope selections st)
    (selected : selectLeaf d binding.table path leaf st = .ok (field, st')) :
    st'.columns = (leaf.requests d.registry binding.table).foldl withRequest st.columns := by
  cases leaf with
  | basic a =>
      obtain ⟨converter, -, -, rfl⟩ := selectLeaf_basic_ok selected
      exact selecting.ordered.resultColumns_resolve _ a.kind
  | transient kind =>
      rcases selectLeaf_transient_ok selected with ⟨slot, -, -, rfl⟩ | ⟨slot, r, -, step, -, rfl⟩
      · rfl
      · exact Resolver.resultColumns_placeholder_step step

theorem selectLeaves_columns {leaves : List (AttributePath × Leaf)} {fields : List ResultField}
    (resolved : scope.resolve? aliasName = some binding)
    (selecting : Selecting d scope selections st)
    (selected : selectLeaves d binding.table leaves st = .ok (fields, st')) :
    st'.columns =
      (leaves.flatMap (·.2.requests d.registry binding.table)).foldl withRequest st.columns := by
  induction leaves generalizing st fields with
  | nil =>
      cases selected
      rfl
  | cons leaf rest ih =>
      obtain ⟨field, st₁, others, first, each, -⟩ := selectLeaves_cons_ok selected
      have next : Selecting d scope selections st₁ :=
        (selectLeaf_leads resolved first).selecting selecting
      rw [List.flatMap_cons, List.foldl_append, ← selectLeaf_columns selecting first]
      exact ih next each

theorem selectPath_columns {path : Path} {name : Option String} {part : ResultPart}
    (selecting : Selecting d scope selections st)
    (selected : selectPath d scope path name st = .ok (part, st')) :
    st'.columns = (scope.requests d.registry (.ref path)).foldl withRequest st.columns := by
  obtain ⟨binding, resolved, shape⟩ := selectPath_ok selected
  simp only [Scope.requests, resolved, Entity.leavesAt]
  rcases shape with ⟨isEntity, fields, leaves, -⟩ | ⟨isEntity, ⟨attributes, fields, mapping, leaves,
    -⟩ | ⟨leaf, field, mapping, leaf, -⟩⟩
  · rw [if_pos isEntity]
    exact selectLeaves_columns resolved selecting leaves
  · rw [if_neg (by simp [isEntity]), mapping]
    exact selectLeaves_columns resolved selecting leaves
  · rw [if_neg (by simp [isEntity]), mapping, selectLeaf_columns selecting leaf]
    cases ‹Leaf› with
    | basic a | transient kind => rfl

theorem selectOne_columns {selection : Selection} {part : ResultPart}
    (selecting : Selecting d scope selections st)
    (selected : selectOne d scope selection st = .ok (part, st')) :
    st'.columns = (scope.requests d.registry selection.operand).foldl withRequest st.columns := by
  rcases selectOne_ok selected with ⟨path, isPath, selected⟩ | ⟨noPath, e, s₁, compiled, -, rfl⟩
  · rw [isPath]
    exact selectPath_columns selecting selected
  · rw [Scope.requests_expression noPath (compileExpression_expression compiled)]
    exact selecting.ordered.resultColumns_resolve e (e.kindOr .null)

/-- The columns of a select list are the requests of its selections, each of them once. -/
theorem selectEach_columns {wanted : List Selection} {parts : List ResultPart}
    (members : ∀ selection ∈ wanted, selection ∈ selections)
    (selecting : Selecting d scope selections st)
    (selected : selectEach d scope wanted st = .ok (parts, st')) :
    st'.columns =
      (wanted.flatMap fun selection => scope.requests d.registry selection.operand).foldl
        withRequest st.columns := by
  induction wanted generalizing st parts with
  | nil =>
      cases selected
      rfl
  | cons selection rest ih =>
      obtain ⟨part, st₁, others, first, each, -⟩ := selectEach_cons_ok selected
      have next : Selecting d scope selections st₁ :=
        (selectOne_leads (members selection List.mem_cons_self) first).selecting selecting
      rw [List.flatMap_cons, List.foldl_append, ← selectOne_columns selecting first]
      exact ih (fun other inside => members other (List.mem_cons_of_mem _ inside)) next each

theorem selectEach_start_columns {wanted : List Selection} {parts : List ResultPart} {id : Nat}
    {table : TableRef} {s : CompileState}
    (selected : selectEach d scope wanted (.start id table s) = .ok (parts, st)) :
    resultColumns st.resolver.block.select =
      (wanted.flatMap fun selection => scope.requests d.registry selection.operand).foldl
        withRequest [] :=
  selectEach_columns (fun _ member => member) (.start id table s) selected

end Selections

/-- The columns of a requested expression are recorded. -/
theorem Requested.recorded {selections : List Selection} {recorded : ColumnUsage} {e : Expression}
    (requested : Requested d scope selections recorded e) :
    ∀ c ∈ e.refs, recorded.Has c.qualifier c.column := by
  cases requested with
  | column a resolved has =>
      intro c member
      rw [List.mem_singleton.mp member]
      exact has
  | operand member compiled within =>
      rw [compileExpression_after compiled] at within
      exact fun c inside => within _ _ (ColumnUsage.foldl_recordColumn_has inside _)

end EntityQuery
