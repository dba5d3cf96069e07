import EntityQuery.Proofs.Compilation.Translation
import EntityQuery.Proofs.Relational.References

/-! # What compilation leaves in the state

What a part of a statement compiled to tells the state after it: every block in it took the next
number and gave its table the next alias, and every column in it was recorded, from left to right.
A column that an earlier slot already stands for is recorded again, which changes nothing. On the
channel a block announces the slots of its own select list, and nothing of the blocks inside it.
-/

namespace EntityQuery

variable {d : Domain}

/-- The stored form of an expression has the same columns. -/
theorem storedForm_columns {e e' : Expression} {converter : Option Converter}
    (stored : storedForm e converter = .ok e') : e'.columns = e.columns := by
  rcases storedForm_ok stored with ⟨rfl, -⟩ | ⟨l, c, v, l', rfl, -, -, -, rfl⟩
  · rfl
  · rfl

section Selections

variable {scope : Scope} {st st' : SelectState}

theorem selectLeaf_after {table : TableRef} {path : AttributePath} {leaf : Leaf}
    {field : ResultField} (selected : selectLeaf d table path leaf st = .ok (field, st')) :
    st'.state = st.state.after 0 ((leaf.requests d.registry table).flatMap Expression.columns) := by
  cases leaf with
  | basic a =>
      obtain ⟨converter, -, -, rfl⟩ := selectLeaf_basic_ok selected
      exact st.state.referred_eq_after _
  | transient kind =>
      rcases selectLeaf_transient_ok selected with ⟨slot, -, -, rfl⟩ | ⟨slot, r, -, -, -, rfl⟩
      · exact st'.state.after_nothing.symm
      · exact st.state.after_nothing.symm

theorem selectLeaves_after {table : TableRef} {leaves : List (AttributePath × Leaf)}
    {fields : List ResultField} (selected : selectLeaves d table leaves st = .ok (fields, st')) :
    st'.state = st.state.after 0
      ((leaves.flatMap (·.2.requests d.registry table)).flatMap Expression.columns) := by
  induction leaves generalizing st fields with
  | nil =>
      cases selected
      exact st'.state.after_nothing.symm
  | cons leaf rest ih =>
      obtain ⟨field, st₁, others, first, each, -⟩ := selectLeaves_cons_ok selected
      rw [ih each, selectLeaf_after first, CompileState.after_after, List.flatMap_cons,
        List.flatMap_append]

theorem selectPath_after {path : Path} {name : Option String} {part : ResultPart}
    (selected : selectPath d scope path name st = .ok (part, st')) :
    st'.state = st.state.after 0
      ((scope.requests d.registry (.ref path)).flatMap Expression.columns) := by
  obtain ⟨binding, resolved, shape⟩ := selectPath_ok selected
  simp only [Scope.requests, resolved, Entity.leavesAt]
  rcases shape with ⟨isEntity, fields, leaves, -⟩ | ⟨isEntity, ⟨attributes, fields, mapping, leaves,
    -⟩ | ⟨leaf, field, mapping, leaf, -⟩⟩
  · rw [if_pos isEntity]
    exact selectLeaves_after leaves
  · rw [if_neg (by simp [isEntity]), mapping]
    exact selectLeaves_after leaves
  · rw [if_neg (by simp [isEntity]), mapping, selectLeaf_after leaf]
    cases ‹Leaf› with
    | basic a | transient kind => rfl

theorem selectOne_after {selection : Selection} {part : ResultPart}
    (selected : selectOne d scope selection st = .ok (part, st')) :
    st'.state = st.state.after 0
      ((scope.requests d.registry selection.operand).flatMap Expression.columns) := by
  rcases selectOne_ok selected with ⟨path, isPath, selected⟩ | ⟨noPath, e, s₁, compiled, -, rfl⟩
  · rw [isPath]
    exact selectPath_after selected
  · rw [Scope.requests_expression noPath (compileExpression_expression compiled),
      List.flatMap_singleton]
    exact compileExpression_after compiled

/-- A select list records the columns of all that its selections ask for. -/
theorem selectEach_after {selections : List Selection} {parts : List ResultPart}
    (selected : selectEach d scope selections st = .ok (parts, st')) :
    st'.state = st.state.after 0
      ((selections.flatMap fun selection =>
        scope.requests d.registry selection.operand).flatMap Expression.columns) := by
  induction selections generalizing st parts with
  | nil =>
      cases selected
      exact st'.state.after_nothing.symm
  | cons selection rest ih =>
      obtain ⟨part, st₁, others, first, each, -⟩ := selectEach_cons_ok selected
      rw [ih each, selectOne_after first, CompileState.after_after, List.flatMap_cons,
        List.flatMap_append]

end Selections

section Deduplication

mutual

theorem Term.refs_identity {ρ : Type} (t : Term ρ) : t.identity.refs = t.refs := by
  cases t with
  | ref r | literal l => rfl
  | call name args => simp only [identity, refs, refsOfList_identityOfList args]
termination_by sizeOf t

theorem Term.refsOfList_identityOfList {ρ : Type} (args : List (Term ρ)) :
    refsOfList (identityOfList args) = refsOfList args := by
  cases args with
  | nil => rfl
  | cons t rest =>
      simp only [identityOfList, refsOfList, refs_identity t, refsOfList_identityOfList rest]
termination_by sizeOf args

end

theorem Expression.same_columns {e e' : Expression} (same : Expression.same e e' = true) :
    e.columns = e'.columns := by
  have identical : e.identity = e'.identity := by simpa [Expression.same] using same
  rw [columns, columns, ← Term.refs_identity e, ← Term.refs_identity e', identical]

/-- A request that another one made needless asks for columns that are recorded already. -/
theorem CompileState.after_withRequest (s : CompileState) (n : Nat) (columns : List Expression)
    (e : Expression) :
    s.after n ((withRequest columns e).flatMap Expression.columns) =
      s.after n ((columns ++ [e]).flatMap Expression.columns) := by
  unfold withRequest
  split
  · next known =>
    obtain ⟨e', member, same⟩ := List.any_eq_true.mp known
    have recorded : ∀ c ∈ e.columns, ((columns.flatMap Expression.columns).foldl
        ColumnUsage.recordColumn s.usage).Has c.qualifier c.column := by
      intro c inside
      rw [← Expression.same_columns same] at inside
      exact ColumnUsage.foldl_recordColumn_has
        (List.mem_flatMap.mpr ⟨e', member, inside⟩) s.usage
    simp only [after, List.flatMap_append, List.flatMap_singleton, List.foldl_append,
      ColumnUsage.foldl_recordColumn_known recorded]
  · rfl

/-- So requests leave the same behind as the slots that they result in. -/
theorem CompileState.after_requests (s : CompileState) (n : Nat)
    (columns requests : List Expression) :
    s.after n ((requests.foldl withRequest columns).flatMap Expression.columns) =
      s.after n ((columns ++ requests).flatMap Expression.columns) := by
  induction requests generalizing columns with
  | nil => rw [List.append_nil, List.foldl_nil]
  | cons e rest ih =>
      have others := congrArg (·.after 0 (rest.flatMap Expression.columns))
        (s.after_withRequest n columns e)
      simp only [after_after, Nat.add_zero, ← List.flatMap_append] at others
      rw [List.foldl_cons, ih, others, List.append_assoc, List.singleton_append]

/-- The select list of a new block announces its slots and records the columns in them. -/
theorem selectEach_start_after {scope : Scope} {selections : List Selection}
    {parts : List ResultPart} {id : Nat} {table : TableRef} {s : CompileState} {st : SelectState}
    (selected : selectEach d scope selections (.start id table s) = .ok (parts, st)) :
    st.finish = (s.announced st.resolver.block.select).after 0
      ((resultColumns st.resolver.block.select).flatMap Expression.columns) := by
  have state : st.state = s.after 0
      ((resultColumns st.resolver.block.select).flatMap Expression.columns) := by
    rw [selectEach_start_columns selected, CompileState.after_requests]
    exact selectEach_after selected
  obtain ⟨slots, select, announced⟩ := (selectEach_leads (fun _ member => member) selected).added
  have all : st.resolver.block.select = slots := select
  rw [SelectState.finish, state, announced, all]
  simp only [CompileState.after, CompileState.announced, Channel.spent_zero]
  rfl

end Deduplication

section Restrictions

mutual

theorem compileRestriction_after {scope : Scope} {enclosing : List Clause} {s s' : CompileState}
    {p : Restriction} {predicate : Predicate} (aliases : List String)
    (compiled : compileRestriction d scope enclosing p s = .ok (predicate, s')) :
    s' = s.after predicate.blocks.length ((predicate.references aliases).map (·.column)) := by
  cases p with
  | compare left op right =>
      obtain ⟨l, leftConverter, s₁, r, rightConverter, l', r', onLeft, onRight, storedLeft,
        storedRight, rfl⟩ := compileRestriction_compare_ok compiled
      rw [compileOperand_after onRight, compileOperand_after onLeft]
      simp [Predicate.blocks, Predicate.references, storedForm_columns storedLeft,
        storedForm_columns storedRight]
  | and parts =>
      obtain ⟨ps, each, rfl⟩ := compileRestriction_and_ok compiled
      exact compileRestrictions_after aliases each
  | or parts =>
      obtain ⟨ps, each, rfl⟩ := compileRestriction_or_ok compiled
      exact compileRestrictions_after aliases each
  | not p =>
      obtain ⟨inner, negated, rfl⟩ := compileRestriction_not_ok compiled
      have inside := compileRestriction_after aliases negated
      simpa only [Predicate.blocks, Predicate.references] using inside
  | isNull e negated =>
      obtain ⟨e', operand, rfl⟩ := compileRestriction_isNull_ok compiled
      rw [compileExpression_after operand]
      simp [Predicate.blocks, Predicate.references]
  | like e pattern negated =>
      obtain ⟨e', s₁, pat, operand, matched, rfl⟩ := compileRestriction_like_ok compiled
      rw [compileExpression_after matched, compileOperand_after operand]
      simp [Predicate.blocks, Predicate.references]
  | existsQuery query negated =>
      obtain ⟨inner, s₁, block, rfl, rfl⟩ := compileRestriction_existsQuery_ok compiled
      rw [compileBlock_after aliases block, CompileState.unmuted_muted]
      simp [Predicate.blocks, Predicate.references, blocksOfBlock_eq]
  | inQuery e query negated =>
      obtain ⟨e', s₁, inner, s₂, operand, block, rfl, rfl⟩ := compileRestriction_inQuery_ok compiled
      rw [compileBlock_after aliases block, CompileState.unmuted_muted,
        compileExpression_after operand]
      simp [Predicate.blocks, Predicate.references, blocksOfBlock_eq]
termination_by sizeOf p

theorem compileRestrictions_after {scope : Scope} {enclosing : List Clause} {s s' : CompileState}
    {parts : List Restriction} {predicates : List Predicate} (aliases : List String)
    (compiled : compileRestrictions d scope enclosing parts s = .ok (predicates, s')) :
    s' = s.after (blocksOfAll predicates).length
      ((referencesOfAll aliases predicates).map (·.column)) := by
  cases parts with
  | nil =>
      rw [compileRestrictions] at compiled
      cases compiled
      exact s.after_nothing.symm
  | cons p rest =>
      obtain ⟨first, s₁, others, one, each, rfl⟩ := compileRestrictions_cons_ok compiled
      rw [compileRestrictions_after aliases each, compileRestriction_after aliases one]
      simp [blocksOfAll, referencesOfAll]
termination_by sizeOf parts

theorem compileOptional_after {scope : Scope} {enclosing : List Clause} {s s' : CompileState}
    {restriction : Option Restriction} {predicate : Option Predicate} (aliases : List String)
    (compiled : compileOptional d scope enclosing restriction s = .ok (predicate, s')) :
    s' = s.after (blocksOfRestriction predicate).length
      ((referencesOfRestriction aliases predicate).map (·.column)) := by
  cases restriction with
  | none =>
      rw [compileOptional] at compiled
      cases compiled
      exact s.after_nothing.symm
  | some p =>
      obtain ⟨inner, one, rfl⟩ := compileOptional_some_ok compiled
      exact compileRestriction_after aliases one
termination_by sizeOf restriction

/-- The state after a block is settled by the block: its own slots were announced, and beside them
    it has only numbers and columns. -/
theorem compileBlock_after {scope : Scope} {enclosing : List Clause} {s s' : CompileState}
    {q : QueryOf Restriction} {compiled : CompiledBlock} (aliases : List String)
    (ok : compileBlock d scope enclosing q s = .ok (compiled, s')) :
    s' = (s.withBlock.announced compiled.block.select).after
      (blocksOfRestriction compiled.block.restriction).length
      ((referencesOfBlock aliases compiled.block).map (·.column)) := by
  cases q with
  | mk root selections restriction orderings limit offset =>
      obtain ⟨e, results, st, predicate, s₁, keys, -, -, selected, restricted, ordered, rfl⟩ :=
        compileBlock_ok ok
      rw [compileOrderings_after ordered,
        compileOptional_after (st.resolver.block.table.aliasName :: aliases) restricted,
        selectEach_start_after selected]
      simp [referencesOfBlock, List.map_flatMap]
termination_by sizeOf q

end

theorem compileRestriction_grows {scope : Scope} {enclosing : List Clause} {s s' : CompileState}
    {p : Restriction} {predicate : Predicate}
    (compiled : compileRestriction d scope enclosing p s = .ok (predicate, s')) :
    s.Grows s' := by
  rw [compileRestriction_after [] compiled]
  exact .after s _ _

theorem compileRestrictions_grows {scope : Scope} {enclosing : List Clause} {s s' : CompileState}
    {parts : List Restriction} {predicates : List Predicate}
    (compiled : compileRestrictions d scope enclosing parts s = .ok (predicates, s')) :
    s.Grows s' := by
  rw [compileRestrictions_after [] compiled]
  exact .after s _ _

theorem compileOptional_grows {scope : Scope} {enclosing : List Clause} {s s' : CompileState}
    {restriction : Option Restriction} {predicate : Option Predicate}
    (compiled : compileOptional d scope enclosing restriction s = .ok (predicate, s')) :
    s.Grows s' := by
  rw [compileOptional_after [] compiled]
  exact .after s _ _

theorem compileBlock_grows {scope : Scope} {enclosing : List Clause} {s s' : CompileState}
    {q : QueryOf Restriction} {compiled : CompiledBlock}
    (ok : compileBlock d scope enclosing q s = .ok (compiled, s')) : s.Grows s' := by
  have entered : s.Grows (s.withBlock.announced compiled.block.select) :=
    ⟨Nat.le_succ _, .refl _⟩
  rw [compileBlock_after [] ok]
  exact entered.trans (.after _ _ _)

end Restrictions

end EntityQuery
