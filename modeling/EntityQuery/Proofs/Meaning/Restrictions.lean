import EntityQuery.Proofs.Compilation.Progress

/-! # The meaning of compiled restrictions

A compiled restriction has on a row under evaluation the truth that the restriction has in the
environment the row represents, and a compiled block has one result row for each of the stored rows
that its query is about. The two are proved together, for restrictions hold queries.
-/

namespace EntityQuery

theorem keepRows_map {test : Row → Except ExecutionError Truth} {f : Row → Row} (rows : List Row) :
    keepRows test (rows.map f) = (keepRows (fun row => test (f row)) rows).map (List.map f) := by
  induction rows with
  | nil => rfl
  | cons row rest ih =>
      rw [List.map_cons, keepRows, keepRows, ih]
      cases test (f row) with
      | error failure => rfl
      | ok t =>
          cases keepRows (fun row => test (f row)) rest with
          | error failure => rfl
          | ok kept =>
              cases holds : t.isTrue <;> simp [holds, Except.map]

theorem page_map {α β : Type} (offset limit : Option Int) (f : α → β) (rows : List α) :
    page offset limit (rows.map f) = (page offset limit rows).map f := by
  unfold page
  cases limit <;> simp

/-- The result row of a block for a stored row. -/
def BlockOf.resultRow (block : QueryBlock) (usage : Option ColumnUsage) (outer source : Row) :
    List Value :=
  (resultColumns block.select).map (·.eval (scanRow usage block.table outer source))

theorem scan_rowsOf (tables : Tables) (usage : Option ColumnUsage) (s : CompileState)
    (config : Config) (e : Entity) (outer : Row) :
    scan tables usage (s.newTable config e) outer =
      (tables.rowsOf e).map (List.map (scanRow usage (s.newTable config e) outer)) := by
  unfold scan Tables.rowsOf CompileState.newTable
  cases tables.rows? e.table <;> rfl

variable {d : Domain} {usage : Option ColumnUsage} {selections : List Selection} {tables : Tables}

section Orders

variable {limit limit' : Nat} {scope : Scope} {env env' : Environment} {row row' : Row}

theorem orderedOperand_eq (represents : Represents usage limit scope env row) (t : Operand) :
    orderedOperand scope selections t = env.sortOperand selections t := by
  cases t with
  | ref path =>
      show (if path.isEntity && (scope.resolve? path.aliasName).isNone then _ else _) = _
      rw [represents.resolve_none]
      rfl
  | literal l => rfl
  | call name args => rfl

/-- Sort keys order two rows like the operands order the environments. -/
theorem compileOrderings_compare {orderings : List OrderBy} {keys : List SortKey}
    {s s' : CompileState}
    (compiled : compileOrderings d scope selections orderings s = .ok (keys, s'))
    (covers : Covers usage s'.usage) (represents : Represents usage limit scope env row)
    (represents' : Represents usage limit' scope env' row') :
    compareRows keys row row' = Environment.compareBy selections orderings env env' := by
  induction orderings generalizing s keys with
  | nil =>
      cases compiled
      rfl
  | cons ordering rest ih =>
      obtain ⟨e, s₁, others, first, each, rfl⟩ := compileOrderings_cons_ok compiled
      have before : Covers usage s₁.usage := (compileOrderings_grows each).covers covers
      have value : e.eval row = env.value (env.sortOperand selections ordering.operand) := by
        rw [compileExpression_value first before represents, orderedOperand_eq represents]
      have value' : e.eval row' = env'.value (env'.sortOperand selections ordering.operand) := by
        rw [compileExpression_value first before represents', orderedOperand_eq represents']
      rw [compareRows, Environment.compareBy, value, value']
      cases Value.sortCompare ordering.ascending
          (env.value (env.sortOperand selections ordering.operand))
          (env'.value (env'.sortOperand selections ordering.operand)) with
      | eq => exact ih each
      | lt | gt => rfl

end Orders

/-- The first column of a block inside a restriction is the first thing its query selects. -/
theorem compileBlock_firstSelected {scope : Scope} {enclosing : List Clause}
    {q : QueryOf Restriction} {s s' : CompileState} {compiled : CompiledBlock} {env : Environment}
    {row source : Row} {e : Entity} (inside : enclosing.head? = some .restriction)
    (ok : compileBlock d scope enclosing q s = .ok (compiled, s'))
    (covers : Covers usage s'.usage) (represents : Represents usage s.tables scope env row)
    (known : d.model.entity? q.root.entity = some e) :
    (compiled.block.resultRow usage row source).head? =
      Environment.firstSelected (⟨q.root.aliasName, e, source⟩ :: env) q.root e q.selections := by
  cases q with
  | mk root selections restriction orderings limit offset =>
      obtain ⟨e', results, st, predicate, s₁, keys, -, known', selected, restricted, ordered, rfl⟩ :=
        compileBlock_ok ok
      have same : e' = e := Option.some.inj (known'.symm.trans known)
      subst same
      have beforeOrder : Covers usage s₁.usage := (compileOrderings_grows ordered).covers covers
      have beforeRestriction : Covers usage st.state.usage :=
        (compileOptional_grows restricted).covers beforeOrder
      have leads := selectEach_leads (fun selection member => member) selected
      have entered := represents.enter d.config root.aliasName e' source
      have first := selectEach_first (fun selection member => member) (.start _ _ _) selected
        beforeRestriction entered
      have table : st.resolver.block.table = s.newTable d.config e' := leads.table
      show ((resultColumns st.resolver.block.select).map
        (·.eval (scanRow usage st.resolver.block.table row source))).head? = _
      rw [table, List.head?_map]
      refine first.trans ?_
      show Option.or none _ = _
      rw [Option.none_or]
      unfold Environment.firstSelected wantedSelections
      split
      · rw [defaultSelection, if_pos inside]
        simp
      · rfl

theorem solutions_entity {env : Environment} {q : QueryOf Restriction} {e : Entity}
    {rows : List Row} (found : solutions d tables env q = .ok (e, rows)) :
    d.model.entity? q.root.entity = some e := by
  cases q with
  | mk root selections restriction orderings limit offset =>
      rw [solutions] at found
      obtain ⟨e', known, found⟩ := bind_eq_ok.mp found
      obtain ⟨stored, -, found⟩ := bind_eq_ok.mp found
      obtain ⟨kept, -, found⟩ := bind_eq_ok.mp found
      cases found
      apply Domain.entity_eq_ok.mp
      cases entity : d.entity root.entity with
      | error failure =>
          rw [entity] at known
          cases known
      | ok e'' =>
          rw [entity] at known
          cases known
          rfl

theorem Tables.rowsOf_eq_ok {tables : Tables} {e : Entity} {rows : List Row} :
    tables.rowsOf e = .ok rows ↔ tables.rows? e.table = some rows := by
  unfold rowsOf
  cases tables.rows? e.table <;> simp

/-- Without orderings and bounds a query is about all rows that pass, as they are stored. -/
theorem solutions_unsorted {env : Environment} {root : Root} {selections : List Selection}
    {restriction : Option Restriction} {e : Entity}
    (known : d.model.entity? root.entity = some e) :
    solutions d tables env { root := root, selections := selections, restriction := restriction } =
      (do
        let rows ← tables.rowsOf e
        let kept ← keepRows (fun row =>
          truthOfOptional d tables (⟨root.aliasName, e, row⟩ :: env) restriction) rows
        .ok (e, kept)) := by
  rw [solutions, Domain.entity_eq_ok.mpr known]
  simp only [Engine.compiling, ok_bind]
  apply bind_congr_ok
  intro rows _
  apply bind_congr_ok
  intro kept _
  rw [List.mergeSort_of_pairwise]
  · rfl
  · exact List.pairwise_of_forall fun _ _ => rfl

mutual

/-- A compiled restriction is as true as the restriction. -/
theorem compileRestriction_truth {scope : Scope} {enclosing : List Clause} {p : Restriction}
    {s s' : CompileState} {predicate : Predicate} {env : Environment} {row : Row}
    (compiled : compileRestriction d scope enclosing p s = .ok (predicate, s'))
    (covers : Covers usage s'.usage) (represents : Represents usage s.tables scope env row) :
    evalPredicate tables usage row predicate = p.truth d tables env := by
  cases p with
  | compare left op right =>
      obtain ⟨l, leftConverter, s₁, r, rightConverter, l', r', onLeft, onRight, storedLeft,
        storedRight, rfl⟩ := compileRestriction_compare_ok compiled
      have before : Covers usage s₁.usage := (compileOperand_grows onRight).covers covers
      have asLeft : (l'.eval row).Interchangeable (env.comparand d.registry left right) :=
        storedForm_comparand onLeft storedLeft before represents
          (compileOperand_converter onRight covers represents)
      have asRight : (r'.eval row).Interchangeable (env.comparand d.registry right left) :=
        storedForm_comparand onRight storedRight covers represents
          (compileOperand_converter onLeft before represents)
      rw [evalPredicate, Restriction.truth, (asLeft op _).1, (asRight op _).2]
  | and parts =>
      obtain ⟨ps, each, rfl⟩ := compileRestriction_and_ok compiled
      rw [evalPredicate, Restriction.truth]
      exact (compileRestrictions_truth each covers represents).1
  | or parts =>
      obtain ⟨ps, each, rfl⟩ := compileRestriction_or_ok compiled
      rw [evalPredicate, Restriction.truth]
      exact (compileRestrictions_truth each covers represents).2
  | not p =>
      obtain ⟨inner, negated, rfl⟩ := compileRestriction_not_ok compiled
      rw [evalPredicate, Restriction.truth, compileRestriction_truth negated covers represents]
  | isNull e negated =>
      obtain ⟨e', operand, rfl⟩ := compileRestriction_isNull_ok compiled
      rw [evalPredicate, Restriction.truth, compileExpression_value operand covers represents]
  | like e pattern negated =>
      obtain ⟨e', s₁, pat, operand, matched, rfl⟩ := compileRestriction_like_ok compiled
      have before : Covers usage s₁.usage := (compileExpression_grows matched).covers covers
      rw [evalPredicate, Restriction.truth, compileOperand_value operand before represents,
        compileExpression_value matched covers represents]
  | existsQuery query negated =>
      obtain ⟨inner, s₁, block, rfl, rfl⟩ := compileRestriction_existsQuery_ok compiled
      rw [evalPredicate, Restriction.truth, runBlock_solutions block covers represents]
      cases solutions d tables env query with
      | error failure => rfl
      | ok found => simp [Except.map]
  | inQuery e query negated =>
      obtain ⟨e', s₁, inner, s₂, operand, block, rfl, rfl⟩ := compileRestriction_inQuery_ok compiled
      have before : Covers usage s₁.usage := (compileBlock_grows block).covers covers
      have later : Represents usage s₁.tables scope env row :=
        represents.mono (compileExpression_grows operand).tables
      rw [evalPredicate, Restriction.truth, runBlock_solutions block covers later,
        compileExpression_value operand before represents]
      cases found : solutions d tables env query with
      | error failure => rfl
      | ok result =>
          obtain ⟨entity, rows⟩ := result
          have known := solutions_entity found
          have firsts : ∀ source, (inner.block.resultRow usage row source).head? =
              Environment.firstSelected (⟨query.root.aliasName, entity, source⟩ :: env) query.root
                entity query.selections :=
            fun source => compileBlock_firstSelected rfl block covers later known
          simp [Except.map, List.filterMap_map, firsts]
termination_by sizeOf p

/-- Several compiled restrictions are as true as the restrictions, whether all of them are to hold
    or one. -/
theorem compileRestrictions_truth {scope : Scope} {enclosing : List Clause}
    {parts : List Restriction} {s s' : CompileState} {predicates : List Predicate}
    {env : Environment} {row : Row}
    (compiled : compileRestrictions d scope enclosing parts s = .ok (predicates, s'))
    (covers : Covers usage s'.usage) (represents : Represents usage s.tables scope env row) :
    evalEvery tables usage row predicates = truthOfEvery d tables env parts ∧
      evalSome tables usage row predicates = truthOfSome d tables env parts := by
  cases parts with
  | nil =>
      rw [compileRestrictions] at compiled
      cases compiled
      rw [evalEvery, truthOfEvery, evalSome, truthOfSome]
      exact ⟨rfl, rfl⟩
  | cons p rest =>
      obtain ⟨first, s₁, others, one, each, rfl⟩ := compileRestrictions_cons_ok compiled
      have truth := compileRestriction_truth one ((compileRestrictions_grows each).covers covers)
        represents
      have later : Represents usage s₁.tables scope env row :=
        represents.mono (compileRestriction_grows one).tables
      obtain ⟨every, any⟩ := compileRestrictions_truth each covers later
      rw [evalEvery, truthOfEvery, evalSome, truthOfSome, truth, every, any]
      exact ⟨rfl, rfl⟩
termination_by sizeOf parts

theorem compileOptional_truth {scope : Scope} {enclosing : List Clause}
    {restriction : Option Restriction} {s s' : CompileState} {predicate : Option Predicate}
    {env : Environment} {row : Row}
    (compiled : compileOptional d scope enclosing restriction s = .ok (predicate, s'))
    (covers : Covers usage s'.usage) (represents : Represents usage s.tables scope env row) :
    evalRestriction tables usage row predicate = truthOfOptional d tables env restriction := by
  cases restriction with
  | none =>
      rw [compileOptional] at compiled
      cases compiled
      rw [evalRestriction, truthOfOptional]
  | some p =>
      obtain ⟨inner, one, rfl⟩ := compileOptional_some_ok compiled
      rw [evalRestriction, truthOfOptional]
      exact compileRestriction_truth one covers represents
termination_by sizeOf restriction

/-- A compiled block has one result row for each of the rows that its query is about, in order. -/
theorem runBlock_solutions {scope : Scope} {enclosing : List Clause} {q : QueryOf Restriction}
    {s s' : CompileState} {compiled : CompiledBlock} {env : Environment} {row : Row}
    (ok : compileBlock d scope enclosing q s = .ok (compiled, s'))
    (covers : Covers usage s'.usage) (represents : Represents usage s.tables scope env row) :
    runBlock tables usage row compiled.block =
      (solutions d tables env q).map fun found =>
        found.2.map (compiled.block.resultRow usage row) := by
  cases q with
  | mk root selections restriction orderings limit offset =>
      obtain ⟨e, results, st, predicate, s₁, keys, -, known, selected, restricted, ordered, rfl⟩ :=
        compileBlock_ok ok
      have beforeOrder : Covers usage s₁.usage := (compileOrderings_grows ordered).covers covers
      have leads := selectEach_leads (fun selection member => member) selected
      have table : st.resolver.block.table = s.newTable d.config e := leads.table
      have entered := represents.enter d.config root.aliasName e
      have truth : ∀ source,
          evalRestriction tables usage (scanRow usage (s.newTable d.config e) row source)
            predicate =
          truthOfOptional d tables (⟨root.aliasName, e, source⟩ :: env) restriction :=
        fun source => compileOptional_truth restricted beforeOrder
          ((entered source).mono (selectEach_grows selected).tables)
      have order : ∀ a b,
          compareRows keys (scanRow usage (s.newTable d.config e) row a)
            (scanRow usage (s.newTable d.config e) row b) =
          Environment.compareBy selections orderings (⟨root.aliasName, e, a⟩ :: env)
            (⟨root.aliasName, e, b⟩ :: env) :=
        fun a b => compileOrderings_compare ordered covers (entered a) (entered b)
      rw [runBlock, solutions, Domain.entity_eq_ok.mpr known, table, scan_rowsOf]
      simp only [Engine.compiling, ok_bind]
      cases tables.rowsOf e with
      | error failure => rfl
      | ok rows =>
          simp only [Except.map, ok_bind, keepRows_map, truth]
          cases keepRows (fun source =>
              truthOfOptional d tables (⟨root.aliasName, e, source⟩ :: env) restriction) rows with
          | error failure => rfl
          | ok kept =>
              simp only [ok_bind, sortRows]
              rw [← List.map_mergeSort (r := fun a b =>
                Environment.compareBy selections orderings (⟨root.aliasName, e, a⟩ :: env)
                  (⟨root.aliasName, e, b⟩ :: env) != .gt) (fun a _ b _ => by rw [order])]
              rw [page_map, List.map_map]
              simp only [table]
              rfl
termination_by sizeOf q

end

end EntityQuery
