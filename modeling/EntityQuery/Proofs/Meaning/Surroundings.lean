import EntityQuery.Proofs.Compilation.Acceptance
import EntityQuery.Proofs.Compilation.Relocation
import EntityQuery.Proofs.Meaning.Restrictions

/-! # What blocks around a query matter to

A query that is well-formed by itself means the same inside any blocks, unless these declare a name
that one of its orderings takes from a selection: an alias in scope goes before that of a selection,
however far out it is declared.
-/

namespace EntityQuery

/-- The name that the operand consists of, with no attribute behind it. -/
def Operand.bareName? : Operand → Option String
  | .ref path => if path.isEntity then some path.aliasName else none
  | _ => none

mutual

/-- The names that orderings take from selections where the declared aliases are in scope. -/
def Restriction.borrowed (declared : List String) : Restriction → List String
  | .and parts => borrowedByAll declared parts
  | .or parts => borrowedByAll declared parts
  | .not p => p.borrowed declared
  | .existsQuery query _ => borrowedByQuery declared query
  | .inQuery _ query _ => borrowedByQuery declared query
  | .compare .. | .isNull .. | .like .. => []

def borrowedByAll (declared : List String) : List Restriction → List String
  | [] => []
  | p :: rest => p.borrowed declared ++ borrowedByAll declared rest

def borrowedByOptional (declared : List String) : Option Restriction → List String
  | none => []
  | some p => p.borrowed declared

def borrowedByQuery (declared : List String) : QueryOf Restriction → List String
  | ⟨root, _, restriction, orderings, _, _⟩ =>
      (orderings.filterMap (·.operand.bareName?)).filter (· ∉ root.aliasName :: declared) ++
        borrowedByOptional (root.aliasName :: declared) restriction

end

/-- The names that orderings in the query take from selections. -/
def Query.borrowed (q : Query) : List String := borrowedByQuery [] q

namespace Environment

variable {d : Domain} {inner env : Environment}

mutual

/-- The value of an operand is a matter of the rows that its aliases stand for. -/
theorem value_congr {t : Operand}
    (agree : ∀ path ∈ t.refs, env.frame? path.aliasName = inner.frame? path.aliasName) :
    env.value t = inner.value t := by
  cases t with
  | ref path => simp only [value, stored, lookup?, agree path List.mem_cons_self]
  | literal l => simp only [value]
  | call name args => rw [value, value, values_congr agree]
termination_by sizeOf t

theorem values_congr {args : List Operand}
    (agree : ∀ path ∈ Term.refsOfList args,
      env.frame? path.aliasName = inner.frame? path.aliasName) :
    env.values args = inner.values args := by
  cases args with
  | nil => simp only [values]
  | cons t rest =>
      rw [Term.refsOfList] at agree
      rw [values, values, value_congr fun path own => agree path (List.mem_append_left _ own),
        values_congr fun path later => agree path (List.mem_append_right _ later)]
termination_by sizeOf args

end

/-- The one environment has for the visible aliases, and for some free names, the rows that the
    other one has, in which nothing else is declared. -/
structure Extends (visible : Visible) (free : List String) (inner env : Environment) : Prop where
  declared : ∀ name, (inner.frame? name).isNone = (Keyed.get? visible name).isNone
  agree : ∀ name, (Keyed.get? visible name).isSome = true ∨ name ∈ free →
    env.frame? name = inner.frame? name

namespace Extends

variable {visible : Visible} {free : List String}

theorem mono {fewer : List String} (extending : Extends visible free inner env)
    (subset : fewer ⊆ free) : Extends visible fewer inner env :=
  ⟨extending.declared, fun name known => extending.agree name (known.imp_right (subset ·))⟩

/-- A row of a further block is added to both environments. -/
theorem enter (extending : Extends visible free inner env) (aliasName : String) (e : Entity)
    (row : Row) :
    Extends ((aliasName, e) :: visible) free (⟨aliasName, e, row⟩ :: inner)
      (⟨aliasName, e, row⟩ :: env) where
  declared := by
    intro name
    by_cases own : aliasName = name
    · simp [frame?, Keyed.get?, own]
    · simpa [frame?, Keyed.get?, own] using extending.declared name
  agree := by
    intro name known
    by_cases own : aliasName = name
    · simp [frame?, own]
    · simpa [frame?, own] using extending.agree name (by simpa [Keyed.get?, own] using known)

theorem of_reaches (extending : Extends visible free inner env) {path : Path}
    (reaches : visible.Reaches d path) :
    env.frame? path.aliasName = inner.frame? path.aliasName := by
  obtain ⟨a, leads, -⟩ := reaches
  obtain ⟨e, known, -⟩ := Option.bind_eq_some_iff.mp leads
  exact extending.agree _ (.inl (by rw [known]; rfl))

theorem value (extending : Extends visible free inner env) {t : Operand}
    (admits : visible.Admits d t) : env.value t = inner.value t :=
  value_congr fun path member => extending.of_reaches (admits path member)

theorem converter? (extending : Extends visible free inner env) {t : Operand}
    (admits : visible.Admits d t) :
    env.converter? d.registry t = inner.converter? d.registry t := by
  cases t with
  | ref path =>
      have agree := extending.of_reaches (admits path List.mem_cons_self)
      simp only [Environment.converter?, lookup?, agree]
  | literal l | call name args => rfl

theorem comparand (extending : Extends visible free inner env) {t other : Operand}
    (admits : visible.Admits d t) (admits' : visible.Admits d other) :
    env.comparand d.registry t other = inner.comparand d.registry t other := by
  have value := extending.value admits
  unfold Environment.comparand
  rw [extending.converter? admits']
  cases t with
  | ref path | call name args => exact value
  | literal l => cases inner.converter? d.registry other <;> rfl

theorem selected (extending : Extends visible free inner env) {t : Operand}
    (selects : visible.Selects d t) : env.selected t = inner.selected t := by
  cases t with
  | ref path =>
      obtain ⟨leaves, leads, -⟩ := selects
      obtain ⟨e, known, -⟩ := Option.bind_eq_some_iff.mp leads
      have agree := extending.agree path.aliasName (.inl (by rw [known]; rfl))
      simp only [Environment.selected, agree]
  | literal l | call name args =>
      exact congrArg (fun v => [v]) (extending.value selects)

theorem sortOperand_visible (extending : Extends visible free inner env)
    (selections : List Selection) (t : Operand) :
    inner.sortOperand selections t = visible.sortOperand selections t := by
  cases t with
  | ref path =>
      show (if path.isEntity && (inner.frame? path.aliasName).isNone then _ else _) = _
      rw [extending.declared]
      rfl
  | literal l | call name args => rfl

/-- The names that are ordered by are free or visible, so they stand for the same rows, or for
    none. -/
theorem sortOperand (extending : Extends visible free inner env) (selections : List Selection)
    {t : Operand} (bare : ∀ name, t.bareName? = some name → name ∉ Keyed.names visible →
      name ∈ free) : env.sortOperand selections t = inner.sortOperand selections t := by
  cases t with
  | ref path =>
      by_cases isEntity : path.isEntity = true
      · have agree : env.frame? path.aliasName = inner.frame? path.aliasName := by
          apply extending.agree
          cases known : Keyed.get? visible path.aliasName with
          | some e => exact .inl rfl
          | none =>
              exact .inr (bare _ (by simp [Operand.bareName?, isEntity])
                (Keyed.get?_eq_none_iff.mp known))
        simp only [Environment.sortOperand, agree]
      · simp [Environment.sortOperand, isEntity]
  | literal l | call name args => rfl

theorem sortValue (extending : Extends visible free inner env) {selections : List Selection}
    {t : Operand} (bare : ∀ name, t.bareName? = some name → name ∉ Keyed.names visible →
      name ∈ free) (admits : visible.Admits d (visible.sortOperand selections t)) :
    env.value (env.sortOperand selections t) = inner.value (inner.sortOperand selections t) := by
  rw [extending.sortOperand selections bare, extending.sortOperand_visible]
  exact extending.value admits

end Extends

end Environment

variable {d : Domain} {tables : Tables}

section Blocks

variable {inner env : Environment} {visible : Visible} {free : List String}

theorem Environment.Extends.compareBy {inner' env' : Environment} {selections : List Selection}
    {orderings : List OrderBy} (extending : Extends visible free inner env)
    (extending' : Extends visible free inner' env')
    (bare : ∀ name ∈ orderings.filterMap (·.operand.bareName?), name ∉ Keyed.names visible →
      name ∈ free)
    (admitted : ∀ ordering ∈ orderings,
      visible.Admits d (visible.sortOperand selections ordering.operand)) :
    Environment.compareBy selections orderings env env' =
      Environment.compareBy selections orderings inner inner' := by
  induction orderings with
  | nil => rfl
  | cons ordering rest ih =>
      have own : ∀ name, ordering.operand.bareName? = some name → name ∉ Keyed.names visible →
          name ∈ free := fun name isBare => bare name
        (List.mem_filterMap.mpr ⟨ordering, List.mem_cons_self, isBare⟩)
      have admits := admitted ordering List.mem_cons_self
      have others := ih
        (fun name inside => bare name (by
          obtain ⟨other, member, isBare⟩ := List.mem_filterMap.mp inside
          exact List.mem_filterMap.mpr ⟨other, List.mem_cons_of_mem _ member, isBare⟩))
        (fun other member => admitted other (List.mem_cons_of_mem _ member))
      rw [Environment.compareBy, Environment.compareBy, extending.sortValue own admits,
        extending'.sortValue own admits, others]

theorem Environment.Extends.firstSelected {root : Root} {e : Entity} {enclosing : List Clause}
    {selections : List Selection} (extending : Extends visible free inner env) (row : Row)
    (selects : SelectsAll d ((root.aliasName, e) :: visible)
      (wantedSelections root e enclosing selections)) :
    Environment.firstSelected (⟨root.aliasName, e, row⟩ :: env) root e selections =
      Environment.firstSelected (⟨root.aliasName, e, row⟩ :: inner) root e selections := by
  unfold Environment.firstSelected
  split
  · simp only [Environment.selected, Environment.frame?, List.find?_cons_of_pos, decide_true]
  · next explicit =>
    have wanted : wantedSelections root e enclosing selections = selections := if_neg explicit
    rw [wanted] at selects
    congr 1
    exact List.flatMap_congr fun selection member =>
      (extending.enter root.aliasName e row).selected (selects.each selection member)

end Blocks

mutual

/-- A well-formed restriction is as true in an environment with further rows around. -/
theorem Environment.Extends.truth {p : Restriction} {visible : Visible}
    {enclosing : List Clause} {inner env : Environment}
    (wellFormed : p.WellFormed d visible enclosing)
    (extending : Extends visible (p.borrowed (Keyed.names visible)) inner env) :
    p.truth d tables env = p.truth d tables inner := by
  cases p with
  | compare left op right =>
      obtain ⟨onLeft, onRight, -, -⟩ := wellFormed
      rw [Restriction.truth, Restriction.truth, extending.comparand onLeft onRight,
        extending.comparand onRight onLeft]
  | and parts =>
      rw [Restriction.WellFormed] at wellFormed
      rw [Restriction.truth, Restriction.truth]
      exact (Environment.Extends.truths wellFormed extending).1
  | or parts =>
      rw [Restriction.WellFormed] at wellFormed
      rw [Restriction.truth, Restriction.truth]
      exact (Environment.Extends.truths wellFormed extending).2
  | not p =>
      rw [Restriction.WellFormed] at wellFormed
      rw [Restriction.truth, Restriction.truth, Environment.Extends.truth wellFormed extending]
  | isNull e negated =>
      rw [Restriction.WellFormed] at wellFormed
      rw [Restriction.truth, Restriction.truth, extending.value wellFormed]
  | like e pattern negated =>
      obtain ⟨onText, onPattern, -⟩ := wellFormed
      rw [Restriction.truth, Restriction.truth, extending.value onText, extending.value onPattern]
  | existsQuery query negated =>
      rw [Restriction.WellFormed] at wellFormed
      rw [Restriction.truth, Restriction.truth, Environment.Extends.solutions wellFormed extending]
  | inQuery e query negated =>
      obtain ⟨onValue, wellFormed⟩ := wellFormed
      rw [Restriction.truth, Restriction.truth, Environment.Extends.solutions wellFormed extending,
        extending.value onValue]
      apply bind_congr_ok
      rintro ⟨entity, rows⟩ found
      have known := solutions_entity found
      obtain ⟨root, selections, restriction, orderings, limit, offset⟩ := query
      obtain ⟨-, e', known', selects, -, -⟩ := wellFormed
      cases known'.symm.trans known
      simp only [fun row => extending.firstSelected row selects]
termination_by sizeOf p

theorem Environment.Extends.truths {parts : List Restriction} {visible : Visible}
    {enclosing : List Clause} {inner env : Environment}
    (wellFormed : wellFormedAll d visible enclosing parts)
    (extending : Extends visible (borrowedByAll (Keyed.names visible) parts) inner env) :
    truthOfEvery d tables env parts = truthOfEvery d tables inner parts ∧
      truthOfSome d tables env parts = truthOfSome d tables inner parts := by
  cases parts with
  | nil =>
      simp only [truthOfEvery, truthOfSome]
      exact ⟨trivial, trivial⟩
  | cons p rest =>
      rw [wellFormedAll] at wellFormed
      rw [borrowedByAll] at extending
      have first := Environment.Extends.truth wellFormed.1
        (extending.mono (List.subset_append_left _ _))
      obtain ⟨every, any⟩ := Environment.Extends.truths wellFormed.2
        (extending.mono (List.subset_append_right _ _))
      rw [truthOfEvery, truthOfEvery, truthOfSome, truthOfSome, first, every, any]
      exact ⟨rfl, rfl⟩
termination_by sizeOf parts

theorem Environment.Extends.truthOfOptional {restriction : Option Restriction}
    {visible : Visible} {enclosing : List Clause} {inner env : Environment}
    (wellFormed : wellFormedOptional d visible enclosing restriction)
    (extending : Extends visible (borrowedByOptional (Keyed.names visible) restriction) inner env) :
    EntityQuery.truthOfOptional d tables env restriction =
      EntityQuery.truthOfOptional d tables inner restriction := by
  cases restriction with
  | none => simp only [EntityQuery.truthOfOptional]
  | some p =>
      rw [wellFormedOptional] at wellFormed
      rw [borrowedByOptional] at extending
      rw [EntityQuery.truthOfOptional, EntityQuery.truthOfOptional]
      exact Environment.Extends.truth wellFormed extending
termination_by sizeOf restriction

/-- A well-formed query is about the same rows in an environment with further rows around. -/
theorem Environment.Extends.solutions {q : QueryOf Restriction} {visible : Visible}
    {enclosing : List Clause} {inner env : Environment}
    (wellFormed : wellFormedQuery d visible enclosing q)
    (extending : Extends visible (borrowedByQuery (Keyed.names visible) q) inner env) :
    EntityQuery.solutions d tables env q = EntityQuery.solutions d tables inner q := by
  cases q with
  | mk root selections restriction orderings limit offset =>
      obtain ⟨-, e, known, -, restricted, ordered⟩ := wellFormed
      rw [borrowedByQuery] at extending
      have entered := fun row => (extending.mono (List.subset_append_right _ _)).enter root.aliasName
        e row
      have sorted := fun row => (extending.mono (List.subset_append_left _ _)).enter root.aliasName
        e row
      have truth := fun row => Environment.Extends.truthOfOptional restricted
        (entered row)
      have order := fun a b => (sorted a).compareBy (sorted b)
        (fun name isBare other => List.mem_filter.mpr ⟨isBare, decide_eq_true other⟩) ordered
      rw [EntityQuery.solutions, EntityQuery.solutions, Domain.entity_eq_ok.mpr known]
      simp only [Engine.compiling, ok_bind, truth, order]
termination_by sizeOf q

end

section ResultRows

/-- The value of an expression whose columns are all those of the row. -/
def Row.valueOf (row : Row) (e : Expression) : Value :=
  Term.eval (fun c : Column => row.stored c.column) e

variable {usage : Option ColumnUsage}

theorem Expression.eval_movedTo {recorded : ColumnUsage} {table : TableRef} {row source : Row}
    {e : Expression} (covers : Covers usage recorded)
    (held : ∀ column, Scans usage table.aliasName column →
      row.stored (qualifiedName table.aliasName column) = source.stored column)
    (has : ∀ c ∈ (e.movedTo table.aliasName).refs, recorded.Has c.qualifier c.column) :
    (e.movedTo table.aliasName).eval row = source.valueOf e := by
  apply Term.eval_mapRefs
  rintro c inside c₀ rfl
  exact held c₀.column (covers _ _ (has _ inside))

/-- The result row of a block that selects from its root alone is made of the stored row, wherever
    the block stands. -/
theorem compileBlock_resultRow {scope : Scope} {enclosing : List Clause}
    {q : QueryOf Restriction} {s s' : CompileState} {compiled : CompiledBlock} {env : Environment}
    {row : Row} {e : Entity} (explicit : q.selections ≠ [])
    (own : ∀ selection ∈ q.selections, selection.operand.NamesOnly q.root.aliasName)
    (known : d.model.entity? q.root.entity = some e)
    (ok : compileBlock d scope enclosing q s = .ok (compiled, s'))
    (covers : Covers usage s'.usage) (represents : Represents usage s.tables scope env row)
    (source : Row) :
    compiled.block.resultRow usage row source =
      (Scope.bareColumns d.registry e q.root.aliasName q.selections).map source.valueOf := by
  cases q with
  | mk root selections restriction orderings limit offset =>
      obtain ⟨e', results, st, predicate, s₁, keys, -, known', selected, restricted, ordered,
        rfl⟩ := compileBlock_ok ok
      cases known'.symm.trans known
      have beforeOrder : Covers usage s₁.usage := (compileOrderings_grows ordered).covers covers
      have recorded : Covers usage st.state.usage :=
        (compileOptional_grows restricted).covers beforeOrder
      have wanted : wantedSelections root e enclosing selections = selections :=
        if_neg (by simpa using explicit)
      rw [wanted] at selected
      have leads := selectEach_leads (fun selection member => member) selected
      have selecting := leads.selecting (.start _ _ _)
      have table : st.resolver.block.table = s.newTable d.config e := leads.table
      have columns : resultColumns st.resolver.block.select =
          (Scope.bareColumns d.registry e root.aliasName selections).map
            (Expression.movedTo (s.newTable d.config e).aliasName) :=
        (selectEach_start_columns selected).trans (Scope.columns_within scope d.registry e _ own)
      obtain ⟨f, located, -, held⟩ := (represents.enter d.config root.aliasName e source).resolve
        (scope.resolve?_within_own e (s.newTable d.config e))
      have isSource : f.row = source := by
        simp only [Environment.frame?, List.find?_cons_of_pos, decide_true, Option.some.injEq]
          at located
        rw [← located]
      show (resultColumns st.resolver.block.select).map
        (·.eval (scanRow usage st.resolver.block.table row source)) = _
      rw [table, columns, List.map_map]
      apply List.map_congr_left
      intro column inside
      refine Expression.eval_movedTo recorded (fun c scans => isSource ▸ held c scans) ?_
      exact (selecting.requested _ (columns ▸ List.mem_map_of_mem inside)).recorded

end ResultRows

end EntityQuery
