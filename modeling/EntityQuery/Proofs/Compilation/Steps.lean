import EntityQuery.Compilation.Statement
import EntityQuery.Proofs.Outcome

/-! # Successful compilation, step by step

What must have happened when a part of a statement compiled: one statement for every function and
every shape of its argument. Proofs about compilation take a successful run apart with these and
never open the functions themselves.
-/

namespace EntityQuery

theorem Scope.resolve_eq_ok {scope : Scope} {aliasName : String} {binding : Binding} :
    scope.resolve aliasName = .ok binding ↔ scope.resolve? aliasName = some binding := by
  unfold Scope.resolve
  cases scope.resolve? aliasName <;> simp

theorem Domain.entity_eq_ok {d : Domain} {name : String} {e : Entity} :
    d.entity name = .ok e ↔ d.model.entity? name = some e := by
  unfold Domain.entity
  cases d.model.entity? name <;> simp

theorem Domain.converterFor_eq_ok {d : Domain} {a : BasicAttribute} {path : AttributePath}
    {converter : Option Converter} :
    d.converterFor a path = .ok converter ↔ d.registry.converterFor a = .ok converter := by
  unfold Domain.converterFor
  cases d.registry.converterFor a <;> simp

def columnOf (registry : ConverterRegistry) (table : TableRef) (a : BasicAttribute) : Column :=
  ⟨table.aliasName, a.column, registry.storedKind a⟩

def CompileState.referred (s : CompileState) (c : Column) : CompileState :=
  { s with usage := s.usage.record (.ref c) }

theorem CompileState.refer_eq (s : CompileState) (registry : ConverterRegistry) (table : TableRef)
    (a : BasicAttribute) :
    s.refer registry table a =
      (.ref (columnOf registry table a), s.referred (columnOf registry table a)) := rfl

variable {d : Domain} {scope : Scope} {clause : Clause} {enclosing : List Clause}

theorem compilePath_ok {path : Path} {s s' : CompileState} {e : Expression}
    {converter : Option Converter}
    (compiled : compilePath d scope clause path s = .ok ((e, converter), s')) :
    ∃ binding a, scope.resolve? path.aliasName = some binding ∧
      binding.entity.at? (if path.isEntity then [binding.entity.idAttribute]
        else path.attributes) = some (.basic a) ∧
      d.registry.converterFor a = .ok converter ∧
      e = .ref (columnOf d.registry binding.table a) ∧
      s' = s.referred (columnOf d.registry binding.table a) := by
  unfold compilePath at compiled
  obtain ⟨binding, resolved, compiled⟩ := bind_eq_ok.mp compiled
  refine ⟨binding, ?_⟩
  simp only at compiled
  split at compiled
  · next a located =>
    obtain ⟨c, effective, compiled⟩ := bind_eq_ok.mp compiled
    rw [CompileState.refer_eq] at compiled
    cases compiled
    exact ⟨a, Scope.resolve_eq_ok.mp resolved, located, Domain.converterFor_eq_ok.mp effective,
      rfl, rfl⟩
  · cases compiled
  · cases compiled

theorem compileOperand_call_ok {name : String} {args : List Operand} {s s' : CompileState}
    {e : Expression} {converter : Option Converter}
    (compiled : compileOperand d scope clause (.call name args) s = .ok ((e, converter), s')) :
    ∃ es, compileOperands d scope clause args s = .ok (es, s') ∧ e = .call name.toLower es ∧
      converter = none := by
  rw [compileOperand] at compiled
  obtain ⟨⟨es, s₁⟩, args, compiled⟩ := bind_eq_ok.mp compiled
  cases compiled
  exact ⟨es, args, rfl, rfl⟩

theorem compileOperands_cons_ok {t : Operand} {rest : List Operand} {s s' : CompileState}
    {es : List Expression}
    (compiled : compileOperands d scope clause (t :: rest) s = .ok (es, s')) :
    ∃ e converter s₁ es', compileOperand d scope clause t s = .ok ((e, converter), s₁) ∧
      compileOperands d scope clause rest s₁ = .ok (es', s') ∧ es = e :: es' := by
  rw [compileOperands] at compiled
  obtain ⟨⟨⟨e, converter⟩, s₁⟩, first, compiled⟩ := bind_eq_ok.mp compiled
  obtain ⟨⟨es', s₂⟩, others, compiled⟩ := bind_eq_ok.mp compiled
  cases compiled
  exact ⟨e, converter, s₁, es', first, others, rfl⟩

theorem compileExpression_ok {t : Operand} {s s' : CompileState} {e : Expression}
    (compiled : compileExpression d scope clause t s = .ok (e, s')) :
    ∃ converter, compileOperand d scope clause t s = .ok ((e, converter), s') := by
  unfold compileExpression at compiled
  obtain ⟨⟨⟨e', converter⟩, s₁⟩, operand, compiled⟩ := bind_eq_ok.mp compiled
  cases compiled
  exact ⟨converter, operand⟩

/-- Only a literal beside an attribute with a converter changes, into a literal for its stored
    form. -/
theorem storedForm_ok {e e' : Expression} {converter : Option Converter}
    (stored : storedForm e converter = .ok e') :
    (e' = e ∧ (converter = none ∨ ∀ l, e ≠ .literal l)) ∨
      ∃ l c v l', e = .literal l ∧ converter = some c ∧ c.toDatabase l.toValue = .ok v ∧
        Literal.ofValue? v = some l' ∧ e' = .literal l' := by
  unfold storedForm at stored
  split at stored
  · next l c =>
    split at stored
    · cases stored
    · next v converted =>
      split at stored
      · next l' literal =>
        cases stored
        exact .inr ⟨l, c, v, l', rfl, rfl, converted, literal, rfl⟩
      · cases stored
  · next changes =>
    cases stored
    refine .inl ⟨rfl, ?_⟩
    cases converter with
    | none => exact .inl rfl
    | some c => exact .inr (fun l isLiteral => changes l c isLiteral rfl)

section Restrictions

variable {s s' : CompileState} {predicate : Predicate}

theorem compileRestriction_compare_ok {left right : Operand} {op : Comparison}
    (compiled : compileRestriction d scope enclosing (.compare left op right) s =
      .ok (predicate, s')) :
    ∃ l leftConverter s₁ r rightConverter l' r',
      compileOperand d scope .restriction left s = .ok ((l, leftConverter), s₁) ∧
      compileOperand d scope .restriction right s₁ = .ok ((r, rightConverter), s') ∧
      storedForm l rightConverter = .ok l' ∧ storedForm r leftConverter = .ok r' ∧
      predicate = .compare l' op r' := by
  rw [compileRestriction] at compiled
  obtain ⟨⟨⟨l, leftConverter⟩, s₁⟩, onLeft, compiled⟩ := bind_eq_ok.mp compiled
  obtain ⟨⟨⟨r, rightConverter⟩, s₂⟩, onRight, compiled⟩ := bind_eq_ok.mp compiled
  obtain ⟨l', storedLeft, compiled⟩ := bind_eq_ok.mp compiled
  obtain ⟨r', storedRight, compiled⟩ := bind_eq_ok.mp compiled
  cases compiled
  exact ⟨l, leftConverter, s₁, r, rightConverter, l', r', onLeft, onRight, storedLeft, storedRight,
    rfl⟩

theorem compileRestriction_and_ok {parts : List Restriction}
    (compiled : compileRestriction d scope enclosing (.and parts) s = .ok (predicate, s')) :
    ∃ ps, compileRestrictions d scope enclosing parts s = .ok (ps, s') ∧ predicate = .and ps := by
  rw [compileRestriction] at compiled
  obtain ⟨⟨ps, s₁⟩, each, compiled⟩ := bind_eq_ok.mp compiled
  cases compiled
  exact ⟨ps, each, rfl⟩

theorem compileRestriction_or_ok {parts : List Restriction}
    (compiled : compileRestriction d scope enclosing (.or parts) s = .ok (predicate, s')) :
    ∃ ps, compileRestrictions d scope enclosing parts s = .ok (ps, s') ∧ predicate = .or ps := by
  rw [compileRestriction] at compiled
  obtain ⟨⟨ps, s₁⟩, each, compiled⟩ := bind_eq_ok.mp compiled
  cases compiled
  exact ⟨ps, each, rfl⟩

theorem compileRestriction_not_ok {p : Restriction}
    (compiled : compileRestriction d scope enclosing (.not p) s = .ok (predicate, s')) :
    ∃ inner, compileRestriction d scope enclosing p s = .ok (inner, s') ∧
      predicate = .not inner := by
  rw [compileRestriction] at compiled
  obtain ⟨⟨inner, s₁⟩, negated, compiled⟩ := bind_eq_ok.mp compiled
  cases compiled
  exact ⟨inner, negated, rfl⟩

theorem compileRestriction_isNull_ok {t : Operand} {negated : Bool}
    (compiled : compileRestriction d scope enclosing (.isNull t negated) s =
      .ok (predicate, s')) :
    ∃ e, compileExpression d scope .restriction t s = .ok (e, s') ∧
      predicate = .isNull e negated := by
  rw [compileRestriction] at compiled
  obtain ⟨⟨e, s₁⟩, operand, compiled⟩ := bind_eq_ok.mp compiled
  cases compiled
  exact ⟨e, operand, rfl⟩

theorem compileRestriction_like_ok {t pattern : Operand} {negated : Bool}
    (compiled : compileRestriction d scope enclosing (.like t pattern negated) s =
      .ok (predicate, s')) :
    ∃ e s₁ pat, compileOperand d scope .restriction t s = .ok ((e, none), s₁) ∧
      compileExpression d scope .restriction pattern s₁ = .ok (pat, s') ∧
      predicate = .like e pat negated := by
  rw [compileRestriction] at compiled
  obtain ⟨⟨⟨e, converter⟩, s₁⟩, operand, compiled⟩ := bind_eq_ok.mp compiled
  obtain ⟨⟨pat, s₂⟩, matched, compiled⟩ := bind_eq_ok.mp compiled
  cases converter with
  | some c => cases compiled
  | none =>
      cases compiled
      exact ⟨e, s₁, pat, operand, matched, rfl⟩

theorem compileRestriction_existsQuery_ok {query : QueryOf Restriction} {negated : Bool}
    (compiled : compileRestriction d scope enclosing (.existsQuery query negated) s =
      .ok (predicate, s')) :
    ∃ inner s₁,
      compileBlock d scope (.restriction :: enclosing) query s.muted = .ok (inner, s₁) ∧
      predicate = .existsQuery inner.block negated ∧
      s' = s₁.unmuted s.announcements.nextGuard := by
  rw [compileRestriction] at compiled
  obtain ⟨⟨inner, s₁⟩, block, compiled⟩ := bind_eq_ok.mp compiled
  cases compiled
  exact ⟨inner, s₁, block, rfl, rfl⟩

theorem compileRestriction_inQuery_ok {t : Operand} {query : QueryOf Restriction} {negated : Bool}
    (compiled : compileRestriction d scope enclosing (.inQuery t query negated) s =
      .ok (predicate, s')) :
    ∃ e s₁ inner s₂, compileExpression d scope .restriction t s = .ok (e, s₁) ∧
      compileBlock d scope (.restriction :: enclosing) query s₁.muted = .ok (inner, s₂) ∧
      predicate = .inQuery e inner.block negated ∧
      s' = s₂.unmuted s₁.announcements.nextGuard := by
  rw [compileRestriction] at compiled
  obtain ⟨⟨e, s₁⟩, operand, compiled⟩ := bind_eq_ok.mp compiled
  obtain ⟨⟨inner, s₂⟩, block, compiled⟩ := bind_eq_ok.mp compiled
  cases compiled
  exact ⟨e, s₁, inner, s₂, operand, block, rfl, rfl⟩

theorem compileRestrictions_cons_ok {p : Restriction} {rest : List Restriction}
    {predicates : List Predicate}
    (compiled : compileRestrictions d scope enclosing (p :: rest) s = .ok (predicates, s')) :
    ∃ first s₁ others, compileRestriction d scope enclosing p s = .ok (first, s₁) ∧
      compileRestrictions d scope enclosing rest s₁ = .ok (others, s') ∧
      predicates = first :: others := by
  rw [compileRestrictions] at compiled
  obtain ⟨⟨first, s₁⟩, one, compiled⟩ := bind_eq_ok.mp compiled
  obtain ⟨⟨others, s₂⟩, each, compiled⟩ := bind_eq_ok.mp compiled
  cases compiled
  exact ⟨first, s₁, others, one, each, rfl⟩

theorem compileOptional_some_ok {p : Restriction} {restriction : Option Predicate}
    (compiled : compileOptional d scope enclosing (some p) s = .ok (restriction, s')) :
    ∃ inner, compileRestriction d scope enclosing p s = .ok (inner, s') ∧
      restriction = some inner := by
  rw [compileOptional] at compiled
  obtain ⟨⟨inner, s₁⟩, one, compiled⟩ := bind_eq_ok.mp compiled
  cases compiled
  exact ⟨inner, one, rfl⟩

end Restrictions

section Selections

variable {st st' : SelectState} {table : TableRef} {path : AttributePath}

theorem selectLeaf_basic_ok {a : BasicAttribute} {field : ResultField}
    (selected : selectLeaf d table path (.basic a) st = .ok (field, st')) :
    ∃ converter, d.registry.converterFor a = .ok converter ∧
      field = ⟨path, (st.resolver.resolve (.ref (columnOf d.registry table a)) a.kind).1.index,
        converter⟩ ∧
      st' = { st with
        resolver := (st.resolver.resolve (.ref (columnOf d.registry table a)) a.kind).2
        state := st.state.referred (columnOf d.registry table a) } := by
  unfold selectLeaf at selected
  obtain ⟨converter, effective, selected⟩ := bind_eq_ok.mp selected
  rw [CompileState.refer_eq] at selected
  cases selected
  exact ⟨converter, Domain.converterFor_eq_ok.mp effective, rfl, rfl⟩

theorem selectLeaf_transient_ok {kind : Kind} {field : ResultField}
    (selected : selectLeaf d table path (.transient kind) st = .ok (field, st')) :
    (∃ slot, st.placeholder = some slot ∧ field = ⟨path, slot.index, none⟩ ∧ st' = st) ∨
      ∃ slot r, st.placeholder = none ∧ st.resolver.placeholder = .ok (slot, r) ∧
        field = ⟨path, slot.index, none⟩ ∧
        st' = { st with resolver := r, placeholder := some slot } := by
  unfold selectLeaf at selected
  cases known : st.placeholder with
  | some slot =>
      simp only [known] at selected
      cases selected
      exact .inl ⟨slot, rfl, rfl, rfl⟩
  | none =>
      simp only [known] at selected
      obtain ⟨⟨slot, r⟩, requested, selected⟩ := bind_eq_ok.mp selected
      cases selected
      exact .inr ⟨slot, r, rfl, requested, rfl, rfl⟩

theorem selectLeaves_cons_ok {leaf : Leaf} {rest : List (AttributePath × Leaf)}
    {fields : List ResultField}
    (selected : selectLeaves d table ((path, leaf) :: rest) st = .ok (fields, st')) :
    ∃ field st₁ others, selectLeaf d table path leaf st = .ok (field, st₁) ∧
      selectLeaves d table rest st₁ = .ok (others, st') ∧ fields = field :: others := by
  rw [selectLeaves] at selected
  obtain ⟨⟨field, st₁⟩, first, selected⟩ := bind_eq_ok.mp selected
  obtain ⟨⟨others, st₂⟩, each, selected⟩ := bind_eq_ok.mp selected
  cases selected
  exact ⟨field, st₁, others, first, each, rfl⟩

/-- A path selects either the leaves of an entity or an embedded value, as one composite, or a
    single leaf. -/
theorem selectPath_ok {path : Path} {aliasName : Option String} {part : ResultPart}
    (selected : selectPath d scope path aliasName st = .ok (part, st')) :
    ∃ binding, scope.resolve? path.aliasName = some binding ∧
      ((path.isEntity = true ∧ ∃ fields,
          selectLeaves d binding.table binding.entity.leaves st = .ok (fields, st') ∧
          part = .composite aliasName fields) ∨
        (path.isEntity = false ∧
          ((∃ attributes fields,
              binding.entity.at? path.attributes = some (.embedded attributes) ∧
              selectLeaves d binding.table (leavesOf attributes) st = .ok (fields, st') ∧
              part = .composite aliasName fields) ∨
            ∃ leaf field, binding.entity.at? path.attributes = some (Leaf.toMapping leaf) ∧
              selectLeaf d binding.table path.attributes leaf st = .ok (field, st') ∧
              part = .basic aliasName field.index field.converter))) := by
  unfold selectPath at selected
  obtain ⟨binding, resolved, selected⟩ := bind_eq_ok.mp selected
  refine ⟨binding, Scope.resolve_eq_ok.mp resolved, ?_⟩
  split at selected
  · next entity =>
    obtain ⟨⟨fields, st₁⟩, leaves, selected⟩ := bind_eq_ok.mp selected
    cases selected
    exact .inl ⟨entity, fields, leaves, rfl⟩
  · next entity =>
    refine .inr ⟨by simpa using entity, ?_⟩
    split at selected
    · cases selected
    · next attributes located =>
      obtain ⟨⟨fields, st₁⟩, leaves, selected⟩ := bind_eq_ok.mp selected
      cases selected
      exact .inl ⟨attributes, fields, located, leaves, rfl⟩
    · next a located =>
      obtain ⟨⟨field, st₁⟩, leaf, selected⟩ := bind_eq_ok.mp selected
      cases selected
      exact .inr ⟨.basic a, field, located, leaf, rfl⟩
    · next kind located =>
      obtain ⟨⟨field, st₁⟩, leaf, selected⟩ := bind_eq_ok.mp selected
      cases selected
      exact .inr ⟨.transient kind, field, located, leaf, rfl⟩

/-- What is selected is either a path or an expression with a slot of its own. -/
theorem selectOne_ok {selection : Selection} {part : ResultPart}
    (selected : selectOne d scope selection st = .ok (part, st')) :
    (∃ path, selection.operand = .ref path ∧
        selectPath d scope path selection.aliasName st = .ok (part, st')) ∨
      ((∀ path, selection.operand ≠ .ref path) ∧ ∃ e s₁,
        compileExpression d scope .select selection.operand st.state = .ok (e, s₁) ∧
        part = .basic selection.aliasName (st.resolver.resolve e (e.kindOr .null)).1.index none ∧
        st' = { st with
          resolver := (st.resolver.resolve e (e.kindOr .null)).2, state := s₁ }) := by
  unfold selectOne at selected
  split at selected
  · next path operand => exact .inl ⟨path, operand, selected⟩
  · next operand =>
    obtain ⟨⟨e, s₁⟩, compiled, selected⟩ := bind_eq_ok.mp selected
    cases selected
    exact .inr ⟨operand, e, s₁, compiled, rfl, rfl⟩

theorem selectEach_cons_ok {selection : Selection} {rest : List Selection}
    {parts : List ResultPart}
    (selected : selectEach d scope (selection :: rest) st = .ok (parts, st')) :
    ∃ part st₁ others, selectOne d scope selection st = .ok (part, st₁) ∧
      selectEach d scope rest st₁ = .ok (others, st') ∧ parts = part :: others := by
  rw [selectEach] at selected
  obtain ⟨⟨part, st₁⟩, first, selected⟩ := bind_eq_ok.mp selected
  obtain ⟨⟨others, st₂⟩, each, selected⟩ := bind_eq_ok.mp selected
  cases selected
  exact ⟨part, st₁, others, first, each, rfl⟩

end Selections

section Blocks

variable {s s' : CompileState}

/-- The operand that an ordering stands for. -/
def orderedOperand (scope : Scope) (selections : List Selection) (t : Operand) : Operand :=
  match t with
  | .ref path =>
      if path.isEntity && (scope.resolve? path.aliasName).isNone then
        match selections.find? (·.aliasName = some path.aliasName) with
        | some selection => selection.operand
        | none => t
      else t
  | t => t

theorem compileOrdering_eq (selections : List Selection) (t : Operand) :
    compileOrdering d scope selections t s =
      compileExpression d scope .order (orderedOperand scope selections t) s := by
  unfold compileOrdering orderedOperand
  cases t with
  | ref path =>
      simp only
      split
      · cases selections.find? (·.aliasName = some path.aliasName) <;> rfl
      · rfl
  | literal l => rfl
  | call name args => rfl

theorem compileOrderings_cons_ok {selections : List Selection} {ordering : OrderBy}
    {rest : List OrderBy} {keys : List SortKey}
    (compiled : compileOrderings d scope selections (ordering :: rest) s = .ok (keys, s')) :
    ∃ e s₁ others,
      compileExpression d scope .order (orderedOperand scope selections ordering.operand) s =
        .ok (e, s₁) ∧
      compileOrderings d scope selections rest s₁ = .ok (others, s') ∧
      keys = ⟨e, ordering.ascending⟩ :: others := by
  rw [compileOrderings] at compiled
  obtain ⟨⟨e, s₁⟩, first, compiled⟩ := bind_eq_ok.mp compiled
  obtain ⟨⟨others, s₂⟩, each, compiled⟩ := bind_eq_ok.mp compiled
  cases compiled
  rw [compileOrdering_eq] at first
  exact ⟨e, s₁, others, first, each, rfl⟩

/-- The table that is given the next alias. -/
def CompileState.newTable (s : CompileState) (config : Config) (e : Entity) : TableRef :=
  ⟨e.table, numberedAlias (aliasStem config.aliasStemLength e.name) (s.tables + 1)⟩

/-- The state after a table was given the next alias. -/
def CompileState.withTable (s : CompileState) : CompileState := { s with tables := s.tables + 1 }

/-- The state after a block was given the next number and its table the next alias. -/
def CompileState.withBlock (s : CompileState) : CompileState :=
  { s with tables := s.tables + 1, blocks := s.blocks + 1 }

def Scope.within (outer : Scope) (aliasName : String) (e : Entity) (table : TableRef) : Scope :=
  [(aliasName, ⟨e, table⟩)] :: outer

def wantedSelections (root : Root) (e : Entity) (enclosing : List Clause)
    (selections : List Selection) : List Selection :=
  if selections.isEmpty then [defaultSelection root e enclosing] else selections

theorem compileBlock_eq {outer : Scope} (root : Root) (selections : List Selection)
    (restriction : Option Restriction) (orderings : List OrderBy) (limit offset : Option Int) :
    compileBlock d outer enclosing ⟨root, selections, restriction, orderings, limit, offset⟩ s =
      if d.config.maxQueryDepth < enclosing.length then
        .error (.queryTooDeep d.config.maxQueryDepth)
      else (do
        let e ← d.entity root.entity
        let (results, st) ←
          selectEach d (outer.within root.aliasName e (s.newTable d.config e))
            (wantedSelections root e enclosing selections)
            (.start s.blocks (s.newTable d.config e) s.withBlock)
        let (predicate, s₁) ←
          compileOptional d (outer.within root.aliasName e (s.newTable d.config e)) enclosing
            restriction st.finish
        let (keys, s') ←
          compileOrderings d (outer.within root.aliasName e (s.newTable d.config e)) selections
            orderings s₁
        .ok
          (⟨{ st.resolver.block with
                restriction := predicate, order := keys, limit := limit, offset := offset },
              results⟩, s')) := by
  rw [compileBlock]
  rfl

theorem compileBlock_ok {outer : Scope} {root : Root} {selections : List Selection}
    {restriction : Option Restriction} {orderings : List OrderBy} {limit offset : Option Int}
    {compiled : CompiledBlock}
    (ok : compileBlock d outer enclosing
      ⟨root, selections, restriction, orderings, limit, offset⟩ s = .ok (compiled, s')) :
    ∃ e results st predicate s₁ keys,
      enclosing.length ≤ d.config.maxQueryDepth ∧
      d.model.entity? root.entity = some e ∧
      selectEach d (outer.within root.aliasName e (s.newTable d.config e))
        (wantedSelections root e enclosing selections)
        (.start s.blocks (s.newTable d.config e) s.withBlock) = .ok (results, st) ∧
      compileOptional d (outer.within root.aliasName e (s.newTable d.config e)) enclosing
        restriction st.finish = .ok (predicate, s₁) ∧
      compileOrderings d (outer.within root.aliasName e (s.newTable d.config e)) selections
        orderings s₁ = .ok (keys, s') ∧
      compiled =
        ⟨{ st.resolver.block with
            restriction := predicate, order := keys, limit := limit, offset := offset },
          results⟩ := by
  rw [compileBlock_eq] at ok
  split at ok
  · cases ok
  · next depth =>
    obtain ⟨e, known, ok⟩ := bind_eq_ok.mp ok
    obtain ⟨⟨results, st⟩, selected, ok⟩ := bind_eq_ok.mp ok
    obtain ⟨⟨predicate, s₁⟩, restricted, ok⟩ := bind_eq_ok.mp ok
    obtain ⟨⟨keys, s₂⟩, ordered, ok⟩ := bind_eq_ok.mp ok
    cases ok
    exact ⟨e, results, st, predicate, s₁, keys, Nat.le_of_not_lt depth,
      Domain.entity_eq_ok.mp known, selected, restricted, ordered, rfl⟩

theorem Query.compile_ok {q : Query} {compiled : CompiledSelect}
    (ok : q.compile d = .ok compiled) :
    ∃ block s, compileBlock d [] [] q .listening = .ok (block, s) ∧
      compiled =
        ⟨block.block, s.announcements.heard.map (·.2), block.results, s.usage⟩ := by
  unfold Query.compile at ok
  obtain ⟨⟨block, s⟩, compiledBlock, ok⟩ := bind_eq_ok.mp ok
  cases ok
  exact ⟨block, s, compiledBlock, rfl⟩

theorem DeleteQuery.compile_ok {q : DeleteQuery} {compiled : CompiledDelete}
    (ok : q.compile d = .ok compiled) :
    ∃ e predicate s, d.model.entity? q.target.entity = some e ∧
      compileOptional d
        (Scope.within [] q.target.aliasName e (CompileState.newTable {} d.config e)) []
        q.restriction (CompileState.withTable {}) = .ok (predicate, s) ∧
      compiled = ⟨⟨CompileState.newTable {} d.config e, predicate⟩, s.usage⟩ := by
  unfold DeleteQuery.compile at ok
  obtain ⟨e, known, ok⟩ := bind_eq_ok.mp ok
  obtain ⟨⟨predicate, s⟩, restricted, ok⟩ := bind_eq_ok.mp ok
  cases ok
  exact ⟨e, predicate, s, Domain.entity_eq_ok.mp known, restricted, rfl⟩

end Blocks

end EntityQuery
