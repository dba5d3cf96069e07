import EntityQuery.Compilation.Selection

/-! # Compiling statements

The blocks of a statement compile from the outside in and from left to right: select list,
restriction, order. Blocks are numbered in the order in which they are met, and so are the aliases
of their tables. All of them announce their slots on the one channel of the statement; while a
nested block compiles nobody listens there, for its slots are not read back.
-/

namespace EntityQuery

structure CompiledBlock where
  block : QueryBlock
  results : List ResultPart

/-- The expression to sort by. A bare name that is no alias in scope may be the alias of a
    selection, and then stands for what is selected. -/
def compileOrdering (d : Domain) (scope : Scope) (selections : List Selection) (operand : Operand)
    (s : CompileState) : Except CompileError (Expression × CompileState) :=
  match operand with
  | .ref path =>
      if path.isEntity && (scope.resolve? path.aliasName).isNone then
        match selections.find? (·.aliasName = some path.aliasName) with
        | some selection => compileExpression d scope .order selection.operand s
        | none => compileExpression d scope .order operand s
      else compileExpression d scope .order operand s
  | operand => compileExpression d scope .order operand s

def compileOrderings (d : Domain) (scope : Scope) (selections : List Selection) :
    List OrderBy → CompileState → Except CompileError (List SortKey × CompileState)
  | [], s => .ok ([], s)
  | ordering :: rest, s => do
      let (e, s) ← compileOrdering d scope selections ordering.operand s
      let (keys, s) ← compileOrderings d scope selections rest s
      .ok (⟨e, ordering.ascending⟩ :: keys, s)

mutual

/-- The predicate for a restriction inside the given clauses. -/
def compileRestriction (d : Domain) (scope : Scope) (enclosing : List Clause) :
    Restriction → CompileState → Except CompileError (Predicate × CompileState)
  | .compare left op right, s => do
      let ((left, leftConverter), s) ← compileOperand d scope .restriction left s
      let ((right, rightConverter), s) ← compileOperand d scope .restriction right s
      let left' ← storedForm left rightConverter
      let right' ← storedForm right leftConverter
      .ok (.compare left' op right', s)
  | .and parts, s => do
      let (parts, s) ← compileRestrictions d scope enclosing parts s
      .ok (.and parts, s)
  | .or parts, s => do
      let (parts, s) ← compileRestrictions d scope enclosing parts s
      .ok (.or parts, s)
  | .not p, s => do
      let (p, s) ← compileRestriction d scope enclosing p s
      .ok (.not p, s)
  | .isNull e negated, s => do
      let (e, s) ← compileExpression d scope .restriction e s
      .ok (.isNull e negated, s)
  | .like e pattern negated, s => do
      let ((e, converter), s) ← compileOperand d scope .restriction e s
      let (pattern, s) ← compileExpression d scope .restriction pattern s
      if converter.isSome then .error (.likeOnConverted e)
      else .ok (.like e pattern negated, s)
  | .existsQuery query negated, s => do
      let guard := s.announcements.nextGuard
      let (compiled, s) ← compileBlock d scope (.restriction :: enclosing) query s.muted
      .ok (.existsQuery compiled.block negated, s.unmuted guard)
  | .inQuery e query negated, s => do
      let (e, s) ← compileExpression d scope .restriction e s
      let guard := s.announcements.nextGuard
      let (compiled, s) ← compileBlock d scope (.restriction :: enclosing) query s.muted
      .ok (.inQuery e compiled.block negated, s.unmuted guard)

def compileRestrictions (d : Domain) (scope : Scope) (enclosing : List Clause) :
    List Restriction → CompileState → Except CompileError (List Predicate × CompileState)
  | [], s => .ok ([], s)
  | p :: rest, s => do
      let (p, s) ← compileRestriction d scope enclosing p s
      let (ps, s) ← compileRestrictions d scope enclosing rest s
      .ok (p :: ps, s)

def compileOptional (d : Domain) (scope : Scope) (enclosing : List Clause) :
    Option Restriction → CompileState → Except CompileError (Option Predicate × CompileState)
  | none, s => .ok (none, s)
  | some p, s => do
      let (p, s) ← compileRestriction d scope enclosing p s
      .ok (some p, s)

/-- The block for a query inside the given scope and clauses. -/
def compileBlock (d : Domain) (outer : Scope) (enclosing : List Clause) :
    QueryOf Restriction → CompileState → Except CompileError (CompiledBlock × CompileState)
  | ⟨root, selections, restriction, orderings, limit, offset⟩, s => do
      if d.config.maxQueryDepth < enclosing.length then
        .error (.queryTooDeep d.config.maxQueryDepth)
      else
        let entity ← d.entity root.entity
        let (id, s) := s.nextBlock
        let (table, s) := s.nextTable d.config entity
        let scope := outer.enter.register root.aliasName ⟨entity, table⟩
        let wanted :=
          if selections.isEmpty then [defaultSelection root entity enclosing] else selections
        let (results, st) ← selectEach d scope wanted (.start id table s)
        let (predicate, s) ← compileOptional d scope enclosing restriction st.finish
        let (keys, s) ← compileOrderings d scope selections orderings s
        let block : QueryBlock :=
          { st.resolver.block with
            restriction := predicate, order := keys, limit := limit, offset := offset }
        .ok (⟨block, results⟩, s)

end

def Query.compile (d : Domain) (q : Query) : Except CompileError CompiledSelect := do
  let (compiled, s) ← compileBlock d [] [] q .listening
  .ok ⟨compiled.block, s.announcements.heard.map (·.2), compiled.results, s.usage⟩

/-- Compile a delete statement. Its target counts as the block around the queries in its
    restriction. -/
def DeleteQuery.compile (d : Domain) (q : DeleteQuery) : Except CompileError CompiledDelete := do
  let entity ← d.entity q.target.entity
  let (table, s) := CompileState.nextTable {} d.config entity
  let scope := Scope.register [] q.target.aliasName ⟨entity, table⟩
  let (predicate, s) ← compileOptional d scope [] q.restriction s
  .ok ⟨⟨table, predicate⟩, s.usage⟩

end EntityQuery
