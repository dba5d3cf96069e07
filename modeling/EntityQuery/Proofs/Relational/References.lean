import EntityQuery.Relational.Block

/-! # What stands in a compiled statement

The blocks of a statement, each before those inside it, and the columns that it refers to, clause by
clause: the select list, the restriction with the blocks inside it where they stand, and the order.
-/

namespace EntityQuery

/-- A column that a statement refers to, and the aliases of the tables around the place: that of the
    innermost block first. -/
structure Reference where
  scope : List String
  column : Column

def Expression.references (scope : List String) (e : Expression) : List Reference :=
  e.columns.map (⟨scope, ·⟩)

mutual

/-- The blocks in a predicate, outer before inner, from left to right. -/
def Predicate.blocks : Predicate → List QueryBlock
  | .and parts => blocksOfAll parts
  | .or parts => blocksOfAll parts
  | .not p => p.blocks
  | .existsQuery query _ => blocksOfBlock query
  | .inQuery _ query _ => blocksOfBlock query
  | .compare .. | .isNull .. | .like .. | .constant _ => []

def blocksOfAll : List Predicate → List QueryBlock
  | [] => []
  | p :: rest => p.blocks ++ blocksOfAll rest

/-- The block itself and those inside it. -/
def blocksOfBlock : BlockOf Predicate → List QueryBlock
  | ⟨id, table, select, restriction, order, limit, offset⟩ =>
      ⟨id, table, select, restriction, order, limit, offset⟩ :: blocksOfRestriction restriction

def blocksOfRestriction : Option Predicate → List QueryBlock
  | none => []
  | some p => p.blocks

end

/-- A block comes before those inside it. -/
theorem blocksOfBlock_eq (block : QueryBlock) :
    blocksOfBlock block = block :: blocksOfRestriction block.restriction := by
  cases block
  rw [blocksOfBlock]

mutual

/-- What a predicate refers to, from left to right, inside the tables with the given aliases. -/
def Predicate.references (scope : List String) : Predicate → List Reference
  | .and parts => referencesOfAll scope parts
  | .or parts => referencesOfAll scope parts
  | .not p => p.references scope
  | .compare left _ right =>
      Expression.references scope left ++ Expression.references scope right
  | .isNull e _ => Expression.references scope e
  | .like e pattern _ => Expression.references scope e ++ Expression.references scope pattern
  | .existsQuery query _ => referencesOfBlock scope query
  | .inQuery e query _ => Expression.references scope e ++ referencesOfBlock scope query
  | .constant _ => []

def referencesOfAll (scope : List String) : List Predicate → List Reference
  | [] => []
  | p :: rest => p.references scope ++ referencesOfAll scope rest

/-- What a block refers to inside the tables around it: its own table comes before these. -/
def referencesOfBlock (outer : List String) : BlockOf Predicate → List Reference
  | ⟨_, table, select, restriction, order, _, _⟩ =>
      (resultColumns select).flatMap (Expression.references (table.aliasName :: outer)) ++
        (referencesOfRestriction (table.aliasName :: outer) restriction ++
          order.flatMap fun key => Expression.references (table.aliasName :: outer) key.expression)

def referencesOfRestriction (scope : List String) : Option Predicate → List Reference
  | none => []
  | some p => p.references scope

end

/-- The blocks in the restriction of a delete statement. -/
def DeleteStatement.blocks (statement : DeleteStatement) : List QueryBlock :=
  blocksOfRestriction statement.restriction

/-- What a delete statement refers to; its target is the outermost table. -/
def DeleteStatement.references (statement : DeleteStatement) : List Reference :=
  referencesOfRestriction [statement.target.aliasName] statement.restriction

@[simp] theorem Expression.references_columns (scope : List String) (e : Expression) :
    (Expression.references scope e).map (·.column) = e.columns := by
  simp [references, Function.comp_def]

end EntityQuery
