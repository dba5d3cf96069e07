import EntityQuery.Query.Path
import EntityQuery.Term.Basic
import EntityQuery.Value.Order

/-! # Statements over entities

Queries and delete statements as the application writes them: over entities and attribute paths,
knowing nothing of tables and columns.
-/

namespace EntityQuery

abbrev Operand := Term Path

/-- An entity in a statement, with the alias it goes by there. -/
structure Root where
  entity : String
  aliasName : String
  deriving Repr, DecidableEq

/-- Something to select, and the name it is given in the result. -/
structure Selection where
  operand : Operand
  aliasName : Option String := none

structure OrderBy where
  operand : Operand
  ascending : Bool

/-- One block of a query over entities, with restrictions of type `π`. Nothing selected means the
    root entity. -/
structure QueryOf (π : Type) where
  root : Root
  selections : List Selection := []
  restriction : Option π := none
  orderings : List OrderBy := []
  limit : Option Int := none
  offset : Option Int := none

inductive Restriction where
  | compare (left : Operand) (op : Comparison) (right : Operand)
  | and (parts : List Restriction)
  | or (parts : List Restriction)
  | not (p : Restriction)
  | isNull (e : Operand) (negated : Bool)
  | like (e pattern : Operand) (negated : Bool)
  | existsQuery (query : QueryOf Restriction) (negated : Bool)
  /-- Whether a value is among those that a query selects first. -/
  | inQuery (e : Operand) (query : QueryOf Restriction) (negated : Bool)

abbrev Query := QueryOf Restriction

structure DeleteQuery where
  target : Root
  restriction : Option Restriction := none

end EntityQuery
