import EntityQuery.Relational.Slot
import EntityQuery.Value.Order

/-! # Compiled statements

Query blocks, predicates and delete statements over tables. A predicate may hold query blocks, and a
query block holds a predicate.
-/

namespace EntityQuery

/-- A table in a statement, with the alias it goes by there. -/
structure TableRef where
  table : String
  aliasName : String
  deriving Repr, DecidableEq

structure SortKey where
  expression : Expression
  ascending : Bool

/-- One block of a query, with restrictions of type `π`. -/
structure BlockOf (π : Type) where
  /-- The number of the block in its statement; the outermost block has number 0. -/
  id : Nat
  table : TableRef
  select : List Slot := []
  restriction : Option π := none
  order : List SortKey := []
  limit : Option Int := none
  offset : Option Int := none

inductive Predicate where
  | and (parts : List Predicate)
  | or (parts : List Predicate)
  | not (p : Predicate)
  | compare (left : Expression) (op : Comparison) (right : Expression)
  | isNull (e : Expression) (negated : Bool)
  | like (e pattern : Expression) (negated : Bool)
  | existsQuery (query : BlockOf Predicate) (negated : Bool)
  /-- Whether a value is among those in the first column of a query. -/
  | inQuery (e : Expression) (query : BlockOf Predicate) (negated : Bool)
  | constant (t : Truth)

abbrev QueryBlock := BlockOf Predicate

structure DeleteStatement where
  target : TableRef
  restriction : Option Predicate := none

/-- The expressions behind the result columns of a select list, in the order of their numbers. -/
def resultColumns (select : List Slot) : List Expression := select.filterMap Slot.expression?

mutual

/-- The aliases of the blocks in a predicate, outer before inner, from left to right. -/
def Predicate.aliases : Predicate → List String
  | .and parts => aliasesOfAll parts
  | .or parts => aliasesOfAll parts
  | .not p => p.aliases
  | .existsQuery query _ => aliasesOfBlock query
  | .inQuery _ query _ => aliasesOfBlock query
  | .compare .. | .isNull .. | .like .. | .constant _ => []

def aliasesOfAll : List Predicate → List String
  | [] => []
  | p :: rest => p.aliases ++ aliasesOfAll rest

def aliasesOfBlock : BlockOf Predicate → List String
  | ⟨_, table, _, restriction, _, _, _⟩ => table.aliasName :: aliasesOfRestriction restriction

def aliasesOfRestriction : Option Predicate → List String
  | none => []
  | some p => p.aliases

end

end EntityQuery
