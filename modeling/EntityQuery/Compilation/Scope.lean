import EntityQuery.Mapping.Entity
import EntityQuery.Relational.Block

/-! # Aliases in scope

The aliases a query block declares, and those of the blocks around it. The innermost declaration of
an alias is the one that counts.
-/

namespace EntityQuery

/-- What an alias stands for: an entity and the table its rows are taken from. -/
structure Binding where
  entity : Entity
  table : TableRef

/-- The declarations of nested blocks, innermost first. -/
abbrev Scope := List (Keyed Binding)

namespace Scope

def resolve? : Scope → String → Option Binding
  | [], _ => none
  | level :: outer, aliasName =>
      match Keyed.get? level aliasName with
      | some binding => some binding
      | none => resolve? outer aliasName

/-- Declare an alias in the innermost block; a second declaration there takes the place of the
    first. -/
def register : Scope → String → Binding → Scope
  | [], aliasName, binding => [[(aliasName, binding)]]
  | level :: outer, aliasName, binding => Keyed.put level aliasName binding :: outer

/-- The scope of a block inside the given ones, with no declarations yet. -/
def enter (outer : Scope) : Scope := [] :: outer

end Scope

end EntityQuery
