import EntityQuery.Compilation.Usage
import EntityQuery.Conversion.Converter
import EntityQuery.Mapping.Attribute
import EntityQuery.Relational.Block

/-! # Outcomes of compilation

A compiled select statement consists of a query block and of the recipe that makes domain values
from its result rows.
-/

namespace EntityQuery

/-- One leaf of a composite result, and where its value comes from. -/
structure ResultField where
  path : AttributePath
  index : Nat
  converter : Option Converter

/-- How one element of a result row is made from the row buffer. -/
inductive ResultPart where
  | basic (aliasName : Option String) (index : Nat) (converter : Option Converter)
  | composite (aliasName : Option String) (fields : List ResultField)

/-- The name of an element in the result, if it has one. -/
def ResultPart.aliasName? : ResultPart → Option String
  | .basic aliasName _ _ => aliasName
  | .composite aliasName _ => aliasName

/-- A select statement ready to run. -/
structure CompiledSelect where
  block : QueryBlock
  /-- The slots that make up the row buffer, in order. -/
  slots : List Slot
  results : List ResultPart
  usage : ColumnUsage

/-- A delete statement ready to run. -/
structure CompiledDelete where
  statement : DeleteStatement
  usage : ColumnUsage

end EntityQuery
