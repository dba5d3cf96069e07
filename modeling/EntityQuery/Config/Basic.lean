/-! # Options

What an application may choose about the way statements are compiled and run.
-/

namespace EntityQuery

structure Config where
  /-- How deeply queries may nest; the outermost one has depth 0. -/
  maxQueryDepth : Nat := 8
  /-- Whether rows are reduced to the columns that a statement refers to. -/
  pruneColumns : Bool := true
  /-- How many letters of an entity's name open the alias of its table. -/
  aliasStemLength : Nat := 1
  deriving Repr, DecidableEq

end EntityQuery
