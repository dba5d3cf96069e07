/-! # Clauses

The parts of a statement.
-/

namespace EntityQuery

/-- The part of a statement that is being built. -/
inductive Clause where
  | select
  | source
  | restriction
  | order
  | limit
  | delete
  | irrelevant
  deriving Repr, DecidableEq

namespace Clause

def keyword : Clause → String
  | .select => "SELECT"
  | .source => "FROM"
  | .restriction => "WHERE"
  | .order => "ORDER BY"
  | .limit => "LIMIT"
  | .delete => "DELETE"
  | .irrelevant => "-"

/-- The clause in one word, as it is shown to a developer. -/
def name : Clause → String
  | .select => "Select"
  | .source => "From"
  | .restriction => "Where"
  | .order => "OrderBy"
  | .limit => "Limit"
  | .delete => "Delete"
  | .irrelevant => "Irrelevant"

end Clause

end EntityQuery
