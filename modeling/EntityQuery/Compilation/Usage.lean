import EntityQuery.Relational.Expression

/-! # Column usage

The columns that a statement refers to, by the alias of their table, each once and in the order of
the first reference.
-/

namespace EntityQuery

/-- The columns referred to, by table alias. -/
abbrev ColumnUsage := Keyed (List String)

namespace ColumnUsage

/-- The columns of a table that are referred to, if there are any. -/
def columnsOf? (usage : ColumnUsage) (aliasName : String) : Option (List String) :=
  Keyed.get? usage aliasName

def recordColumn (usage : ColumnUsage) (c : Column) : ColumnUsage :=
  let known := (usage.columnsOf? c.qualifier).getD []
  if c.column ∈ known then usage else Keyed.put usage c.qualifier (known ++ [c.column])

def record (usage : ColumnUsage) (e : Expression) : ColumnUsage :=
  e.columns.foldl recordColumn usage

end ColumnUsage

end EntityQuery
