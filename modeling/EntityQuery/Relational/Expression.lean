import EntityQuery.Term.Evaluation
import EntityQuery.Term.Typing

/-! # Column expressions

The value expressions of compiled statements: terms over the columns of tables. Rows under
evaluation hold the columns of several tables, each under its qualified name.
-/

namespace EntityQuery

/-- A column of a table in a statement, qualified by the alias of the table there. -/
structure Column where
  qualifier : String
  column : String
  /-- The kind of the values as stored. -/
  kind : Kind
  deriving Repr, DecidableEq

/-- The name of a column of a table that goes by `aliasName` in a statement. -/
def qualifiedName (aliasName column : String) : String := aliasName ++ "." ++ column

/-- The name under which a row holds the column. -/
def Column.rowKey (c : Column) : String := qualifiedName c.qualifier c.column

/-- A value expression of a compiled statement. -/
abbrev Expression := Term Column

namespace Expression

/-- A reference to a column. -/
def column (qualifier column : String) (kind : Kind) : Expression := .ref ⟨qualifier, column, kind⟩

/-- A call of a function, whose name does not depend on the case of ASCII letters. -/
def function (name : String) (args : List Expression) : Expression := .call name.toLower args

/-- The columns of an expression from left to right, repeated ones included. -/
def columns (e : Expression) : List Column := e.refs

/-- Whether two expressions are the same one, in which zeros have no sign. -/
def same (a b : Expression) : Bool := decide (a.identity = b.identity)

def render (e : Expression) : String := Term.render Column.rowKey e

/-- The kind of an expression, `fallback` where nothing better is known. -/
def kindOr (fallback : Kind) (e : Expression) : Kind := Term.kindOr Column.kind fallback e

/-- The value of an expression on a row; columns that the row lacks are null. -/
def eval (row : Fields) (e : Expression) : Value :=
  Term.eval (fun c => (Keyed.get? row c.rowKey).getD .null) e

end Expression

end EntityQuery
