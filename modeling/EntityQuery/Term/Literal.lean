import EntityQuery.Number.Layout
import EntityQuery.Value.Basic

/-! # Literals

The constants that statements hold. Unlike values they include the infinities, which read as null,
and exclude lists, objects and integers beyond 64 signed bits.
-/

namespace EntityQuery

inductive Literal where
  | string (s : String)
  | int (i : Int)
  | float (x : Binary64.Extended)
  | bool (b : Bool)
  | null
  deriving Repr, DecidableEq

namespace Literal

def kind : Literal → Kind
  | .string _ => .string
  | .int _ => .int
  | .float _ => .float
  | .bool _ => .bool
  | .null => .null

def toValue : Literal → Value
  | .string s => .string s
  | .int i => .int i
  | .float x => .ofExtended x
  | .bool b => .bool b
  | .null => .null

/-- The literal for a value. Lists and objects have none; an integer beyond 64 signed bits becomes
    the nearest float. -/
def ofValue? : Value → Option Literal
  | .null => some .null
  | .bool b => some (.bool b)
  | .int i =>
      match (Value.int i).toInt64? with
      | some j => some (.int j)
      | none => some (.float (.finite (Binary64.ofInt i)))
  | .float x => some (.float (.finite x))
  | .string s => some (.string s)
  | .array _ | .object _ => none

/-- The literal by which slots are recognised: zero has no sign. -/
def identity : Literal → Literal
  | .float x => .float x.unsignedZero
  | l => l

def render : Literal → String
  | .string s => "'" ++ s ++ "'"
  | .int i => toString i
  | .float x => NumberLayout.plain.writeExtended x
  | .bool b => if b then "true" else "false"
  | .null => "NULL"

/-- The literal as it is shown to a developer. -/
def describe (l : Literal) : String :=
  match l with
  | .null => "Null"
  | _ => l.kind.name ++ "(" ++ l.render ++ ")"

end Literal

end EntityQuery
