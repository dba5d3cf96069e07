/-! # Kinds of values

The coarse classification that attributes and columns are declared with.
-/

namespace EntityQuery

/-- What sort of value an attribute or a column holds. -/
inductive Kind where
  | null
  | bool
  | int
  | float
  | string
  | object
  | array
  deriving Repr, DecidableEq

namespace Kind

def name : Kind → String
  | .null => "Null"
  | .bool => "Bool"
  | .int => "Int"
  | .float => "Float"
  | .string => "String"
  | .object => "Object"
  | .array => "Array"

def isNumeric : Kind → Bool
  | .int | .float => true
  | _ => false

/-- A kind for values of either kind: a float for numbers of both sorts, otherwise the first one
    unless it is null. -/
def promote (a b : Kind) : Kind :=
  if a = b then a
  else
    match a, b with
    | .int, .float | .float, .int => .float
    | .null, _ => b
    | _, _ => a

/-- Whether a value of kind `other` may stand where `self` is expected: its own kind, null, and an
    integer where a float is expected. -/
def accepts (self other : Kind) : Bool :=
  self = other || other = .null || (self = .float && other = .int)

end Kind

end EntityQuery
