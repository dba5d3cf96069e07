import EntityQuery.Text.Pattern
import EntityQuery.Truth
import EntityQuery.Value.Printer

/-! # Comparing values

Three comparisons of values: the comparison operators with their three-valued answers, the equality
that recognises a value among others, and the order in which sorting puts values. All of them see a
number as its nearest binary64 number, whatever its kind.
-/

namespace EntityQuery

inductive Comparison where
  | eq
  | ne
  | lt
  | le
  | gt
  | ge
  deriving Repr, DecidableEq

/-- Whether two things in the given order satisfy the operator. -/
def Comparison.accepts : Comparison → Ordering → Bool
  | .eq, o => o == .eq
  | .ne, o => o != .eq
  | .lt, o => o == .lt
  | .le, o => o != .gt
  | .gt, o => o == .gt
  | .ge, o => o != .lt

namespace Value

/-- The number a comparison sees, in units of `2^-1074`. -/
def magnitude? (v : Value) : Option Int := v.toBinary64?.map Binary64.signed

/-- The order of two values for an operator. Booleans are equal or not, but neither precedes the
    other; values of different kinds, lists and objects have no order. -/
def orderFor (op : Comparison) : Value → Value → Option Ordering
  | .string a, .string b => some (compare a b)
  | .bool a, .bool b => if op = .eq ∨ op = .ne then some (compare a b) else none
  | a, b =>
      match a.magnitude?, b.magnitude? with
      | some x, some y => some (compare x y)
      | _, _ => none

/-- The truth of a comparison, unknown for null and for values without an order. -/
def compareTruth (a : Value) (op : Comparison) (b : Value) : Truth :=
  match orderFor op a b with
  | some o => .ofBool (op.accepts o)
  | none => .unknown

/-- The truth of a text being matched by a pattern, unknown unless both are strings. -/
def likeTruth : Value → Value → Truth
  | .string s, .string pattern => .ofBool (Text.matchesPattern s pattern)
  | _, _ => .unknown

/-- Whether two values are the same one: numbers by what a comparison sees, null like null. Lists
    and objects equal nothing. -/
def same : Value → Value → Bool
  | .null, .null => true
  | .bool a, .bool b => a == b
  | .string a, .string b => a == b
  | a, b =>
      match a.magnitude?, b.magnitude? with
      | some x, some y => x == y
      | _, _ => false

/-- The place of a kind in the sort order. -/
def sortRank : Value → Nat
  | .null => 0
  | .bool _ => 1
  | .int _ | .float _ => 2
  | .string _ => 3
  | .array _ => 4
  | .object _ => 5

/-- The sort order of two values that are not null: by kind, then by value; lists and objects by
    their text. -/
def sortOrder : Value → Value → Ordering
  | .bool a, .bool b => compare a b
  | .string a, .string b => compare a b
  | .array a, .array b => compare (render (.array a)) (render (.array b))
  | .object a, .object b => compare (render (.object a)) (render (.object b))
  | a, b =>
      match a.magnitude?, b.magnitude? with
      | some x, some y => compare x y
      | _, _ => compare a.sortRank b.sortRank

/-- The sort order in either direction; nulls come last in both. -/
def sortCompare (ascending : Bool) (a b : Value) : Ordering :=
  match a.isNull, b.isNull with
  | true, true => .eq
  | true, false => .gt
  | false, true => .lt
  | false, false => if ascending then sortOrder a b else (sortOrder a b).swap

end Value

end EntityQuery
