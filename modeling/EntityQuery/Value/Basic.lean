import EntityQuery.Keyed
import EntityQuery.Number.Binary64
import EntityQuery.Value.Kind

/-! # Values

The values that the application works with and that tables hold: null, booleans, numbers, strings,
and lists and objects of values. Integers lie between `-2^63` and `2^64 - 1`; the fields of an
object stand in ascending order of their names.
-/

namespace EntityQuery

inductive Value where
  | null
  | bool (b : Bool)
  | int (i : Int)
  | float (x : Binary64)
  | string (s : String)
  | array (items : List Value)
  | object (fields : List (String × Value))
  deriving Inhabited

/-- The columns of a stored row, or the fields of an object. -/
abbrev Fields := Keyed Value

namespace Value

def kind : Value → Kind
  | .null => .null
  | .bool _ => .bool
  | .int _ => .int
  | .float _ => .float
  | .string _ => .string
  | .array _ => .array
  | .object _ => .object

def isNull : Value → Bool
  | .null => true
  | _ => false

/-- The integer of a value, if it is one of 64 signed bits. -/
def toInt64? : Value → Option Int
  | .int i => if -0x8000000000000000 ≤ i ∧ i < 0x8000000000000000 then some i else none
  | _ => none

/-- The integer of a value, if it is not negative. -/
def toNat? : Value → Option Nat
  | .int i => if 0 ≤ i then some i.toNat else none
  | _ => none

/-- The binary64 number of a numeric value; an integer is rounded to the nearest one. -/
def toBinary64? : Value → Option Binary64
  | .int i => some (Binary64.ofInt i)
  | .float x => some x
  | _ => none

/-- The value of a float: there is none for infinities, and null stands in. -/
def ofExtended : Binary64.Extended → Value
  | .finite x => .float x
  | .infinite _ => .null

/-- The value of a field, if the value is an object that has it. -/
def field? : Value → String → Option Value
  | .object fields, name => Keyed.get? fields name
  | _, _ => none

/-- The value at a path of field names, null where the path leads nowhere. -/
def atPath (v : Value) (path : List String) : Value :=
  (path.foldlM (fun (v : Value) name => v.field? name) v).getD .null

mutual

def decEq : (a b : Value) → Decidable (a = b)
  | .null, .null => isTrue rfl
  | .bool a, .bool b => decidable_of_iff (a = b) (by simp)
  | .int a, .int b => decidable_of_iff (a = b) (by simp)
  | .float a, .float b => decidable_of_iff (a = b) (by simp)
  | .string a, .string b => decidable_of_iff (a = b) (by simp)
  | .array a, .array b => @decidable_of_iff _ (a = b) (by simp) (decEqItems a b)
  | .object a, .object b => @decidable_of_iff _ (a = b) (by simp) (decEqFields a b)
  | .null, .bool _ | .null, .int _ | .null, .float _ | .null, .string _ | .null, .array _
  | .null, .object _ | .bool _, .null | .bool _, .int _ | .bool _, .float _ | .bool _, .string _
  | .bool _, .array _ | .bool _, .object _ | .int _, .null | .int _, .bool _ | .int _, .float _
  | .int _, .string _ | .int _, .array _ | .int _, .object _ | .float _, .null | .float _, .bool _
  | .float _, .int _ | .float _, .string _ | .float _, .array _ | .float _, .object _
  | .string _, .null | .string _, .bool _ | .string _, .int _ | .string _, .float _
  | .string _, .array _ | .string _, .object _ | .array _, .null | .array _, .bool _
  | .array _, .int _ | .array _, .float _ | .array _, .string _ | .array _, .object _
  | .object _, .null | .object _, .bool _ | .object _, .int _ | .object _, .float _
  | .object _, .string _ | .object _, .array _ => isFalse (by simp)

def decEqItems : (a b : List Value) → Decidable (a = b)
  | [], [] => isTrue rfl
  | [], _ :: _ | _ :: _, [] => isFalse (by simp)
  | x :: a, y :: b =>
      match decEq x y, decEqItems a b with
      | isTrue h, isTrue t => isTrue (by rw [h, t])
      | isFalse h, _ => isFalse (by simp [h])
      | _, isFalse t => isFalse (by simp [t])

def decEqFields : (a b : List (String × Value)) → Decidable (a = b)
  | [], [] => isTrue rfl
  | [], _ :: _ | _ :: _, [] => isFalse (by simp)
  | (m, x) :: a, (n, y) :: b =>
      match decEq x y, decEqFields a b with
      | isTrue h, isTrue t => decidable_of_iff (m = n) (by simp [h, t])
      | isFalse h, _ => isFalse (by simp [h])
      | _, isFalse t => isFalse (by simp [t])

end

instance : DecidableEq Value := decEq

end Value

end EntityQuery
