import EntityQuery.Term.Basic
import EntityQuery.Text.Blank
import EntityQuery.Text.Case

/-! # Evaluating terms

A term has a value in every environment that gives its references values: functions that do not
apply to their arguments, in number or in kind, give null.
-/

namespace EntityQuery

/-- The absolute value of a number: an integer of 64 signed bits stays one, any other number becomes
    a float. The arithmetic is that of a build without overflow checks, which wraps: the least
    integer has no opposite among 64 signed bits, and is its own absolute value. -/
def Value.absolute (v : Value) : Value :=
  match v.toInt64? with
  | some i => .int (Int64.ofInt i).abs.toInt
  | none =>
      match v.toBinary64? with
      | some x => .float x.abs
      | none => .null

/-- The value of a function, named in lower case, for its arguments. -/
def applyFunction (name : String) (args : List Value) : Value :=
  if name = "coalesce" then (args.find? (!·.isNull)).getD .null
  else
    match args with
    | [.string s] =>
        if name = "upper" then .string (Text.upper s)
        else if name = "lower" then .string (Text.lower s)
        else if name = "trim" then .string (Text.trim s)
        else if name = "length" then .int s.length
        else .null
    | [v] => if name = "abs" then v.absolute else .null
    | _ => .null

namespace Term

variable {ρ : Type}

mutual

/-- The value of a term where `lookup` gives the values of its references. -/
def eval (lookup : ρ → Value) : Term ρ → Value
  | .ref r => lookup r
  | .literal l => l.toValue
  | .call name args => applyFunction name (evalList lookup args)

def evalList (lookup : ρ → Value) : List (Term ρ) → List Value
  | [] => []
  | t :: rest => t.eval lookup :: evalList lookup rest

end

end Term

end EntityQuery
