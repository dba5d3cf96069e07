/-! # Three-valued logic

The truth values of predicates over data with missing values.
-/

namespace EntityQuery

/-- True, false, or not known because a value is missing or cannot be compared. -/
inductive Truth where
  | holds
  | fails
  | unknown
  deriving Repr, DecidableEq

namespace Truth

def ofBool (b : Bool) : Truth := if b then .holds else .fails

def not : Truth → Truth
  | .holds => .fails
  | .fails => .holds
  | .unknown => .unknown

/-- False wins over unknown, unknown over true. -/
def and : Truth → Truth → Truth
  | .fails, _ | _, .fails => .fails
  | .unknown, _ | _, .unknown => .unknown
  | .holds, .holds => .holds

/-- True wins over unknown, unknown over false. -/
def or : Truth → Truth → Truth
  | .holds, _ | _, .holds => .holds
  | .unknown, _ | _, .unknown => .unknown
  | .fails, .fails => .fails

def isTrue : Truth → Bool
  | .holds => true
  | _ => false

/-- The truth, or its negation where a predicate is written with NOT. -/
def negateIf (negated : Bool) (t : Truth) : Truth := if negated then t.not else t

def name : Truth → String
  | .holds => "True"
  | .fails => "False"
  | .unknown => "Unknown"

/-- The truth value as it is shown to a developer. -/
def describe (t : Truth) : String := "Truth(" ++ t.name ++ ")"

end Truth

end EntityQuery
