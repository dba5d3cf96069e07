import EntityQuery.Text.Quoted
import EntityQuery.Value.Printer

/-! # Converters

A converter takes values of an attribute between the form the application works with and the form
its column holds. Null stands for itself on both sides. Besides the converters given here an
application may bring its own.
-/

namespace EntityQuery

/-- A value that a converter rejected, and why. -/
structure ConversionError where
  converter : String
  value : Value
  reason : String
  deriving DecidableEq

def ConversionError.message (e : ConversionError) : String :=
  "ConversionError[" ++ e.converter ++ "]: " ++ e.reason ++ " (value: " ++ e.value.render ++ ")"

/-- A pair of conversions between the domain form and the stored form of an attribute. -/
structure Converter where
  name : String
  domainKind : Kind
  storedKind : Kind
  toDatabase : Value → Except ConversionError Value
  toDomain : Value → Except ConversionError Value

namespace Converter

/-- Booleans stored as the integers 0 and 1. -/
def booleanInt : Converter where
  name := "boolean_int"
  domainKind := .bool
  storedKind := .int
  toDatabase
    | .null => .ok .null
    | .bool b => .ok (.int (if b then 1 else 0))
    | v => .error ⟨"boolean_int", v, "expecting a boolean"⟩
  toDomain
    | .null => .ok .null
    | .int 0 => .ok (.bool false)
    | .int 1 => .ok (.bool true)
    | v => .error ⟨"boolean_int", v,
        "unexpected boolean numeric; expecting null, 0 or 1, but found " ++ v.render⟩

/-- The power of ten for a scale, a natural number of 32 bits of which the upper half stands for
    negative scales. -/
def scaleFactor (scale : Nat) : Binary64.Extended :=
  Binary64.Extended.tenTo (Int.bmod scale 0x100000000)

/-- A number times the factor as an integer of 64 bits, zero where there is no product. -/
def scaleUp (factor : Binary64.Extended) (x : Binary64) : Int :=
  match (Binary64.Extended.finite x).mul? factor with
  | some product => product.toInt64
  | none => 0

/-- An integer divided by the factor, null where there is no finite quotient. -/
def scaleDown (factor : Binary64.Extended) (i : Int) : Value :=
  match (Binary64.Extended.finite (Binary64.ofInt i)).div? factor with
  | some quotient => .ofExtended quotient
  | none => .null

/-- Decimal numbers stored as integers, multiplied by ten to the power of the scale and rounded. -/
def scaled (scale : Nat) : Converter where
  name := "scaled_number"
  domainKind := .float
  storedKind := .int
  toDatabase v :=
    match v with
    | .null => .ok .null
    | v =>
        match v.toBinary64? with
        | some x => .ok (.int (scaleUp (scaleFactor scale) x))
        | none => .error ⟨"scaled_number", v, "expecting a number"⟩
  toDomain v :=
    match v with
    | .null => .ok .null
    | .int i =>
        match (Value.int i).toInt64? with
        | some j => .ok (scaleDown (scaleFactor scale) j)
        | none => .error ⟨"scaled_number", .int i, "expecting an integer column value"⟩
    | .float x => .error ⟨"scaled_number", .float x, "expecting an integer column value"⟩
    | v => .error ⟨"scaled_number", v, "expecting a number"⟩

/-- The stored code and the domain name of every value, in the order in which the codes were first
    given. -/
abbrev CodeTable := Keyed String

namespace CodeTable

/-- The first code with the name. -/
def codeOf? (table : CodeTable) (name : String) : Option String :=
  (table.find? (·.2 = name)).map (·.1)

/-- The table that results from giving codes their names one after the other. -/
def ofPairs (pairs : List (String × String)) : CodeTable :=
  pairs.foldl (fun table pair => Keyed.put table pair.1 pair.2) []

end CodeTable

/-- Names stored as the codes of a table. -/
def coded (name : String) (table : CodeTable) : Converter where
  name := name
  domainKind := .string
  storedKind := .string
  toDatabase
    | .null => .ok .null
    | .string s =>
        match table.codeOf? s with
        | some code => .ok (.string code)
        | none => .error ⟨name, .string s, "unknown value '" ++ s ++ "'"⟩
    | v => .error ⟨name, v, "expecting a string"⟩
  toDomain
    | .null => .ok .null
    | .string s =>
        match Keyed.get? table s with
        | some n => .ok (.string n)
        | none => .error ⟨name, .string s,
            "unexpected code '" ++ s ++ "'; expecting one of "
              ++ Text.quoteList (Keyed.names table)⟩
    | v => .error ⟨name, v, "expecting a string code"⟩

end Converter

end EntityQuery
