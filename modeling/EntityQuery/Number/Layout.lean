import EntityQuery.Number.Decimal

/-! # The text of a number

A layout fixes everything about a number's text that its shortest digits leave open. The same
digits are written positionally (`0.001`) or with an exponent (`1e-3`).
-/

namespace EntityQuery

/-- How binary64 numbers are written. -/
structure NumberLayout where
  /-- The exponents of the leading digit for which the text has no exponent. -/
  positional : Int → Bool
  /-- Whether a whole number without an exponent ends in `.0`. -/
  pointZero : Bool
  tie : DecimalTie

namespace NumberLayout

/-- Numbers in JSON text: positional from `1e-5` up to `1e16`, with at least one decimal place. -/
def json : NumberLayout := ⟨fun e => decide (-5 ≤ e ∧ e < 16), true, .toEven⟩

/-- Numbers in statement text: always positional, and whole numbers have no point. -/
def plain : NumberLayout := ⟨fun _ => true, false, .up⟩

private def zeros (n : Nat) : String := String.ofList (List.replicate n '0')

/-- The digits with the point after the one of exponent zero; `leading` is the exponent of the
    first digit. -/
def writePositional (layout : NumberLayout) (digits : List Char) (leading : Int) : String :=
  if leading < 0 then
    "0." ++ zeros (-leading - 1).toNat ++ String.ofList digits
  else
    let whole := leading.toNat + 1
    if digits.length ≤ whole then
      String.ofList digits ++ zeros (whole - digits.length)
        ++ (if layout.pointZero then ".0" else "")
    else
      String.ofList (digits.take whole) ++ "." ++ String.ofList (digits.drop whole)

/-- One digit before the point, the others after it, and the exponent with its sign. -/
def writeScientific (digits : List Char) (leading : Int) : String :=
  let fraction := digits.drop 1
  String.ofList (digits.take 1)
    ++ (if fraction.isEmpty then "" else "." ++ String.ofList fraction)
    ++ "e" ++ (if leading < 0 then "-" else "+") ++ toString leading.natAbs

def writeMagnitude (layout : NumberLayout) (units : Nat) : String :=
  let x := Decimal.shortest layout.tie units
  let digits := (toString x.digits).toList
  let leading := x.exponent + (digits.length : Int) - 1
  if layout.positional leading then layout.writePositional digits leading
  else writeScientific digits leading

def write (layout : NumberLayout) (x : Binary64) : String :=
  (if x.negative then "-" else "") ++ layout.writeMagnitude x.units

/-- The text of a number that may be infinite. -/
def writeExtended (layout : NumberLayout) : Binary64.Extended → String
  | .finite x => layout.write x
  | .infinite negative => if negative then "-inf" else "inf"

end NumberLayout

end EntityQuery
