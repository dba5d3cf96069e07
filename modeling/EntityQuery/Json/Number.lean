import EntityQuery.Json.Error
import EntityQuery.Number.Reading
import EntityQuery.Value.Basic

/-! # Numbers of JSON

Integers within the range of values stay integers; all other numbers become floats. A float is
computed from the leading digits that fit into 64 bits and from a power of ten, with a rounding at
either step.
-/

namespace EntityQuery

namespace Json

structure NumberText where
  whole : List Char
  fraction : Option (List Char)
  exponent : Option (Bool × List Char)

/-- At least one digit; `atEnd` is the fault of a text that ends before it. -/
def readDigits (atEnd : JsonFault) (cs : List Char) : Except JsonFault (List Char × List Char) :=
  match cs with
  | [] => .error atEnd
  | c :: _ =>
      if c.isDigit then .ok (cs.takeWhile Char.isDigit, cs.dropWhile Char.isDigit)
      else .error .invalidNumber

/-- The digits before the point: there is no second one after a leading zero. -/
def readWhole (atEnd : JsonFault) (cs : List Char) : Except JsonFault (List Char × List Char) := do
  let (digits, rest) ← readDigits atEnd cs
  if digits.head? = some '0' && 1 < digits.length then .error .invalidNumber
  else .ok (digits, rest)

def readFraction (atEnd : JsonFault) (cs : List Char) :
    Except JsonFault (Option (List Char) × List Char) :=
  match cs with
  | '.' :: rest => (readDigits atEnd rest).map fun (digits, rest) => (some digits, rest)
  | _ => .ok (none, cs)

def readExponent (atEnd : JsonFault) (cs : List Char) :
    Except JsonFault (Option (Bool × List Char) × List Char) :=
  match cs with
  | [] => .ok (none, [])
  | c :: rest =>
      if c = 'e' ∨ c = 'E' then
        let (negative, digits) := Binary64.Extended.splitSign rest
        (readDigits atEnd digits).map fun (digits, rest) => (some (negative, digits), rest)
      else .ok (none, cs)

def readNumberText (atEnd : JsonFault) (cs : List Char) :
    Except JsonFault (NumberText × List Char) := do
  let (whole, rest) ← readWhole atEnd cs
  let (fraction, rest) ← readFraction atEnd rest
  let (exponent, rest) ← readExponent atEnd rest
  .ok (⟨whole, fraction, exponent⟩, rest)

/-- Append digits to a number of 64 bits as long as they fit; the count tells how many did. -/
def absorb : Nat → List Char → Nat × Nat
  | significand, [] => (significand, 0)
  | significand, c :: rest =>
      let next := 10 * significand + (c.toNat - '0'.toNat)
      if next < 0x10000000000000000 then
        let (final, count) := absorb next rest
        (final, count + 1)
      else (significand, 0)

/-- The largest power of ten with a finite float. -/
def largestPower : Nat := 308

/-- Multiply a float by ten to a power, at most `largestPower` at a time for negative ones. -/
def scaleByTen : Nat → Binary64.Extended → Int → Except JsonFault Binary64.Extended
  | 0, x, _ => .ok x
  | fuel + 1, x, exponent =>
      let power (n : Nat) := Binary64.Extended.ofDecimal false 1 n
      let isZero := x.unsignedZero = .finite ⟨false, 0⟩
      if exponent.natAbs ≤ largestPower then
        if 0 ≤ exponent then
          match x.mul? (power exponent.natAbs) with
          | some (.finite y) => .ok (.finite y)
          | _ => .error .numberOutOfRange
        else .ok ((x.div? (power exponent.natAbs)).getD x)
      else if isZero then .ok x
      else if 0 ≤ exponent then .error .numberOutOfRange
      else
        scaleByTen fuel ((x.div? (power largestPower)).getD x) (exponent + (largestPower : Int))

/-- The largest exponent that is looked at digit by digit. -/
def largestExponent : Nat := 0x7fffffff

/-- The float with the given digits and sign. -/
def floatOf (negative : Bool) (significand : Nat) (shift : Int)
    (exponent : Option (Bool × List Char)) : Except JsonFault Binary64.Extended :=
  let signed (x : Binary64.Extended) := if negative then x.neg else x
  match exponent with
  | none => (scaleByTen 5 (.ofNat significand) shift).map signed
  | some (down, digits) =>
      let n := Binary64.Extended.digitsValue 0 digits
      if largestExponent < n then
        if significand ≠ 0 ∧ !down then .error .numberOutOfRange
        else .ok (signed (.finite ⟨false, 0⟩))
      else
        let shift := if down then shift - (n : Int) else shift + (n : Int)
        (scaleByTen 5 (.ofNat significand) shift).map signed

def NumberText.toValue (t : NumberText) (negative : Bool) : Except JsonFault Value :=
  let (significand, absorbed) := absorb 0 t.whole
  let dropped := t.whole.length - absorbed
  if dropped = 0 ∧ t.fraction.isNone ∧ t.exponent.isNone then
    if !negative then .ok (.int significand)
    else if significand = 0 ∨ 0x8000000000000000 < significand then
      .ok (.ofExtended (Binary64.Extended.ofNat significand).neg)
    else .ok (.int (-(significand : Int)))
  else
    let (significand, places) := absorb significand (t.fraction.getD [])
    (floatOf negative significand ((dropped : Int) - (places : Int)) t.exponent).map
      Value.ofExtended

/-- The number that starts here, its first character being a minus sign or a digit. -/
def readNumber (cs : List Char) : Except JsonFault (Value × List Char) := do
  let (negative, cs) :=
    match cs with
    | '-' :: rest => (true, rest)
    | rest => (false, rest)
  let (text, rest) ← readNumberText .endInValue cs
  let value ← text.toValue negative
  .ok (value, rest)

/-- Pass over a number. Its size does not matter, and one that ends too early is just invalid. -/
def skipNumber (cs : List Char) : Except JsonFault (List Char) :=
  let cs :=
    match cs with
    | '-' :: rest => rest
    | rest => rest
  (readNumberText .invalidNumber cs).map (·.2)

end Json

end EntityQuery
