import EntityQuery.Number.Binary64

/-! # Reading numbers

The binary64 number nearest to a decimal text: an optional sign, digits with at most one point
among them, and an optional exponent, or the name of infinity. A text far beyond the range is
decided by its magnitude alone, so that no power of ten is computed for it.
-/

namespace EntityQuery

namespace Binary64.Extended

/-- The number nearest to `digits * 10 ^ exponent`. -/
def ofDecimal (negative : Bool) (digits : Nat) (exponent : Int) : Extended :=
  let size := exponent + ((toString digits).length : Int)
  if digits = 0 ∨ size < -400 then .finite ⟨negative, 0⟩
  else if 400 < size then .infinite negative
  else if 0 ≤ exponent then ofQuotient negative (digits * Nat.pow 10 exponent.toNat * one) 1
  else ofQuotient negative (digits * one) (Nat.pow 10 (-exponent).toNat)

/-- The value of a run of decimal digits, continuing from `start`. -/
def digitsValue (start : Nat) (digits : List Char) : Nat :=
  digits.foldl (fun n c => 10 * n + (c.toNat - '0'.toNat)) start

/-- Split a sign off a text; the flag tells whether it is a minus. -/
def splitSign : List Char → Bool × List Char
  | '-' :: rest => (true, rest)
  | '+' :: rest => (false, rest)
  | rest => (false, rest)

/-- What follows the digits: nothing, or an exponent with at least one digit. -/
def exponent? : List Char → Option Int
  | [] => some 0
  | c :: rest =>
      if c = 'e' ∨ c = 'E' then
        let (negative, digits) := splitSign rest
        if digits.isEmpty || !digits.all Char.isDigit then none
        else
          let n : Int := (digitsValue 0 digits : Nat)
          some (if negative then -n else n)
      else none

/-- The number a text without sign stands for. -/
def unsigned? (negative : Bool) (text : List Char) : Option Extended :=
  let whole := text.takeWhile Char.isDigit
  let afterWhole := text.dropWhile Char.isDigit
  let (fraction, rest) :=
    match afterWhole with
    | '.' :: r => (r.takeWhile Char.isDigit, r.dropWhile Char.isDigit)
    | r => ([], r)
  if whole.isEmpty && fraction.isEmpty then none
  else
    (exponent? rest).map fun e =>
      ofDecimal negative (digitsValue (digitsValue 0 whole) fraction) (e - (fraction.length : Int))

/-- The binary64 number a text stands for, correctly rounded. -/
def ofText? (text : String) : Option Extended :=
  let (negative, rest) := splitSign text.toList
  let name := (String.ofList rest).toLower
  if name = "inf" ∨ name = "infinity" then some (.infinite negative)
  else unsigned? negative rest

end Binary64.Extended

end EntityQuery
