/-! # Binary64 numbers

Every finite binary64 number is a whole number of units of `2^-1074` with at most 53 significant
bits. Counting in those units makes order and equality questions about integers, and makes every
rounding one function on a quotient of natural numbers.
-/

namespace EntityQuery

/-- A finite binary64 number: a sign, which zero has too, and a magnitude in units of `2^-1074`. -/
structure Binary64 where
  negative : Bool
  units : Nat
  deriving Repr, DecidableEq

namespace Binary64

/-- The number one in units. -/
def one : Nat := 1 <<< 1074

/-- The least magnitude in units that lies beyond the finite numbers. -/
def overflow : Nat := 1 <<< 2098

/-- How many low bits of `n` lie below its 53 significant ones. -/
def spareBits (n : Nat) : Nat := n.log2 + 1 - 53

/-- The whole number nearest to `num / den`; a tie goes to the even one. -/
def nearestEven (num den : Nat) : Nat :=
  let rest := num % den
  if 2 * rest < den then num / den
  else if den < 2 * rest then num / den + 1
  else num / den + num / den % 2

/-- The number of 53 significant bits nearest to `num / den`; a tie goes to the even one. -/
def roundQuotient (num den : Nat) : Nat :=
  let spare := spareBits (num / den)
  nearestEven num (den <<< spare) <<< spare

/-- The signed number of units: two numbers are equal, or in order, exactly when these are. -/
def signed (x : Binary64) : Int :=
  if x.negative then -(x.units : Int) else (x.units : Int)

/-- The number nearest to an integer of at most 1023 bits. -/
def ofInt (i : Int) : Binary64 := ⟨decide (i < 0), roundQuotient (i.natAbs * one) 1⟩

def abs (x : Binary64) : Binary64 := { x with negative := false }

/-- The nearest integer; a tie goes away from zero. -/
def roundHalfAway (x : Binary64) : Int :=
  let magnitude : Int := ((2 * x.units + one) / (2 * one) : Nat)
  if x.negative then -magnitude else magnitude

/-- The results of arithmetic: the finite numbers and the two infinities. -/
inductive Extended where
  | finite (x : Binary64)
  | infinite (negative : Bool)
  deriving Repr, DecidableEq

namespace Extended

/-- The number nearest to `num / den` units, an infinity from `overflow` on. -/
def ofQuotient (negative : Bool) (num den : Nat) : Extended :=
  let units := roundQuotient num den
  if units < overflow then .finite ⟨negative, units⟩ else .infinite negative

def ofNat (n : Nat) : Extended := ofQuotient false (n * one) 1

def isNegative : Extended → Bool
  | .finite x => x.negative
  | .infinite negative => negative

def neg : Extended → Extended
  | .finite x => .finite { x with negative := !x.negative }
  | .infinite negative => .infinite !negative

/-- The product, which zero and an infinity do not have. -/
def mul? : Extended → Extended → Option Extended
  | .finite x, .finite y => some (ofQuotient (x.negative != y.negative) (x.units * y.units) one)
  | .finite x, .infinite s | .infinite s, .finite x =>
      if x.units = 0 then none else some (.infinite (x.negative != s))
  | .infinite s, .infinite t => some (.infinite (s != t))

/-- The quotient, which zero over zero and infinity over infinity do not have. -/
def div? : Extended → Extended → Option Extended
  | .finite x, .finite y =>
      if y.units ≠ 0 then
        some (ofQuotient (x.negative != y.negative) (x.units * one) y.units)
      else if x.units ≠ 0 then some (.infinite (x.negative != y.negative))
      else none
  | .finite x, .infinite s => some (.finite ⟨x.negative != s, 0⟩)
  | .infinite s, .finite y => some (.infinite (s != y.negative))
  | .infinite _, .infinite _ => none

/-- The same number without the sign of a zero, which comparison does not see. -/
def unsignedZero : Extended → Extended
  | .finite x => .finite (if x.units = 0 then ⟨false, 0⟩ else x)
  | .infinite negative => .infinite negative

/-- Rounded to the nearest integer, a tie away from zero, and kept within 64 signed bits. -/
def toInt64 : Extended → Int
  | .finite x => max (-0x8000000000000000) (min 0x7fffffffffffffff x.roundHalfAway)
  | .infinite negative => if negative then -0x8000000000000000 else 0x7fffffffffffffff

/-- The product of two positive numbers. -/
private def timesPositive (x y : Extended) : Extended := (x.mul? y).getD (.infinite false)

/-- Ten to a power below `2^32`, multiplied up by repeated squaring from the lowest bit of the
    exponent and rounded after every product. -/
def tenToNat (exponent : Nat) : Extended :=
  ((List.range 32).foldl
    (fun (product, square) bit =>
      (if exponent.testBit bit then timesPositive product square else product,
        timesPositive square square))
    (ofNat 1, ofNat 10)).1

/-- Ten to an integer power; a negative power is the reciprocal of the positive one. -/
def tenTo (exponent : Int) : Extended :=
  let power := tenToNat exponent.natAbs
  if exponent < 0 then ((ofNat 1).div? power).getD (.infinite false) else power

end Extended

end Binary64

end EntityQuery
