import EntityQuery.Number.Binary64

/-! # Shortest decimals

The decimal with the fewest digits that reads back as a given binary64 number, and among those the
one nearest to it. A decimal reads back exactly when it lies between the two midpoints to the
neighbouring numbers; the midpoints themselves count when the number's significand is even.
-/

namespace EntityQuery

/-- The number `digits * 10 ^ exponent`. -/
structure Decimal where
  digits : Nat
  exponent : Int
  deriving Repr, DecidableEq

/-- What becomes of a number halfway between two decimals. -/
inductive DecimalTie where
  | toEven
  | up
  deriving Repr, DecidableEq

namespace Decimal

/-- `num * 10 ^ exponent / den` as a quotient of natural numbers. -/
def scale (num den : Nat) (exponent : Int) : Nat × Nat :=
  if 0 ≤ exponent then (num * Nat.pow 10 exponent.toNat, den)
  else (num, den * Nat.pow 10 (-exponent).toNat)

/-- Whether `num / den` is at least `10 ^ exponent`. -/
def reaches (num den : Nat) (exponent : Int) : Bool :=
  let (n, d) := scale num den (-exponent)
  decide (d ≤ n)

/-- The decimal exponent of the leading digit of `num / den`, looked for beside its estimate from
    the binary exponent (`30103 / 100000` is close to the logarithm of two). -/
def leadingExponent (num den : Nat) : Int :=
  let estimate := Int.fdiv (((num.log2 : Int) - (den.log2 : Int)) * 30103) 100000
  if reaches num den (estimate + 2) then estimate + 2
  else if reaches num den (estimate + 1) then estimate + 1
  else if reaches num den estimate then estimate
  else if reaches num den (estimate - 1) then estimate - 1
  else estimate - 2

/-- The numbers that read back as one binary64 number, as fractions of one denominator. -/
structure ReadingInterval where
  low : Nat
  value : Nat
  high : Nat
  den : Nat
  closed : Bool

/-- The interval of the magnitude `units`, in quarters of a unit. Below a power of two the
    neighbouring number is only half as far. -/
def ReadingInterval.of (units : Nat) : ReadingInterval :=
  let spare := Binary64.spareBits units
  let step := 1 <<< spare
  let below := if 0 < spare ∧ units = 1 <<< (spare + 52) then step else 2 * step
  { low := 4 * units - below
    value := 4 * units
    high := 4 * units + 2 * step
    den := 4 * Binary64.one
    closed := decide (units / step % 2 = 0) }

/-- Whether `digits * 10 ^ exponent` lies in the interval. -/
def ReadingInterval.holds (i : ReadingInterval) (digits : Nat) (exponent : Int) : Bool :=
  let (n, d) := scale digits 1 exponent
  let here := n * i.den
  if i.closed then decide (i.low * d ≤ here ∧ here ≤ i.high * d)
  else decide (i.low * d < here ∧ here < i.high * d)

/-- The decimal on the grid of `10 ^ exponent` that reads back as the number, if there is one: of
    the number's two neighbours on the grid the nearer. -/
def onGrid (tie : DecimalTie) (i : ReadingInterval) (exponent : Int) : Option Decimal :=
  let (n, d) := scale i.value i.den (-exponent)
  let lower := n / d
  let rest := n % d
  let lowerHolds := i.holds lower exponent
  let upperHolds := i.holds (lower + 1) exponent
  let upperNearer :=
    if 2 * rest = d then
      match tie with
      | .toEven => decide (lower % 2 = 1)
      | .up => true
    else decide (d < 2 * rest)
  if lowerHolds && (!upperHolds || !upperNearer) then some ⟨lower, exponent⟩
  else if upperHolds then some ⟨lower + 1, exponent⟩
  else none

/-- The same number without trailing zero digits. -/
def stripZeros : Nat → Decimal → Decimal
  | 0, x => x
  | fuel + 1, x =>
      if x.digits ≠ 0 ∧ x.digits % 10 = 0 then stripZeros fuel ⟨x.digits / 10, x.exponent + 1⟩
      else x

/-- The decimal of fewest digits, at most 17, that reads back as the magnitude `units`. -/
def shortest (tie : DecimalTie) (units : Nat) : Decimal :=
  if units = 0 then ⟨0, 0⟩
  else
    let i := ReadingInterval.of units
    let leading := leadingExponent i.value i.den
    let found := (List.range 17).findSome? fun (n : Nat) => onGrid tie i (leading - (n : Int))
    stripZeros 20 (found.getD ⟨0, 0⟩)

end Decimal

end EntityQuery
