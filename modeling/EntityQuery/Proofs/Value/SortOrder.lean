import EntityQuery.Value.Order
import Mathlib.Order.Compare

/-! # The sort order is an order

Values are sorted by the rank of their kind and then by a number or a text: two values that are not
null compare as these keys do. So the sort order is a total preorder in either direction, and nulls
come behind all others in both.
-/

namespace EntityQuery

namespace Value

open Std

/-- What values of one rank are sorted by, where that is a number. -/
def sortNumber (v : Value) : Int :=
  match v with
  | .bool b => if b then 1 else 0
  | v => v.magnitude?.getD 0

/-- What values of one rank are sorted by, where that is a text. -/
def sortText : Value → String
  | .string s => s
  | .array items => render (.array items)
  | .object fields => render (.object fields)
  | _ => ""

/-- The order by ranks, then by numbers, then by texts. -/
def compareKeys : Value → Value → Ordering :=
  compareLex (compareOn sortRank) (compareLex (compareOn sortNumber) (compareOn sortText))

theorem compare_bool (a b : Bool) :
    compare a b = compare (if a then (1 : Int) else 0) (if b then 1 else 0) := by
  cases a <;> cases b <;> rfl

theorem sortOrder_of_rank_ne {a b : Value} (differ : a.sortRank ≠ b.sortRank) :
    sortOrder a b = compare a.sortRank b.sortRank := by
  cases a <;> cases b <;> simp_all [sortOrder, sortRank, magnitude?, toBinary64?]

theorem sortOrder_of_rank_eq {a b : Value} (same : a.sortRank = b.sortRank) :
    sortOrder a b =
      (compare a.sortNumber b.sortNumber).then (compare a.sortText b.sortText) := by
  cases a with
  | bool x => cases b <;> simp_all [sortOrder, sortRank, sortNumber, sortText, compare_bool]
  | int i | float x =>
      cases b <;> simp_all [sortOrder, sortRank, sortNumber, sortText, magnitude?, toBinary64?]
  | null | string s | array items | object fields =>
      cases b <;>
        simp_all [sortOrder, sortRank, sortNumber, sortText, magnitude?, toBinary64?]

theorem sortOrder_eq_compareKeys : sortOrder = compareKeys := by
  funext a b
  unfold compareKeys compareLex compareOn
  by_cases same : a.sortRank = b.sortRank
  · have ranks : compare b.sortRank b.sortRank = .eq := ReflCmp.compare_self
    rw [sortOrder_of_rank_eq same, same, ranks]
    rfl
  · rw [sortOrder_of_rank_ne same]
    cases ranks : compare a.sortRank b.sortRank with
    | eq => exact absurd (LawfulEqCmp.eq_of_compare ranks) same
    | lt | gt => rfl

instance : TransCmp sortOrder := by
  rw [sortOrder_eq_compareKeys]
  exact inferInstanceAs (TransCmp (compareLex (compareOn sortRank) _))

/-- The sort order of values that are not null, in either direction. -/
def directed (ascending : Bool) (a b : Value) : Ordering :=
  if ascending then sortOrder a b else sortOrder b a

instance (ascending : Bool) : TransCmp (directed ascending) := by
  cases ascending with
  | true => exact inferInstanceAs (TransCmp sortOrder)
  | false => exact inferInstanceAs (TransCmp (flip sortOrder))

theorem eq_null {v : Value} (null : v.isNull = true) : v = .null := by
  cases v with
  | null => rfl
  | bool b | int i | float x | string s | array items | object fields => cases null

/-- Nulls come last, and the direction is for all others. -/
theorem sortCompare_eq (ascending : Bool) :
    sortCompare ascending = compareLex (compareOn isNull) (directed ascending) := by
  funext a b
  have reversed : (sortOrder a b).swap = sortOrder b a := OrientedCmp.eq_swap.symm
  simp only [sortCompare, compareLex, compareOn, directed, reversed]
  cases left : a.isNull <;> cases right : b.isNull
  · rfl
  · rfl
  · rfl
  · rw [eq_null left, eq_null right]
    cases ascending <;> rfl

instance (ascending : Bool) : TransCmp (sortCompare ascending) := by
  rw [sortCompare_eq]
  infer_instance

/-- Null comes behind every other value in both directions. -/
theorem sortCompare_null (ascending : Bool) {v : Value} (not_null : v.isNull = false) :
    sortCompare ascending v .null = .lt ∧ sortCompare ascending .null v = .gt := by
  have null : Value.null.isNull = true := rfl
  simp only [sortCompare, not_null, null, and_self]

/-- Apart from nulls, the one direction is the other one reversed. -/
theorem sortCompare_descending {a b : Value} (left : a.isNull = false) (right : b.isNull = false) :
    sortCompare false a b = (sortCompare true a b).swap := by
  simp only [sortCompare, left, right, Bool.false_eq_true, if_false, if_true]

end Value

end EntityQuery
