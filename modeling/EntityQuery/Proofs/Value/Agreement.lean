import EntityQuery.Proofs.Value.Sameness
import EntityQuery.Proofs.Value.SortOrder

/-! # The three comparisons agree

The operators, the equality that recognises a value, and the sort order judge two values alike: what
is equal for the operator is the same, what precedes for the operators comes first when sorted. Where
two values have no order the operators leave open what they say, and nothing is the same.
-/

namespace EntityQuery

namespace Comparison

/-- The operator that says the same of two things the other way round. -/
def mirrored : Comparison → Comparison
  | .eq => .eq
  | .ne => .ne
  | .lt => .gt
  | .le => .ge
  | .gt => .lt
  | .ge => .le

/-- The operator that is true of things in the given order only. -/
def reporting : Ordering → Comparison
  | .lt => .lt
  | .eq => .eq
  | .gt => .gt

theorem accepts_mirrored (op : Comparison) (o : Ordering) :
    op.mirrored.accepts o.swap = op.accepts o := by
  cases op <;> cases o <;> rfl

theorem accepts_reporting (o o' : Ordering) : (reporting o).accepts o' = true ↔ o' = o := by
  cases o <;> cases o' <;> decide

theorem mirrored_equality (op : Comparison) :
    op.mirrored = .eq ∨ op.mirrored = .ne ↔ op = .eq ∨ op = .ne := by
  cases op <;> decide

end Comparison

namespace Value

open Std

/-- Two numbers, or two texts. -/
def Ordered (a b : Value) : Prop :=
  a.kind.isNumeric = true ∧ b.kind.isNumeric = true ∨ a.kind = .string ∧ b.kind = .string

/-- Values of different kinds, numbers of both kinds being of one here, or two lists or objects. -/
def Incomparable (a b : Value) : Prop :=
  (a.kind ≠ b.kind ∧ ¬ (a.kind.isNumeric = true ∧ b.kind.isNumeric = true)) ∨
    (a.kind = .array ∨ a.kind = .object) ∧ (b.kind = .array ∨ b.kind = .object)

theorem holds_ofBool {b : Bool} : Truth.ofBool b = .holds ↔ b = true := by
  cases b <;> decide

theorem orderFor_mirrored (op : Comparison) (a b : Value) :
    orderFor op.mirrored b a = (orderFor op a b).map Ordering.swap := by
  have numbers : ∀ x y : Int, compare y x = (compare x y).swap := fun _ _ => OrientedCmp.eq_swap
  have texts : ∀ s t : String, compare t s = (compare s t).swap := fun _ _ => OrientedCmp.eq_swap
  have bools : ∀ x y : Bool, compare y x = (compare x y).swap := fun _ _ => OrientedCmp.eq_swap
  cases a <;> cases b <;> simp [orderFor, magnitude?, toBinary64?]
  · simp only [Comparison.mirrored_equality]
    split
    · exact congrArg some (bools _ _)
    · rfl
  all_goals first | exact numbers _ _ | exact texts _ _

/-- An operator says of two values what its mirror image says of them the other way round. -/
theorem compareTruth_mirrored (a b : Value) (op : Comparison) :
    compareTruth a op b = compareTruth b op.mirrored a := by
  unfold compareTruth
  rw [orderFor_mirrored]
  cases orderFor op a b with
  | none => rfl
  | some o => simp only [Option.map_some, Comparison.accepts_mirrored]

/-- Numbers and texts have one order, for the operators and for sorting. -/
theorem orderFor_ordered {a b : Value} (ordered : Ordered a b) (op : Comparison) :
    orderFor op a b = some (sortCompare true a b) := by
  unfold Ordered at ordered
  cases a <;> cases b <;>
    simp_all [kind, Kind.isNumeric, orderFor, sortCompare, sortOrder, isNull, magnitude?,
      toBinary64?]

theorem compareTruth_ordered {a b : Value} (ordered : Ordered a b) (op : Comparison) :
    compareTruth a op b = .ofBool (op.accepts (sortCompare true a b)) := by
  simp only [compareTruth, orderFor_ordered ordered]

/-- Exactly one of the operators that ask for a single order is true of numbers and of texts. -/
theorem compareTruth_reporting {a b : Value} (ordered : Ordered a b) (o : Ordering) :
    compareTruth a (.reporting o) b = .holds ↔ sortCompare true a b = o := by
  rw [compareTruth_ordered ordered, holds_ofBool, Comparison.accepts_reporting]

theorem bool_eq_holds_iff_sort (x y : Bool) :
    compareTruth (.bool x) .eq (.bool y) = .holds ↔ sortCompare true (.bool x) (.bool y) = .eq := by
  cases x <;> cases y <;> decide

theorem orderFor_incomparable {a b : Value} (incomparable : Incomparable a b) (op : Comparison) :
    orderFor op a b = none := by
  unfold Incomparable at incomparable
  cases a <;> cases b <;> simp_all [kind, Kind.isNumeric, orderFor, magnitude?, toBinary64?]

theorem same_incomparable {a b : Value} (incomparable : Incomparable a b) : a.same b = false := by
  unfold Incomparable at incomparable
  cases a <;> cases b <;> simp_all [kind, Kind.isNumeric, same, magnitude?, toBinary64?]

/-- For values that are not null: the same is what the operator of equality is true of; operators
    can be mirrored; of numbers and of texts every operator says what the sort order says, so of the
    three that ask for a single order exactly the one is true which sorting reports; booleans are
    equal exactly if they sort alike; and of values without an order no operator says anything. -/
theorem comparisons_agree {a b : Value} (left : a.isNull = false) (right : b.isNull = false) :
    (a.same b = true ↔ compareTruth a .eq b = .holds) ∧
      (∀ op, compareTruth a op b = compareTruth b op.mirrored a) ∧
      (Ordered a b →
        (∀ op, compareTruth a op b = .ofBool (op.accepts (sortCompare true a b))) ∧
        ∀ o, compareTruth a (.reporting o) b = .holds ↔ sortCompare true a b = o) ∧
      (a.kind = .bool → b.kind = .bool →
        (compareTruth a .eq b = .holds ↔ sortCompare true a b = .eq)) ∧
      (Incomparable a b → a.same b = false ∧ ∀ op, compareTruth a op b = .unknown) := by
  refine ⟨(eq_holds_iff_same right).symm, compareTruth_mirrored a b, ?_, ?_, ?_⟩
  · intro ordered
    exact ⟨compareTruth_ordered ordered, compareTruth_reporting ordered⟩
  · intro isBool isBool'
    cases a with
    | bool x =>
        cases b with
        | bool y => exact bool_eq_holds_iff_sort x y
        | null | int i | float y | string s | array items | object fields => cases isBool'
    | null | int i | float x | string s | array items | object fields => cases isBool
  · intro incomparable
    refine ⟨same_incomparable incomparable, ?_⟩
    intro op
    simp only [compareTruth, orderFor_incomparable incomparable]

end Value

namespace Sample

/-- The number `2.5`. -/
def twoAndAHalf : Value := .float ⟨false, 5 <<< 1073⟩

end Sample

/-- An integer and a float are in order for operators and for sorting; a list is not even the same
    as itself. -/
theorem Value.comparisons_agree_mixed :
    sortCompare true (.int 2) Sample.twoAndAHalf = .lt ∧
      compareTruth (.int 2) .lt Sample.twoAndAHalf = .holds ∧
      compareTruth Sample.twoAndAHalf .gt (.int 2) = .holds ∧
      compareTruth (.int 2) .ge Sample.twoAndAHalf = .fails ∧
      same (.array []) (.array []) = false ∧
      compareTruth (.array []) .eq (.array []) = .unknown := by
  have sorted : sortCompare true (.int 2) Sample.twoAndAHalf = .lt := by decide +kernel
  obtain ⟨-, mirrored, ordered, -, -⟩ :=
    @comparisons_agree (.int 2) Sample.twoAndAHalf rfl rfl
  obtain ⟨operators, reported⟩ := ordered (.inl ⟨rfl, rfl⟩)
  have precedes : compareTruth (.int 2) .lt Sample.twoAndAHalf = .holds :=
    (reported .lt).mpr sorted
  obtain ⟨-, -, -, -, incomparable⟩ := @comparisons_agree (.array []) (.array []) rfl rfl
  obtain ⟨different, open'⟩ := incomparable (.inr ⟨.inl rfl, .inl rfl⟩)
  refine ⟨sorted, precedes, ?_, ?_, different, open' .eq⟩
  · exact (mirrored .lt).symm.trans precedes
  · rw [operators, sorted]
    rfl

end EntityQuery
