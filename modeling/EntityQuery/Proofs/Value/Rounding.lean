import EntityQuery.Proofs.Value.Agreement
import EntityQuery.Proofs.Value.Exactness
import Mathlib.Algebra.Group.Int.Defs

/-! # How comparisons see integers

Rounding to the nearest binary64 number keeps the order of integers and moves an integer of 64 bits
by `2^10` at most. So comparisons never see two integers the wrong way round, but may see two
neighbours beyond `2^53` as one number.
-/

namespace EntityQuery

namespace Binary64

theorem nearestEven_cases (num den : Nat) :
    nearestEven num den = num / den ∧ 2 * (num % den) ≤ den ∨
      nearestEven num den = num / den + 1 ∧ den ≤ 2 * (num % den) := by
  simp only [nearestEven]
  split
  · exact .inl ⟨rfl, by omega⟩
  · split
    · exact .inr ⟨rfl, by omega⟩
    · rcases Nat.mod_two_eq_zero_or_one (num / den) with even | odd
      · exact .inl ⟨by omega, by omega⟩
      · exact .inr ⟨by omega, by omega⟩

/-- Numbers with the same whole part round in the order of their rests. -/
theorem nearestEven_mono {num num' den : Nat} (ordered : num ≤ num') :
    nearestEven num den ≤ nearestEven num' den := by
  rcases Nat.lt_or_eq_of_le (Nat.div_le_div_right (c := den) ordered) with less | same
  · have above : nearestEven num den ≤ num / den + 1 := by
      rcases nearestEven_cases num den with ⟨down, -⟩ | ⟨up, -⟩ <;> omega
    exact Nat.le_trans above (Nat.le_trans less (div_le_nearestEven num' den))
  · have rests : num % den ≤ num' % den := by
      have split := Nat.div_add_mod num den
      have split' := Nat.div_add_mod num' den
      rw [same] at split
      omega
    simp only [nearestEven, same]
    split_ifs <;> omega

/-- Rounding moves a number by half of the step at most. -/
theorem nearestEven_near (num : Nat) {den : Nat} (positive : 0 < den) :
    2 * num ≤ 2 * (nearestEven num den * den) + den ∧
      2 * (nearestEven num den * den) ≤ 2 * num + den := by
  have split := Nat.div_add_mod' num den
  rcases nearestEven_cases num den with ⟨down, within⟩ | ⟨up, within⟩
  · rw [down]
    omega
  · rw [up, Nat.add_one_mul (num / den) den]
    have below := Nat.mod_lt num positive
    omega

theorem log2_mono {num num' : Nat} (ordered : num ≤ num') : num.log2 ≤ num'.log2 := by
  by_cases zero : num = 0
  · rw [zero]
    exact Nat.zero_le _
  · have nonzero : num' ≠ 0 := by omega
    exact (Nat.le_log2 nonzero).mpr (Nat.le_trans (Nat.log2_self_le zero) ordered)

/-- Rounding does not go beyond a power of two. -/
theorem roundQuotient_le_two_pow {num k : Nat} (below : num < 2 ^ k) :
    roundQuotient num 1 ≤ 2 ^ k := by
  have within : spareBits num ≤ k := by
    by_cases zero : num = 0
    · rw [zero]
      exact Nat.zero_le k
    · have := (Nat.log2_lt zero).mpr below
      unfold spareBits
      omega
  have positive := Nat.two_pow_pos (spareBits num)
  have divides : 2 ^ spareBits num ∣ 2 ^ k := Nat.pow_dvd_pow 2 within
  calc roundQuotient num 1 = nearestEven num (2 ^ spareBits num) * 2 ^ spareBits num :=
        roundQuotient_one num
    _ ≤ nearestEven (2 ^ k) (2 ^ spareBits num) * 2 ^ spareBits num :=
        Nat.mul_le_mul_right _ (nearestEven_mono (Nat.le_of_lt below))
    _ = 2 ^ k := by rw [nearestEven_of_dvd positive divides, Nat.div_mul_cancel divides]

/-- Rounding keeps the order: with equally many spare bits by the steps between, and otherwise
    because there is a power of two between the two numbers. -/
theorem roundQuotient_mono {num num' : Nat} (ordered : num ≤ num') :
    roundQuotient num 1 ≤ roundQuotient num' 1 := by
  have logs := log2_mono ordered
  by_cases same : spareBits num = spareBits num'
  · rw [roundQuotient_one, roundQuotient_one, same]
    exact Nat.mul_le_mul_right _ (nearestEven_mono ordered)
  · have shorter : num.log2 + 1 ≤ num'.log2 := by
      unfold spareBits at same
      omega
    have nonzero : num' ≠ 0 := by
      rintro rfl
      exact absurd shorter (Nat.not_succ_le_zero _)
    calc roundQuotient num 1 ≤ 2 ^ (num.log2 + 1) := roundQuotient_le_two_pow Nat.lt_log2_self
      _ ≤ roundQuotient num' 1 := two_pow_le_roundQuotient ((Nat.le_log2 nonzero).mp shorter)

/-- Rounding moves an integer of 64 bits by `2^10` at most. -/
theorem roundQuotient_near {n : Nat} (bounded : n ≤ 2 ^ 64 - 1) :
    n * one ≤ roundQuotient (n * one) 1 + 2 ^ 10 * one ∧
      roundQuotient (n * one) 1 ≤ n * one + 2 ^ 10 * one := by
  have below : n < 2 ^ 64 := by omega
  have step : 2 ^ spareBits (n * one) ≤ 2 * (2 ^ 10 * one) := by
    calc 2 ^ spareBits (n * one) ≤ 2 ^ (fractionBits + 11) :=
          Nat.pow_le_pow_right Nat.two_pos (spareBits_integer below)
      _ = 2 * (2 ^ 10 * one) := by
          rw [Nat.pow_add, ← one_eq]
          omega
  have near := nearestEven_near (n * one) (Nat.two_pow_pos (spareBits (n * one)))
  rw [← roundQuotient_one] at near
  omega

/-- What comparisons see of an integer, in units of `2^-1074`. -/
def seen (i : Int) : Int := (ofInt i).signed

theorem seen_natCast (n : Nat) : seen n = roundQuotient (n * one) 1 := by
  have sign : ¬ (n : Int) < 0 := by omega
  simp [seen, ofInt, signed, sign]

theorem seen_neg (i : Int) : seen (-i) = -seen i := by
  unfold seen ofInt signed
  rw [Int.natAbs_neg]
  rcases Int.lt_trichotomy i 0 with negative | rfl | positive
  · have sign : ¬ -i < 0 := by omega
    rw [decide_eq_true negative, decide_eq_false sign, if_pos rfl, if_neg Bool.false_ne_true,
      Int.neg_neg]
  · rfl
  · have sign : -i < 0 := by omega
    have sign' : ¬ i < 0 := by omega
    rw [decide_eq_true sign, decide_eq_false sign', if_pos rfl, if_neg Bool.false_ne_true]

/-- Comparisons never see a smaller integer as a larger number. -/
theorem seen_mono {m n : Int} (ordered : m ≤ n) : seen m ≤ seen n := by
  have naturals : ∀ k l : Nat, k ≤ l → seen k ≤ seen l := by
    intro k l ordered
    rw [seen_natCast, seen_natCast]
    exact Int.ofNat_le.mpr (roundQuotient_mono (Nat.mul_le_mul_right one ordered))
  have natural : ∀ k : Nat, 0 ≤ seen k := fun k => by
    rw [seen_natCast]
    exact Int.natCast_nonneg _
  obtain ⟨k, rfl | rfl⟩ := m.eq_nat_or_neg
  · obtain ⟨l, rfl | rfl⟩ := n.eq_nat_or_neg
    · exact naturals k l (Int.ofNat_le.mp ordered)
    · obtain rfl : k = 0 := by omega
      obtain rfl : l = 0 := by omega
      exact Int.le_refl _
  · obtain ⟨l, rfl | rfl⟩ := n.eq_nat_or_neg
    · rw [seen_neg]
      exact Int.le_trans (Int.neg_nonpos_of_nonneg (natural k)) (natural l)
    · rw [seen_neg, seen_neg]
      exact Int.neg_le_neg (naturals l k (by omega))

/-- Comparisons see an integer of 64 bits moved by `2^10` at most. -/
theorem seen_near {i : Int} (bounded : i.natAbs ≤ 2 ^ 64 - 1) :
    i * one ≤ seen i + 2 ^ 10 * one ∧ seen i ≤ i * one + 2 ^ 10 * one := by
  obtain ⟨k, rfl | rfl⟩ := i.eq_nat_or_neg
  · rw [Int.natAbs_natCast] at bounded
    have near := roundQuotient_near bounded
    rw [seen_natCast]
    omega
  · rw [Int.natAbs_neg, Int.natAbs_natCast] at bounded
    have near := roundQuotient_near bounded
    rw [seen_neg, seen_natCast, Int.neg_mul]
    omega

/-- Two integers that comparisons see as one number are no more than `2^11` apart. -/
theorem distance_of_seen_eq {m n : Int} (left : m.natAbs ≤ 2 ^ 64 - 1)
    (right : n.natAbs ≤ 2 ^ 64 - 1) (alike : seen m = seen n) : m - n ≤ 2 ^ 11 := by
  have nearLeft := (seen_near left).1
  have nearRight := (seen_near right).2
  have units : (m - n) * one ≤ 2 ^ 11 * (one : Int) := by
    rw [Int.sub_mul]
    omega
  exact Int.le_of_mul_le_mul_right units (Int.natCast_pos.mpr one_pos)

end Binary64

/-- The relation of integers that the operator stands for. -/
def Comparison.Relates : Comparison → Int → Int → Prop
  | .eq, m, n => m = n
  | .ne, m, n => m ≠ n
  | .lt, m, n => m < n
  | .le, m, n => m ≤ n
  | .gt, m, n => m > n
  | .ge, m, n => m ≥ n

namespace Comparison

theorem accepts_compare (op : Comparison) (m n : Int) :
    op.accepts (compare m n) = true ↔ op.Relates m n := by
  have less : compare m n = .lt ↔ m < n := Int.compare_eq_lt
  have equal : compare m n = .eq ↔ m = n := Int.compare_eq_eq
  have greater : compare m n = .gt ↔ m > n := Int.compare_eq_gt
  cases op <;> simp [accepts, Relates, less, equal, greater]

instance (op : Comparison) (m n : Int) : Decidable (op.Relates m n) :=
  decidable_of_iff _ (op.accepts_compare m n)

theorem accepts_eq_decide (op : Comparison) (m n : Int) :
    op.accepts (compare m n) = decide (op.Relates m n) :=
  Bool.eq_iff_iff.mpr ((op.accepts_compare m n).trans decide_eq_true_iff.symm)

end Comparison

namespace Value

open Binary64

/-- Comparisons see the two integers as different numbers, or the two are one. -/
def Discerned (m n : Int) : Prop := seen m = seen n → m = n

instance (m n : Int) : Decidable (Discerned m n) := inferInstanceAs (Decidable (_ → _))

/-- All comparisons judge the two values as the integers that they are. -/
structure ComparedExactly (m n : Int) : Prop where
  operators : ∀ op, compareTruth (.int m) op (.int n) = .ofBool (op.Relates m n)
  same : same (.int m) (.int n) = true ↔ m = n
  ascending : sortCompare true (.int m) (.int n) = compare m n
  descending : sortCompare false (.int m) (.int n) = compare n m

theorem compareTruth_seen (op : Comparison) (m n : Int) :
    compareTruth (.int m) op (.int n) = .ofBool (op.accepts (compare (seen m) (seen n))) := rfl

theorem sortCompare_seen (m n : Int) :
    sortCompare true (.int m) (.int n) = compare (seen m) (seen n) := rfl

theorem same_seen {m n : Int} : same (.int m) (.int n) = true ↔ seen m = seen n :=
  same_numbers rfl rfl

/-- What is seen of two integers is in their order, unless it is equal. -/
theorem compare_seen (m n : Int) :
    compare (seen m) (seen n) = .eq ∨ compare (seen m) (seen n) = compare m n := by
  rcases Int.lt_trichotomy m n with less | rfl | greater
  · rcases Int.lt_or_eq_of_le (seen_mono (Int.le_of_lt less)) with below | alike
    · exact .inr ((Int.compare_eq_lt.mpr below).trans (Int.compare_eq_lt.mpr less).symm)
    · exact .inl (Int.compare_eq_eq.mpr alike)
  · exact .inl (Int.compare_eq_eq.mpr rfl)
  · rcases Int.lt_or_eq_of_le (seen_mono (Int.le_of_lt greater)) with below | alike
    · exact .inr ((Int.compare_eq_gt.mpr below).trans (Int.compare_eq_gt.mpr greater).symm)
    · exact .inl (Int.compare_eq_eq.mpr alike.symm)

theorem compare_discerned {m n : Int} (discerned : Discerned m n) :
    compare (seen m) (seen n) = compare m n := by
  rcases compare_seen m n with alike | ordered
  · rw [alike, discerned (Int.compare_eq_eq.mp alike)]
    exact (Int.compare_eq_eq.mpr rfl).symm
  · exact ordered

/-- The comparisons are exact for the integers that they tell apart, and for no others. -/
theorem comparedExactly_iff {m n : Int} : ComparedExactly m n ↔ Discerned m n := by
  constructor
  · intro exact' alike
    exact exact'.same.mp (same_seen.mpr alike)
  · intro discerned
    have ordered := compare_discerned discerned
    refine ⟨fun op => ?_, ?_, (sortCompare_seen m n).trans ordered, ?_⟩
    · rw [compareTruth_seen, ordered, op.accepts_eq_decide]
    · rw [same_seen]
      exact ⟨discerned, congrArg seen⟩
    · rw [sortCompare_descending rfl rfl, sortCompare_seen, ordered]
      exact Std.OrientedCmp.eq_swap.symm

/-- An operator that is false of equals holds for integers that it relates only. -/
theorem relates_of_holds {op : Comparison} {m n : Int} (strict : op.accepts .eq = false)
    (holds : compareTruth (.int m) op (.int n) = .holds) : op.Relates m n := by
  rw [compareTruth_seen, holds_ofBool] at holds
  rcases compare_seen m n with alike | ordered
  · rw [alike, strict] at holds
    cases holds
  · rw [ordered] at holds
    exact (op.accepts_compare m n).mp holds

/-- An operator that is true of equals holds for all integers that it relates. -/
theorem holds_of_relates {op : Comparison} {m n : Int} (loose : op.accepts .eq = true)
    (relates : op.Relates m n) : compareTruth (.int m) op (.int n) = .holds := by
  rw [compareTruth_seen, holds_ofBool]
  rcases compare_seen m n with alike | ordered
  · rw [alike, loose]
  · rw [ordered]
    exact (op.accepts_compare m n).mpr relates

/-- What a test of two integers by an operator is worth: it is right where comparisons tell them
    apart, and elsewhere it takes them for equal. So it never takes the smaller for the larger one. -/
structure Verdict (op : Comparison) (m n : Int) (holds : Prop) : Prop where
  exact : Discerned m n → (holds ↔ op.Relates m n)
  elsewhere : ¬ Discerned m n → (holds ↔ op.accepts .eq = true)
  strict : op.accepts .eq = false → holds → op.Relates m n
  loose : op.accepts .eq = true → op.Relates m n → holds

theorem verdict (op : Comparison) (m n : Int) :
    Verdict op m n (compareTruth (.int m) op (.int n) = .holds) where
  exact := fun discerned => by
    rw [(comparedExactly_iff.mpr discerned).operators, holds_ofBool, decide_eq_true_iff]
  elsewhere := fun taken => by
    have alike : seen m = seen n := (Decidable.not_imp_iff_and_not.mp taken).1
    rw [compareTruth_seen, holds_ofBool, Int.compare_eq_eq.mpr alike]
  strict := relates_of_holds
  loose := holds_of_relates

/-- One below `2^53` in size is told apart from all others. -/
theorem discerned_of_small {m n : Int} (small : m.natAbs < 2 ^ 53 ∨ n.natAbs < 2 ^ 53) :
    Discerned m n := by
  have told : ∀ {m n : Int}, n.natAbs < 2 ^ 53 → Discerned m n := by
    intro m n small alike
    have apart : (int n).toldApart = true := decide_eq_true small
    exact equals_int.mp ((same_iff_equals apart).mp (same_seen.mpr alike))
  rcases small with left | right
  · exact fun alike => (told left alike.symm).symm
  · exact told right

/-- Two of 64 bits are told apart if they are more than `2^11` from each other. -/
theorem discerned_of_distant {m n : Int} (left : m.natAbs ≤ 2 ^ 64 - 1)
    (right : n.natAbs ≤ 2 ^ 64 - 1) (distant : 2 ^ 11 < (m - n).natAbs) : Discerned m n := by
  intro alike
  have above := distance_of_seen_eq left right alike
  have below := distance_of_seen_eq right left alike.symm
  omega

/-- The bound is met: both are halfway from the same number to its neighbours. -/
example : ¬ Discerned (2 ^ 63 + 3 * 2 ^ 10) (2 ^ 63 + 5 * 2 ^ 10) := by decide +kernel

end Value

end EntityQuery
