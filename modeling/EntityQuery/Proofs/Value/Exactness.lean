import EntityQuery.Value.Order
import Mathlib.Algebra.Group.Nat.Defs

/-! # Numbers that comparisons see exactly

Comparisons see a number as its nearest binary64 number. Below `2^53` in magnitude an integer is
its own nearest one, and no integer beyond comes down below `2^53`. So a value below that bound is
the same as another one exactly if the two are equal, whatever the other one is.
-/

namespace EntityQuery

namespace Binary64

/-- The binary places of a unit. -/
def fractionBits : Nat := 1074

theorem one_eq : one = 2 ^ fractionBits :=
  (Nat.shiftLeft_eq 1 fractionBits).trans (Nat.one_mul _)

theorem one_pos : 0 < one := by
  rw [one_eq]
  exact Nat.two_pow_pos _

theorem nearestEven_of_dvd {num den : Nat} (positive : 0 < den) (divides : den ∣ num) :
    nearestEven num den = num / den := by
  have rest : num % den = 0 := Nat.mod_eq_zero_of_dvd divides
  simp only [nearestEven, rest, Nat.mul_zero, if_pos positive]

theorem div_le_nearestEven (num den : Nat) : num / den ≤ nearestEven num den := by
  simp only [nearestEven]
  split
  · exact Nat.le_refl _
  · split
    · exact Nat.le_add_right _ _
    · exact Nat.le_add_right _ _

theorem roundQuotient_one (num : Nat) :
    roundQuotient num 1 = nearestEven num (2 ^ spareBits num) * 2 ^ spareBits num := by
  simp only [roundQuotient, Nat.div_one, Nat.shiftLeft_eq, Nat.one_mul]

/-- A number whose spare bits are all zero stays as it is. -/
theorem roundQuotient_of_dvd {num : Nat} (divides : 2 ^ spareBits num ∣ num) :
    roundQuotient num 1 = num := by
  rw [roundQuotient_one, nearestEven_of_dvd (Nat.two_pow_pos _) divides,
    Nat.div_mul_cancel divides]

/-- Rounding does not go below a power of two. -/
theorem two_pow_le_roundQuotient {num k : Nat} (reached : 2 ^ k ≤ num) :
    2 ^ k ≤ roundQuotient num 1 := by
  have nonzero : num ≠ 0 := by
    rintro rfl
    exact absurd reached (Nat.not_le.mpr (Nat.two_pow_pos k))
  have within : spareBits num ≤ num.log2 := by
    unfold spareBits
    omega
  have leading : 2 ^ (num.log2 - spareBits num) ≤ num / 2 ^ spareBits num := by
    rw [Nat.le_div_iff_mul_le (Nat.two_pow_pos _), Nat.pow_sub_mul_pow 2 within]
    exact Nat.log2_self_le nonzero
  calc 2 ^ k ≤ 2 ^ num.log2 :=
        Nat.pow_le_pow_right Nat.two_pos ((Nat.le_log2 nonzero).mpr reached)
    _ = 2 ^ (num.log2 - spareBits num) * 2 ^ spareBits num := (Nat.pow_sub_mul_pow 2 within).symm
    _ ≤ nearestEven num (2 ^ spareBits num) * 2 ^ spareBits num :=
        Nat.mul_le_mul_right _ (Nat.le_trans leading (div_le_nearestEven _ _))
    _ = roundQuotient num 1 := (roundQuotient_one num).symm

/-- Of the bits of an integer, those beyond the first 53 are spare, beside the places of a unit. -/
theorem spareBits_integer {n k : Nat} (below : n < 2 ^ k) :
    spareBits (n * one) ≤ fractionBits + (k - 53) := by
  by_cases zero : n = 0
  · rw [zero, Nat.zero_mul]
    exact Nat.zero_le _
  · have nonzero : n * one ≠ 0 := Nat.mul_ne_zero zero (Nat.ne_of_gt one_pos)
    have size : (n * one).log2 < k + fractionBits := by
      rw [Nat.log2_lt nonzero, Nat.pow_add, ← one_eq]
      exact Nat.mul_lt_mul_of_pos_right below one_pos
    unfold spareBits
    omega

/-- An integer below `2^53` is a binary64 number. -/
theorem roundQuotient_small {n : Nat} (small : n < 2 ^ 53) :
    roundQuotient (n * one) 1 = n * one := by
  apply roundQuotient_of_dvd
  have spare : spareBits (n * one) ≤ fractionBits := spareBits_integer small
  rw [one_eq] at spare ⊢
  exact Nat.dvd_mul_left_of_dvd (Nat.pow_dvd_pow 2 spare) n

/-- No integer from `2^53` on rounds to a number below. -/
theorem le_roundQuotient_large {n : Nat} (large : 2 ^ 53 ≤ n) :
    2 ^ 53 * one ≤ roundQuotient (n * one) 1 := by
  rw [one_eq, ← Nat.pow_add]
  apply two_pow_le_roundQuotient
  rw [Nat.pow_add]
  exact Nat.mul_le_mul_right _ large

theorem signed_natAbs (x : Binary64) : x.signed.natAbs = x.units := by
  unfold signed
  split <;> simp

theorem signed_ofInt_small {i : Int} (small : i.natAbs < 2 ^ 53) :
    (ofInt i).signed = i * (one : Int) := by
  unfold ofInt signed
  rw [roundQuotient_small small]
  by_cases negative : i < 0
  · simp only [negative, decide_true, if_true]
    rw [Int.natCast_mul, ← Int.neg_mul, ← Int.eq_neg_natAbs_of_nonpos (Int.le_of_lt negative)]
  · simp only [negative, decide_false, Bool.false_eq_true, if_false]
    rw [Int.natCast_mul, Int.natAbs_of_nonneg (Int.not_lt.mp negative)]

end Binary64

namespace Value

/-- The number of a value in units of `2^-1074`, before any rounding. -/
def units? : Value → Option Int
  | .int i => some (i * (Binary64.one : Int))
  | .float x => some x.signed
  | _ => none

/-- Equal values: the same number, whether as an integer or a float, or otherwise one value. -/
def Equals (v w : Value) : Prop := v = w ∨ ∃ m, v.units? = some m ∧ w.units? = some m

instance (v w : Value) : Decidable (v.Equals w) :=
  decidable_of_iff (v = w ∨ v.units?.isSome ∧ v.units? = w.units?) <| or_congr_right <| by
    rw [Option.isSome_iff_exists]
    constructor
    · rintro ⟨⟨m, number⟩, alike⟩
      exact ⟨m, number, alike.symm.trans number⟩
    · rintro ⟨m, left, right⟩
      exact ⟨⟨m, left⟩, left.trans right.symm⟩

/-- Whether comparisons tell the value apart from all others: lists and objects they cannot
    recognise, and numbers only below `2^53`. -/
def toldApart : Value → Bool
  | .int i => decide (i.natAbs < 2 ^ 53)
  | .float x => decide (x.units < 2 ^ 53 * Binary64.one)
  | .array _ | .object _ => false
  | .null | .bool _ | .string _ => true

theorem same_numbers {v w : Value} {m n : Int} (left : v.magnitude? = some m)
    (right : w.magnitude? = some n) : v.same w = true ↔ m = n := by
  cases v with
  | int i | float x => cases w <;> simp_all [same, magnitude?, toBinary64?]
  | null | bool b | string s | array items | object fields => cases left

/-- A comparison sees a number below `2^53` as it is, and all others as `2^53` at least. -/
theorem magnitude?_exact {v : Value} {m : Int} (number : v.units? = some m) :
    ∃ n, v.magnitude? = some n ∧
      (n = m ∨ 2 ^ 53 * Binary64.one ≤ n.natAbs ∧ 2 ^ 53 * Binary64.one ≤ m.natAbs) := by
  cases v with
  | float x =>
      cases number
      exact ⟨x.signed, rfl, .inl rfl⟩
  | int i =>
      cases number
      refine ⟨(Binary64.ofInt i).signed, rfl, ?_⟩
      by_cases small : i.natAbs < 2 ^ 53
      · exact .inl (Binary64.signed_ofInt_small small)
      · right
        rw [Binary64.signed_natAbs, Int.natAbs_mul, Int.natAbs_natCast]
        exact ⟨Binary64.le_roundQuotient_large (Nat.not_lt.mp small),
          Nat.mul_le_mul_right _ (Nat.not_lt.mp small)⟩
  | null | bool b | string s | array items | object fields => cases number

theorem toldApart_exact {w : Value} {m : Int} (apart : w.toldApart = true)
    (number : w.units? = some m) : m.natAbs < 2 ^ 53 * Binary64.one := by
  cases w with
  | int i =>
      cases number
      rw [Int.natAbs_mul, Int.natAbs_natCast]
      exact Nat.mul_lt_mul_of_pos_right (decide_eq_true_iff.mp apart) Binary64.one_pos
  | float x =>
      cases number
      rw [Binary64.signed_natAbs]
      exact decide_eq_true_iff.mp apart
  | null | bool b | string s | array items | object fields => cases number

/-- Two numbers of which one is below `2^53` are the same exactly if they are equal. -/
theorem same_numbers_iff {v w : Value} {m n : Int} (left : v.units? = some m)
    (right : w.units? = some n) (apart : w.toldApart = true) : v.same w = true ↔ m = n := by
  obtain ⟨m', seen, exactLeft⟩ := magnitude?_exact left
  obtain ⟨n', seen', exactRight⟩ := magnitude?_exact right
  have small := toldApart_exact apart right
  rw [same_numbers seen seen']
  rcases exactRight with rfl | ⟨-, beyond⟩
  · rcases exactLeft with rfl | ⟨far, far'⟩
    · rfl
    · constructor
      · rintro rfl
        omega
      · rintro rfl
        omega
  · omega

theorem same_not_number {v w : Value} (number : v.units? = none ∨ w.units? = none)
    (apart : w.toldApart = true) : v.same w = true ↔ v = w := by
  cases v <;> cases w <;> simp_all [same, units?, toldApart, magnitude?, toBinary64?]

/-- Every value is the same as one that comparisons tell apart exactly if it equals it. -/
theorem same_iff_equals {v w : Value} (apart : w.toldApart = true) :
    v.same w = true ↔ v.Equals w := by
  unfold Equals
  cases left : v.units? with
  | none => simp [same_not_number (.inl left) apart]
  | some m =>
      cases right : w.units? with
      | none => simp [same_not_number (.inr right) apart]
      | some n =>
          rw [same_numbers_iff left right apart]
          constructor
          · rintro rfl
            exact .inr ⟨m, rfl, rfl⟩
          · rintro (rfl | ⟨k, isLeft, isRight⟩)
            · exact Option.some.inj (left.symm.trans right)
            · exact (Option.some.inj isLeft).trans (Option.some.inj isRight).symm

/-- Lists and objects are not recognised. -/
theorem same_structured {v w : Value} (structured : w.kind = .array ∨ w.kind = .object) :
    v.same w = false := by
  cases v <;> cases w <;> simp_all [same, kind, magnitude?, toBinary64?]

theorem equals_int {i j : Int} : (int i).Equals (.int j) ↔ i = j := by
  have nonzero : (Binary64.one : Int) ≠ 0 := Int.natCast_ne_zero.mpr (Nat.ne_of_gt Binary64.one_pos)
  constructor
  · rintro (same | ⟨m, left, right⟩)
    · exact Value.int.inj same
    · exact Int.eq_of_mul_eq_mul_right nonzero
        ((Option.some.inj left).trans (Option.some.inj right).symm)
  · rintro rfl
    exact .inl rfl

end Value

end EntityQuery
