import EntityQuery.Proofs.Meaning.Membership
import EntityQuery.Proofs.Value.Negation

/-! # Membership and equality

Asking whether a value is among others is asking whether it equals the first, or the second, and so
on, as long as it can be compared with each of them. A candidate that it cannot be compared with
leaves the equality open; membership takes the two for different.
-/

namespace EntityQuery

/-- Nothing is null and no candidate equals the value, but one of them cannot be compared with
    it. -/
structure Value.LeftOpen (v : Value) (candidates : List Value) : Prop where
  value_present : v.isNull = false
  present : ∀ c ∈ candidates, c.isNull = false
  unequal : .holds ∉ candidates.map (compareTruth v .eq)
  incomparable : .unknown ∈ candidates.map (compareTruth v .eq)

section Candidates

variable {v : Value} {candidates : List Value}

theorem Value.compareTruth_null {a b : Value} (null : a.isNull = true ∨ b.isNull = true)
    (op : Comparison) : compareTruth a op b = .unknown := by
  cases a <;> cases b <;> simp_all [isNull, compareTruth, orderFor, magnitude?, toBinary64?]

/-- A value is among others exactly if it equals one of them. -/
theorem inValues_holds_iff_equal :
    inValues v candidates = .holds ↔ .holds ∈ candidates.map (Value.compareTruth v .eq) := by
  rw [inValues_holds_iff, List.mem_map]
  refine exists_congr fun c => and_congr_right fun _ => ?_
  cases null : c.isNull with
  | false => simp [Value.eq_holds_iff_same null]
  | true => simp [Value.compareTruth_null (.inr null)]

/-- Where nothing equals the value, membership is false unless the value or a candidate is null. -/
theorem inValues_of_unequal (unequal : inValues v candidates ≠ .holds) :
    inValues v candidates =
      if candidates ≠ [] ∧ (v.isNull = true ∨ ∃ c ∈ candidates, c.isNull = true) then .unknown
      else .fails := by
  have none : ¬ (candidates.any fun c => !c.isNull && v.same c) = true :=
    fun found => unequal (if_pos found)
  rw [inValues, if_neg none]
  cases candidates with
  | nil => simp
  | cons c rest => simp [or_comm]

/-- Where a null is met, equality is left open as well. -/
theorem unknown_of_null (some : candidates ≠ [])
    (null : v.isNull = true ∨ ∃ c ∈ candidates, c.isNull = true) :
    .unknown ∈ candidates.map (Value.compareTruth v .eq) := by
  rcases null with value | ⟨c, inside, candidate⟩
  · obtain ⟨c, inside⟩ := List.exists_mem_of_ne_nil candidates some
    exact List.mem_map.mpr ⟨c, inside, Value.compareTruth_null (.inl value) .eq⟩
  · exact List.mem_map.mpr ⟨c, inside, Value.compareTruth_null (.inr candidate) .eq⟩

theorem inValues_of_leftOpen (leftOpen : v.LeftOpen candidates) :
    inValues v candidates = .fails ∧
      Truth.anyOf (candidates.map (Value.compareTruth v .eq)) = .unknown := by
  constructor
  · rw [inValues_of_unequal (mt inValues_holds_iff_equal.mp leftOpen.unequal), if_neg]
    rintro ⟨-, value | ⟨c, inside, null⟩⟩
    · rw [leftOpen.value_present] at value
      cases value
    · rw [leftOpen.present c inside] at null
      cases null
  · exact Truth.anyOf_unknown.mpr ⟨leftOpen.unequal, leftOpen.incomparable⟩

theorem inValues_of_decided (decided : ¬ v.LeftOpen candidates) :
    inValues v candidates = Truth.anyOf (candidates.map (Value.compareTruth v .eq)) := by
  by_cases equal : .holds ∈ candidates.map (Value.compareTruth v .eq)
  · rw [inValues_holds_iff_equal.mpr equal, Truth.anyOf_holds.mpr equal]
  · rw [inValues_of_unequal (mt inValues_holds_iff_equal.mp equal)]
    split
    · next met => exact (Truth.anyOf_unknown.mpr ⟨equal, unknown_of_null met.1 met.2⟩).symm
    · next unmet =>
      cases any : Truth.anyOf (candidates.map (Value.compareTruth v .eq)) with
      | holds => exact absurd (Truth.anyOf_holds.mp any) equal
      | fails => rfl
      | unknown =>
          have incomparable := (Truth.anyOf_unknown.mp any).2
          have some : candidates ≠ [] := by
            rintro rfl
            cases incomparable
          have noNull := fun null => unmet ⟨some, null⟩
          refine absurd ⟨?_, fun c inside => ?_, equal, incomparable⟩ decided
          · exact Bool.eq_false_iff.mpr fun null => noNull (.inl null)
          · exact Bool.eq_false_iff.mpr fun null => noNull (.inr ⟨c, inside, null⟩)

/-- Membership is the disjunction of the equalities exactly if it does not meet candidates that it
    would have to leave open; then the one is false and the other unknown. -/
theorem inValues_disjunction (v : Value) (candidates : List Value) :
    (inValues v candidates = .anyOf (candidates.map (Value.compareTruth v .eq)) ↔
        ¬ v.LeftOpen candidates) ∧
      ((inValues v candidates).negateIf true =
          .allOf (candidates.map fun c => (Value.compareTruth v .eq c).not) ↔
        ¬ v.LeftOpen candidates) ∧
      (inValues v candidates = .fails ∧
          Truth.anyOf (candidates.map (Value.compareTruth v .eq)) = .unknown ↔
        v.LeftOpen candidates) := by
  have disjunction : inValues v candidates =
      .anyOf (candidates.map (Value.compareTruth v .eq)) ↔ ¬ v.LeftOpen candidates := by
    refine ⟨fun same leftOpen => ?_, inValues_of_decided⟩
    obtain ⟨different, unknown⟩ := inValues_of_leftOpen leftOpen
    rw [different, unknown] at same
    cases same
  refine ⟨disjunction, ?_, ?_, inValues_of_leftOpen⟩
  · have negated : Truth.allOf (candidates.map fun c => (Value.compareTruth v .eq c).not) =
        (Truth.anyOf (candidates.map (Value.compareTruth v .eq))).not := by
      rw [Truth.not_anyOf, List.map_map]
      rfl
    rw [negated, ← disjunction]
    exact Truth.not_inj
  · rintro ⟨different, unknown⟩
    by_contra decided
    rw [inValues_of_decided decided, unknown] at different
    cases different

/-- A number is not among texts, yet whether it equals one of them is unknown. -/
theorem inValues_disjunction_text :
    inValues (.int 1) [.string "Ann"] = .fails ∧
      Truth.anyOf ([.string "Ann"].map (Value.compareTruth (.int 1) .eq)) = .unknown := by
  decide

end Candidates

end EntityQuery
