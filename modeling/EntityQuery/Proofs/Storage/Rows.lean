import EntityQuery.Proofs.Outcome
import EntityQuery.Storage.Execution
import Mathlib.Data.List.Basic

/-! # Rows that pass a test

A test splits the rows of a table. A query keeps the rows that pass, and a delete statement leaves
those that do not: its places are those of the rows that a query would keep.
-/

namespace EntityQuery

/-- Whether a row passes a test that may fail. -/
def passes (test : Row → Except ExecutionError Truth) (row : Row) : Bool :=
  match test row with
  | .ok t => t.isTrue
  | .error _ => false

theorem passes_eq {test : Row → Except ExecutionError Truth} {row : Row} {t : Truth}
    (tested : test row = .ok t) : passes test row = t.isTrue := by
  simp only [passes, tested]

variable {test : Row → Except ExecutionError Truth}

theorem succeeds_of_passes {row : Row} (passed : passes test row = true) : Succeeds (test row) := by
  unfold passes at passed
  cases tested : test row with
  | error failure => simp [tested] at passed
  | ok t => exact succeeds_ok t

/-- Where the test answers for every row, a query keeps the rows that pass. -/
theorem keepRows_ok {rows kept : List Row} (ok : keepRows test rows = .ok kept) :
    (∀ row ∈ rows, Succeeds (test row)) ∧ kept = rows.filter (passes test) := by
  induction rows generalizing kept with
  | nil =>
      cases ok
      simp
  | cons row rest ih =>
      rw [keepRows] at ok
      obtain ⟨t, tested, ok⟩ := bind_eq_ok.mp ok
      obtain ⟨others, later, ok⟩ := bind_eq_ok.mp ok
      obtain ⟨answered, rfl⟩ := ih later
      cases ok
      refine ⟨?_, ?_⟩
      · intro other member
        rcases List.mem_cons.mp member with rfl | inside
        · exact ⟨t, tested⟩
        · exact answered other inside
      · rw [List.filter_cons, passes_eq tested]

theorem keepRows_of_total {rows : List Row} (total : ∀ row ∈ rows, Succeeds (test row)) :
    keepRows test rows = .ok (rows.filter (passes test)) := by
  induction rows with
  | nil => rfl
  | cons row rest ih =>
      obtain ⟨t, tested⟩ := total row List.mem_cons_self
      rw [keepRows, tested, ih fun other inside => total other (List.mem_cons_of_mem _ inside),
        List.filter_cons, passes_eq tested]
      rfl

theorem le_of_mem_matchingPositions {start position : Nat} {rows : List Row} {positions : List Nat}
    (ok : matchingPositions test start rows = .ok positions) (member : position ∈ positions) :
    start ≤ position := by
  induction rows generalizing start positions with
  | nil =>
      cases ok
      cases member
  | cons row rest ih =>
      rw [matchingPositions] at ok
      obtain ⟨t, -, ok⟩ := bind_eq_ok.mp ok
      obtain ⟨later, found, ok⟩ := bind_eq_ok.mp ok
      cases ok
      split at member
      · rcases List.mem_cons.mp member with rfl | inside
        · exact Nat.le_refl _
        · exact Nat.le_of_succ_le (ih found inside)
      · exact Nat.le_of_succ_le (ih found member)

/-- Places before the first row remove nothing. -/
theorem rowsExcept_cons_lt {position start : Nat} {positions : List Nat} {rows : List Row}
    (before : position < start) :
    Tables.rowsExcept (position :: positions) start rows =
      Tables.rowsExcept positions start rows := by
  induction rows generalizing start with
  | nil => rfl
  | cons row rest ih =>
      have other : start ≠ position := by omega
      simp only [Tables.rowsExcept, List.mem_cons, other, false_or, ih (Nat.lt_succ_of_lt before)]

/-- The places of the rows that pass are found whenever a query can keep these rows, and otherwise
    the failure is the same. -/
theorem matchingPositions_outcome (start : Nat) (rows : List Row) :
    (matchingPositions test start rows).map (fun _ => ()) =
      (keepRows test rows).map fun _ => () := by
  induction rows generalizing start with
  | nil => rfl
  | cons row rest ih =>
      rw [matchingPositions, keepRows]
      cases test row with
      | error failure => rfl
      | ok t =>
          have later := ih (start + 1)
          simp only [ok_bind]
          generalize matchingPositions test (start + 1) rest = places at later ⊢
          generalize keepRows test rest = kept at later ⊢
          cases places <;> cases kept <;> simp_all [Except.map]

/-- Without the rows at these places the rows that do not pass are left. -/
theorem rowsExcept_matchingPositions {start : Nat} {rows : List Row} {positions : List Nat}
    (found : matchingPositions test start rows = .ok positions) :
    Tables.rowsExcept positions start rows = rows.filter fun row => !passes test row := by
  induction rows generalizing start positions with
  | nil => rfl
  | cons row rest ih =>
      rw [matchingPositions] at found
      obtain ⟨t, tested, found⟩ := bind_eq_ok.mp found
      obtain ⟨later, others, found⟩ := bind_eq_ok.mp found
      have remaining := ih others
      have fresh : start ∉ later := fun member =>
        absurd (le_of_mem_matchingPositions others member) (by omega)
      cases found
      cases holds : t.isTrue with
      | true =>
          simp [Tables.rowsExcept, passes_eq tested, holds,
            rowsExcept_cons_lt (Nat.lt_succ_self start), remaining]
      | false => simp [Tables.rowsExcept, passes_eq tested, holds, fresh, remaining]

theorem length_filter_not_passes (rows : List Row) :
    rows.length - (rows.filter fun row => !passes test row).length =
      (rows.filter (passes test)).length := by
  have split := List.length_eq_length_filter_add (passes test) (l := rows)
  omega

end EntityQuery
