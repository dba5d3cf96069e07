import EntityQuery.Proofs.Storage.Tables
import Mathlib.Algebra.BigOperators.Group.Finset.Basic

/-! # Tables without some of their rows

Rows that a test picks out are taken out of all tables and counted. What two tests take out one
after the other is what they take out together.
-/

namespace EntityQuery

/-- The rows that are picked out are gone, and the others are there in the order in which they
    were. -/
structure Tables.Without (before : Tables) (gone : String → Row → Bool) (after : Tables) :
    Prop where
  names : Keyed.names after = Keyed.names before
  rows : ∀ table, after.rows? table =
    (before.rows? table).map (List.filter fun row => !gone table row)

/-- How many rows of all tables are picked out. -/
def Tables.tally (tables : Tables) (gone : String → Row → Bool) : Nat :=
  ∑ table ∈ (Keyed.names tables).toFinset, ((tables.rows? table).getD []).countP (gone table)

section

variable {before after later : Tables} {gone more : String → Row → Bool}

theorem countP_or_filter {α : Type} (p q : α → Bool) (xs : List α) :
    xs.countP (fun x => p x || q x) = xs.countP p + (xs.filter fun x => !p x).countP q := by
  induction xs with
  | nil => rfl
  | cons x rest ih =>
      cases first : p x with
      | true => simp [first, ih, Nat.add_right_comm]
      | false => simp [List.countP_cons, first, ih, Nat.add_assoc]

namespace Tables.Without

theorem of_none (spared : ∀ table rows, before.rows? table = some rows →
      ∀ row ∈ rows, gone table row = false) : before.Without gone before where
  names := rfl
  rows := by
    intro table
    cases stored : before.rows? table with
    | none => rfl
    | some rows =>
        have all : rows.filter (fun row => !gone table row) = rows := by
          rw [List.filter_eq_self]
          intro row inside
          rw [spared table rows stored row inside]
          rfl
        rw [Option.map_some, all]

theorem trans (first : before.Without gone after) (second : after.Without more later) :
    before.Without (fun table row => gone table row || more table row) later where
  names := second.names.trans first.names
  rows := by
    intro table
    rw [second.rows, first.rows, Option.map_map]
    congr 1
    funext rows
    simp only [Function.comp_apply, List.filter_filter, Bool.not_or]
    exact List.filter_congr fun row _ => Bool.and_comm _ _

/-- Rows of a single table are taken out. -/
theorem put {table : String} {rows : List Row} (stored : before.rows? table = some rows)
    (test : Row → Bool) :
    before.Without (fun other row => decide (table = other) && test row)
      (Keyed.put before table (rows.filter fun row => !test row)) where
  names := Keyed.names_put _ stored
  rows := by
    intro other
    rw [rows?, Keyed.get?_put]
    by_cases own : table = other
    · subst own
      simp [stored]
    · have all : (List.filter fun row => !(decide (table = other) && test row)) = id := by
        funext rows
        simp [own]
      rw [if_neg own, all, Option.map_id]
      rfl

/-- What is picked out by either of two tests is picked out by the first one, or by the second one
    from what is left then. -/
theorem tally (removed : before.Without gone after) :
    before.tally (fun table row => gone table row || more table row) =
      before.tally gone + after.tally more := by
  unfold Tables.tally
  rw [removed.names, ← Finset.sum_add_distrib]
  apply Finset.sum_congr rfl
  intro table _
  rw [countP_or_filter, removed.rows]
  cases before.rows? table <;> rfl

end Tables.Without

theorem Tables.tally_none (spared : ∀ table rows, before.rows? table = some rows →
      ∀ row ∈ rows, gone table row = false) : before.tally gone = 0 := by
  apply Finset.sum_eq_zero
  intro table _
  rw [List.countP_eq_zero]
  intro row inside
  cases stored : before.rows? table with
  | none =>
      rw [stored] at inside
      cases inside
  | some rows =>
      rw [stored] at inside
      rw [spared table rows stored row inside]
      exact Bool.false_ne_true

theorem Tables.tally_one {table : String} {rows : List Row}
    (stored : before.rows? table = some rows) (test : Row → Bool) :
    before.tally (fun other row => decide (table = other) && test row) =
      (rows.filter test).length := by
  have named : table ∈ (Keyed.names before).toFinset := by
    rw [List.mem_toFinset]
    apply Decidable.byContradiction
    intro absent
    have missing : before.rows? table = none := Keyed.get?_eq_none_iff.mpr absent
    rw [missing] at stored
    cases stored
  unfold tally
  rw [Finset.sum_eq_single_of_mem table named]
  · simp [stored, List.countP_eq_length_filter]
  · intro other _ different
    simp [Ne.symm different]

end

end EntityQuery
