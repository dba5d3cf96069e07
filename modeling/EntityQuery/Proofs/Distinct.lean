import Mathlib.Data.List.Basic
import Mathlib.Data.List.Induction
import EntityQuery.Keyed

/-! # Lists without repetitions

What is left of a list when every element counts where it first occurs.
-/

namespace EntityQuery

section Elements

variable {α : Type} [DecidableEq α]

theorem eraseDups_concat (l : List α) (x : α) :
    (l ++ [x]).eraseDups = if x ∈ l then l.eraseDups else l.eraseDups ++ [x] := by
  rw [List.eraseDups_append]
  split
  · next known => simp [List.removeAll, known]
  · next fresh => simp [List.removeAll, fresh, List.eraseDups_cons]

/-- A list without its repetitions is in the order of the first occurrences. -/
theorem pairwise_idxOf_eraseDups (l : List α) :
    l.eraseDups.Pairwise fun x y => l.idxOf x < l.idxOf y := by
  induction l using List.reverseRecOn with
  | nil => simp
  | append_singleton l last ih =>
      have within :
          l.eraseDups.Pairwise fun x y => (l ++ [last]).idxOf x < (l ++ [last]).idxOf y := by
        refine ih.imp_of_mem fun first second before => ?_
        rw [List.idxOf_append_of_mem (List.mem_eraseDups.mp first),
          List.idxOf_append_of_mem (List.mem_eraseDups.mp second)]
        exact before
      rw [eraseDups_concat]
      split
      · exact within
      · next fresh =>
        refine List.pairwise_append.mpr ⟨within, List.pairwise_singleton .., ?_⟩
        intro x known y isLast
        have member : x ∈ l := List.mem_eraseDups.mp known
        rw [List.mem_singleton.mp isLast, List.idxOf_append_of_mem member,
          List.idxOf_append_of_notMem fresh]
        exact Nat.lt_add_right _ (List.idxOf_lt_length_of_mem member)

theorem nodup_eraseDups (l : List α) : l.eraseDups.Nodup := by
  refine List.Pairwise.imp ?_ (pairwise_idxOf_eraseDups l)
  rintro x y before rfl
  exact Nat.lt_irrefl _ before

/-- Leaving elements out does not change which of the others come first. -/
theorem eraseDups_filter (test : α → Bool) (l : List α) :
    (l.filter test).eraseDups = l.eraseDups.filter test := by
  match l with
  | [] => simp
  | x :: rest =>
      have later := eraseDups_filter test (rest.filter fun y => !y == x)
      rw [List.eraseDups_cons, List.filter_cons, List.filter_cons, ← later]
      cases kept : test x with
      | true =>
          simp only [if_true, List.eraseDups_cons, List.filter_filter, Bool.and_comm]
      | false =>
          have others : (rest.filter fun y => !y == x).filter test = rest.filter test := by
            rw [List.filter_filter]
            apply List.filter_congr
            intro y _
            cases same : y == x with
            | true => simp [eq_of_beq same, kept]
            | false => simp
          simp [others]
termination_by l.length
decreasing_by
  exact Nat.lt_succ_of_le (List.length_filter_le _ rest)

end Elements

/-- Values that are written one after the other have their names in the order of the first writes. -/
theorem Keyed.names_put_distinct {α : Type} {entries : Keyed α} {before : List String}
    (written : names entries = before.eraseDups) (key : String) (value : α) :
    names (put entries key value) = (before ++ [key]).eraseDups := by
  rw [names_put_eq, written, eraseDups_concat]
  simp only [List.mem_eraseDups]

end EntityQuery
