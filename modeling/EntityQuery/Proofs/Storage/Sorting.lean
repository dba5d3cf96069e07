import EntityQuery.Proofs.Value.SortOrder
import EntityQuery.Storage.Execution
import Mathlib.Algebra.Group.Nat.Defs
import Mathlib.Data.List.Range

/-! # Sorting and paging

A list is sorted stably if its elements, each with the place that it had before, are in the order of
the comparison and then of the places; there is only one such list. Sorting rows by several keys
gives it, because the keys together are a total preorder as each of them is. A page is cut out by two
bounds, which fit into words of 64 bits for all offsets and limits of 64 signed bits.
-/

namespace EntityQuery

open Std

section Sorting

variable {α : Type} {cmp : α → α → Ordering}

/-- An element comes before another one: it is less, or it is not told apart from it and stood
    before it already. -/
def Precedes (cmp : α → α → Ordering) (p q : α × Nat) : Prop :=
  cmp p.1 q.1 = .lt ∨ cmp p.1 q.1 = .eq ∧ p.2 < q.2

instance (p q : α × Nat) : Decidable (Precedes cmp p q) :=
  inferInstanceAs (Decidable (cmp p.1 q.1 = .lt ∨ cmp p.1 q.1 = .eq ∧ p.2 < q.2))

/-- The one list has the elements of the other, with their places there, in the order in which they
    precede each other. -/
def StablySorted (cmp : α → α → Ordering) (before after : List α) : Prop :=
  ∃ placed : List (α × Nat), placed.Perm before.zipIdx ∧ placed.Pairwise (Precedes cmp) ∧
    placed.map Prod.fst = after

theorem Precedes.asymm [OrientedCmp cmp] {p q : α × Nat} (first : Precedes cmp p q) :
    ¬ Precedes cmp q p := by
  intro second
  have reversed : cmp q.1 p.1 = (cmp p.1 q.1).swap := OrientedCmp.eq_swap
  unfold Precedes at first second
  rw [reversed] at second
  rcases first with less | ⟨alike, before⟩
  · simp [less] at second
  · simp [alike] at second
    omega

theorem StablySorted.unique [OrientedCmp cmp] {xs ys zs : List α}
    (sorted : StablySorted cmp xs ys) (sorted' : StablySorted cmp xs zs) : ys = zs := by
  obtain ⟨placed, perm, ordered, rfl⟩ := sorted
  obtain ⟨placed', perm', ordered', rfl⟩ := sorted'
  have same : placed = placed' := by
    refine List.Perm.eq_of_pairwise ?_ ordered ordered' (perm.trans perm'.symm)
    intro p q _ _ first second
    exact absurd second first.asymm
  rw [same]

/-- Places are told apart. -/
theorem pairwise_places {xs : List α} {placed : List (α × Nat)} (perm : placed.Perm xs.zipIdx) :
    placed.Pairwise fun p q => p.2 ≠ q.2 := by
  apply List.pairwise_map.mp
  rw [← List.Nodup, (perm.map Prod.snd).nodup_iff, List.zipIdx_map_snd]
  exact List.nodup_range'

theorem isLE_eq_ne_gt (o : Ordering) : (o != .gt) = o.isLE := by
  cases o <;> rfl

/-- Sorting by merging is stable. -/
theorem mergeSort_stablySorted [TransCmp cmp] (xs : List α) :
    StablySorted cmp xs (xs.mergeSort fun a b => cmp a b != .gt) := by
  have trans : ∀ a b c, (cmp a b != .gt) = true → (cmp b c != .gt) = true →
      (cmp a c != .gt) = true := by
    intro a b c
    simp only [isLE_eq_ne_gt]
    exact TransCmp.isLE_trans
  have total : ∀ a b, (cmp a b != .gt || cmp b a != .gt) = true := by
    intro a b
    have reversed : cmp b a = (cmp a b).swap := OrientedCmp.eq_swap
    rw [reversed]
    cases cmp a b <;> rfl
  have perm := List.mergeSort_perm xs.zipIdx (List.zipIdxLE fun a b => cmp a b != .gt)
  refine ⟨_, perm, ?_, List.mergeSort_zipIdx⟩
  have ordered := List.pairwise_mergeSort (List.zipIdxLE_trans trans) (List.zipIdxLE_total total)
    xs.zipIdx
  refine (ordered.and (pairwise_places perm)).imp ?_
  rintro p q ⟨le, differ⟩
  have reversed : cmp q.1 p.1 = (cmp p.1 q.1).swap := OrientedCmp.eq_swap
  unfold Precedes
  simp only [List.zipIdxLE, reversed] at le
  cases order : cmp p.1 q.1 with
  | lt => exact .inl rfl
  | eq =>
      simp only [order, Ordering.swap] at le
      exact .inr ⟨rfl, Nat.lt_of_le_of_ne (by simpa using le) differ⟩
  | gt => simp [order] at le

end Sorting

section Keys

/-- The order of rows by a single key. -/
def SortKey.compareRows (key : SortKey) (a b : Row) : Ordering :=
  Value.sortCompare key.ascending (key.expression.eval a) (key.expression.eval b)

instance (key : SortKey) : TransCmp key.compareRows := by
  have : OrientedCmp key.compareRows := by
    constructor
    intro a b
    exact @OrientedCmp.eq_swap _ (Value.sortCompare key.ascending) _ _ _
  constructor
  intro a b c
  exact @TransCmp.isLE_trans _ (Value.sortCompare key.ascending) _ _ _ _

theorem compareRows_cons (key : SortKey) (rest : List SortKey) :
    compareRows (key :: rest) = compareLex key.compareRows (compareRows rest) := by
  funext a b
  rw [compareRows, compareLex]
  unfold SortKey.compareRows
  cases Value.sortCompare key.ascending (key.expression.eval a) (key.expression.eval b) <;> rfl

/-- Several keys, in whatever directions, are a total preorder of rows. -/
instance transCmp_compareRows (order : List SortKey) : TransCmp (compareRows order) := by
  induction order with
  | nil =>
      have : OrientedCmp (compareRows []) := ⟨rfl⟩
      exact ⟨fun _ _ => rfl⟩
  | cons key rest ih =>
      rw [compareRows_cons]
      infer_instance

theorem sortRows_stablySorted (order : List SortKey) (rows : List Row) :
    StablySorted (compareRows order) rows (sortRows order rows) :=
  mergeSort_stablySorted rows

end Keys

section Paging

/-- An integer of 64 signed bits. -/
def IsInt64 (i : Int) : Prop := -0x8000000000000000 ≤ i ∧ i < 0x8000000000000000

/-- Where a page of a list with `count` elements starts and stops, counted in words of 64 bits; none
    if a word overflows. -/
def pageBounds? (offset limit : Option Int) (count : Nat) : Option (Nat × Nat) :=
  let start := (max (offset.getD 0) 0).toNat
  match limit with
  | none => if start < 2 ^ 64 then some (start, count) else none
  | some n =>
      let stop := start + (max n 0).toNat
      if stop < 2 ^ 64 then some (start, min stop count) else none

/-- The elements between two bounds, none unless the bounds lie in order within the list. -/
def between {α : Type} (start stop : Nat) (xs : List α) : List α :=
  if start ≤ stop ∧ stop ≤ xs.length then (xs.take stop).drop start else []

variable {α : Type}

theorem between_all (start : Nat) (xs : List α) : between start xs.length xs = xs.drop start := by
  unfold between
  split
  · rw [List.take_length]
  · rw [List.drop_of_length_le (by omega)]

theorem between_take (start count : Nat) (xs : List α) :
    between start (min (start + count) xs.length) xs = (xs.drop start).take count := by
  unfold between
  split
  · have whole : xs.take (min (start + count) xs.length) = xs.take (start + count) :=
      List.take_eq_take_iff.mpr (by omega)
    rw [whole, List.drop_take, Nat.add_sub_cancel_left]
  · rw [List.drop_of_length_le (by omega), List.take_nil]

/-- The bounds of a page never overflow, and cut it out. -/
theorem page_between {offset limit : Option Int} (offset64 : ∀ n ∈ offset, IsInt64 n)
    (limit64 : ∀ n ∈ limit, IsInt64 n) (xs : List α) :
    ∃ start stop, pageBounds? offset limit xs.length = some (start, stop) ∧
      between start stop xs = page offset limit xs := by
  have start64 : (max (offset.getD 0) 0).toNat < 2 ^ 63 := by
    cases offset with
    | none => decide
    | some n =>
        have range := offset64 n rfl
        unfold IsInt64 at range
        simp only [Option.getD_some]
        omega
  have clipped : ∀ n : Int, (max n 0).toNat = n.toNat := by omega
  unfold pageBounds? page
  cases limit with
  | none =>
      refine ⟨_, _, if_pos (by omega), ?_⟩
      rw [between_all, clipped]
  | some n =>
      have range := limit64 n rfl
      unfold IsInt64 at range
      refine ⟨_, _, if_pos (by omega), ?_⟩
      rw [between_take, clipped, clipped]

end Paging

end EntityQuery
