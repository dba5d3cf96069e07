import Mathlib.Data.List.Induction
import EntityQuery.Compilation.SwapCell

/-! # Swaps and their guards

What a cell holds after any swaps and drops. A guard that is left brings back what the cell held
before the swap of the guard, whatever happened in between, and a guard that was dropped does
nothing any more. Where only the guard of the innermost swap is ever dropped, as scopes do, the cell
holds the value of the innermost swap whose guard is left.
-/

namespace EntityQuery

variable {α : Type}

/-- A swap of the value of a cell, or a drop of the guard of an earlier swap. -/
inductive CellStep (α : Type) where
  | swap (value : α)
  | drop (guard : Nat)

namespace CellStep

def isSwap : CellStep α → Bool
  | .swap _ => true
  | .drop _ => false

def drops (guard : Nat) : CellStep α → Bool
  | .swap _ => false
  | .drop other => other == guard

/-- How many swaps there were, which is the number of the guard of the next one. -/
def swapCount (steps : List (CellStep α)) : Nat := steps.countP isSwap

/-- The swaps whose guards are not dropped later: the numbers of the guards, counted from `next`,
    and the values. The innermost swap comes last. -/
def liveFrom (next : Nat) : List (CellStep α) → List (Nat × α)
  | [] => []
  | .swap value :: rest =>
      if rest.any (drops next) then liveFrom (next + 1) rest
      else (next, value) :: liveFrom (next + 1) rest
  | .drop _ :: rest => liveFrom next rest

def live (steps : List (CellStep α)) : List (Nat × α) := liveFrom 0 steps

/-- The value of the last of the swaps, or the initial one. -/
def innermost (initial : α) (swaps : List (Nat × α)) : α := (swaps.getLast?.map (·.2)).getD initial

/-- Every drop hits the guard of the innermost swap whose guard is left. -/
inductive Nests : List (CellStep α) → Prop where
  | start : Nests []
  | swap {steps : List (CellStep α)} (nests : Nests steps) (value : α) :
      Nests (steps ++ [.swap value])
  | drop {steps : List (CellStep α)} {guard : Nat} (nests : Nests steps)
      (newest : (live steps).getLast?.map (·.1) = some guard) : Nests (steps ++ [.drop guard])

section Live

variable {next : Nat} {steps earlier : List (CellStep α)} {initial value : α} {guard : Nat}

theorem swapCount_cons (step : CellStep α) (rest : List (CellStep α)) :
    swapCount (step :: rest) = swapCount rest + if step.isSwap then 1 else 0 :=
  List.countP_cons

theorem liveFrom_swap (next : Nat) (steps : List (CellStep α)) (value : α) :
    liveFrom next (steps ++ [.swap value]) =
      liveFrom next steps ++ [(next + swapCount steps, value)] := by
  induction steps generalizing next with
  | nil => rfl
  | cons step rest ih =>
      cases step with
      | drop other =>
          rw [List.cons_append, liveFrom, liveFrom, ih, swapCount_cons]
          rfl
      | swap first =>
          have same : (rest ++ [CellStep.swap value]).any (drops next) = rest.any (drops next) := by
            simp [drops]
          have number : next + 1 + swapCount rest = next + swapCount (.swap first :: rest) := by
            rw [swapCount_cons, isSwap, if_pos rfl]
            omega
          rw [List.cons_append, liveFrom, liveFrom, same, ih, number]
          split <;> rfl

theorem liveFrom_drop (next : Nat) (steps : List (CellStep α)) (guard : Nat) :
    liveFrom next (steps ++ [.drop guard]) = (liveFrom next steps).filter (·.1 ≠ guard) := by
  induction steps generalizing next with
  | nil => rfl
  | cons step rest ih =>
      cases step with
      | drop other => rw [List.cons_append, liveFrom, liveFrom, ih]
      | swap first =>
          have same : (rest ++ [CellStep.drop guard]).any (drops next) =
              (rest.any (drops next) || guard == next) := by
            simp [drops]
          rw [List.cons_append, liveFrom, liveFrom, same, ih]
          cases rest.any (drops next) with
          | true => rfl
          | false =>
              by_cases hit : guard = next
              · simp [hit]
              · simp [hit, Ne.symm hit]

theorem le_of_mem_liveFrom {entry : Nat × α} (inside : entry ∈ liveFrom next steps) :
    next ≤ entry.1 := by
  induction steps generalizing next with
  | nil => cases inside
  | cons step rest ih =>
      cases step with
      | drop other => exact ih inside
      | swap first =>
          rw [liveFrom] at inside
          split at inside
          · exact Nat.le_of_succ_le (ih inside)
          · rcases List.mem_cons.mp inside with own | later
            · exact own ▸ Nat.le_refl next
            · exact Nat.le_of_succ_le (ih later)

theorem pairwise_liveFrom (next : Nat) (steps : List (CellStep α)) :
    (liveFrom next steps).Pairwise fun entry later => entry.1 < later.1 := by
  induction steps generalizing next with
  | nil => exact .nil
  | cons step rest ih =>
      cases step with
      | drop other => exact ih next
      | swap first =>
          rw [liveFrom]
          split
          · exact ih (next + 1)
          · exact .cons (fun later inside => le_of_mem_liveFrom inside) (ih (next + 1))

theorem live_swap (steps : List (CellStep α)) (value : α) :
    live (steps ++ [.swap value]) = live steps ++ [(swapCount steps, value)] := by
  rw [live, liveFrom_swap, Nat.zero_add]
  rfl

/-- The numbers of the other guards are different ones. -/
theorem fresh_of_live {below : List (Nat × α)} (stacked : live steps = below ++ [(guard, value)])
    {entry : Nat × α} (inside : entry ∈ below) : entry.1 ≠ guard := by
  have ordered := pairwise_liveFrom 0 steps
  rw [← live, stacked] at ordered
  exact Nat.ne_of_lt ((List.pairwise_append.mp ordered).2.2 entry inside _ List.mem_cons_self)

theorem live_drop {below : List (Nat × α)} (stacked : live steps = below ++ [(guard, value)]) :
    live (steps ++ [.drop guard]) = below := by
  rw [live, liveFrom_drop, ← live, stacked, List.filter_append]
  have kept : below.filter (·.1 ≠ guard) = below :=
    List.filter_eq_self.mpr fun entry inside => decide_eq_true (fresh_of_live stacked inside)
  rw [kept, List.filter_cons_of_neg (by simp), List.filter_nil, List.append_nil]

theorem innermost_concat (initial : α) (below : List (Nat × α)) (entry : Nat × α) :
    innermost initial (below ++ [entry]) = entry.2 := by
  simp [innermost]

theorem Nests.shortened (nests : Nests steps) (before : earlier <+: steps) :
    Nests earlier := by
  induction nests with
  | start => exact List.prefix_nil.mp before ▸ .start
  | swap nests value ih =>
      rcases List.prefix_concat_iff.mp before with rfl | within
      · exact nests.swap value
      · exact ih within
  | drop nests newest ih =>
      rcases List.prefix_concat_iff.mp before with rfl | within
      · exact nests.drop newest
      · exact ih within

end Live

end CellStep

namespace SwapCell

open CellStep

def step (cell : SwapCell α) : CellStep α → SwapCell α
  | .swap value => cell.swap value
  | .drop guard => cell.drop guard

def run (cell : SwapCell α) (steps : List (CellStep α)) : SwapCell α := steps.foldl step cell

/-- A cell before its first swap. -/
def new (initial : α) : SwapCell α := { current := initial }

section Guards

variable {cell : SwapCell α} {guard : Nat} {previous : α}

theorem run_append (cell : SwapCell α) (steps later : List (CellStep α)) :
    cell.run (steps ++ later) = (cell.run steps).run later :=
  List.foldl_append

theorem drop_left (left : cell.guards[guard]? = some (some previous)) :
    cell.drop guard = ⟨previous, cell.guards.set guard none⟩ := by
  rw [drop, left]

theorem drop_spent (spent : cell.guards[guard]? = some none) : cell.drop guard = cell := by
  rw [drop, spent]

/-- A drop spends its guard, and no step changes another one. -/
theorem guard_step (known : guard < cell.guards.length) (s : CellStep α) :
    (cell.step s).guards[guard]? = if s.drops guard then some none else cell.guards[guard]? := by
  cases s with
  | swap value => exact List.getElem?_append_left known
  | drop other =>
      by_cases own : other = guard
      · subst own
        simp only [drops, beq_self_eq_true, if_true, step]
        cases held : cell.guards[other]? with
        | none => exact absurd known (Nat.not_lt.mpr (List.getElem?_eq_none_iff.mp held))
        | some previous? =>
            cases previous? with
            | none => rw [drop_spent held, held]
            | some previous =>
                rw [drop_left held]
                exact List.getElem?_set_self known
      · have different : (other == guard) = false := beq_false_of_ne own
        simp only [drops, different, Bool.false_eq_true, if_false, step, drop]
        split
        · exact List.getElem?_set_ne own
        · rfl

theorem length_guards_step (cell : SwapCell α) (s : CellStep α) :
    (cell.step s).guards.length = cell.guards.length + if s.isSwap then 1 else 0 := by
  cases s with
  | swap value => exact List.length_append
  | drop other =>
      simp only [step, drop]
      split
      · exact List.length_set
      · rfl

theorem length_guards_run (cell : SwapCell α) (steps : List (CellStep α)) :
    (cell.run steps).guards.length = cell.guards.length + swapCount steps := by
  induction steps generalizing cell with
  | nil => rfl
  | cons s rest ih =>
      refine (ih (cell.step s)).trans ?_
      rw [length_guards_step, swapCount_cons, Nat.add_assoc, Nat.add_comm (swapCount rest)]

theorem length_guards_new (initial : α) (steps : List (CellStep α)) :
    ((new initial).run steps).guards.length = swapCount steps :=
  (length_guards_run _ steps).trans (Nat.zero_add _)

theorem guard_run (known : guard < cell.guards.length) (steps : List (CellStep α)) :
    (cell.run steps).guards[guard]? =
      if steps.any (drops guard) then some none else cell.guards[guard]? := by
  induction steps generalizing cell with
  | nil => rfl
  | cons s rest ih =>
      have still : guard < (cell.step s).guards.length := by
        rw [length_guards_step]
        exact Nat.lt_add_right _ known
      refine (ih still).trans ?_
      rw [guard_step known, List.any_cons]
      cases s.drops guard <;> simp

/-- A guard holds what the cell held before its swap, until it is dropped. -/
theorem guard_of_swap (initial value : α) (before after : List (CellStep α)) :
    ((new initial).run (before ++ .swap value :: after)).guards[swapCount before]? =
      some (if after.any (drops (swapCount before)) then none
        else some ((new initial).run before).current) := by
  have number := length_guards_new initial before
  have known : swapCount before < (((new initial).run before).swap value).guards.length := by
    rw [swap, List.length_append, number]
    exact Nat.lt_succ_self _
  have swapped : (((new initial).run before).swap value).guards[swapCount before]? =
      some (some ((new initial).run before).current) := by
    rw [swap, ← number]
    exact List.getElem?_concat_length
  rw [run_append]
  refine (guard_run known after).trans ?_
  rw [swapped]
  split <;> rfl

end Guards

section Stacked

variable {initial value : α} {swaps below : List (Nat × α)} {cell : SwapCell α} {guard : Nat}
  {steps : List (CellStep α)}

/-- The guards of swaps inside one another bring back the values of those around them. -/
structure Stacked (initial : α) (swaps : List (Nat × α)) (cell : SwapCell α) : Prop where
  current_eq : cell.current = innermost initial swaps
  guard_eq : ∀ below guard value, below ++ [(guard, value)] <+: swaps →
    cell.guards[guard]? = some (some (innermost initial below))

theorem Stacked.swap (stack : Stacked initial swaps cell) (value : α) :
    Stacked initial (swaps ++ [(cell.guards.length, value)]) (cell.swap value) where
  current_eq := (innermost_concat initial swaps (cell.guards.length, value)).symm
  guard_eq := by
    intro below guard held before
    rw [SwapCell.swap]
    rcases List.prefix_concat_iff.mp before with own | within
    · obtain ⟨rfl, isOwn⟩ := List.append_inj' own rfl
      cases isOwn
      rw [List.getElem?_concat_length, stack.current_eq]
    · have old := stack.guard_eq below guard held within
      obtain ⟨known, -⟩ := List.getElem?_eq_some_iff.mp old
      rw [List.getElem?_append_left known, old]

theorem Stacked.drop (stack : Stacked initial (below ++ [(guard, value)]) cell)
    (fresh : ∀ entry ∈ below, entry.1 ≠ guard) : Stacked initial below (cell.drop guard) := by
  rw [drop_left (stack.guard_eq below guard value (List.prefix_refl _))]
  refine ⟨rfl, ?_⟩
  intro lower other held before
  have inside : (other, held) ∈ below := before.subset List.mem_concat_self
  have old := stack.guard_eq lower other held (before.trans (List.prefix_append _ _))
  exact (List.getElem?_set_ne (Ne.symm (fresh _ inside))).trans old

theorem stacked_of_nests (nests : Nests steps) (initial : α) :
    Stacked initial (live steps) ((new initial).run steps) := by
  induction nests with
  | start =>
      refine ⟨rfl, ?_⟩
      intro below guard value before
      exact absurd (List.prefix_nil.mp before) (List.append_ne_nil_of_right_ne_nil _ nofun)
  | @swap steps nests value ih =>
      rw [live_swap, run_append, ← length_guards_new initial steps]
      exact ih.swap value
  | @drop steps guard nests newest ih =>
      -- The guard is that of the swap on top, so it brings back what the swap below it put there.
      obtain ⟨⟨guard, value⟩, isLast, rfl⟩ := Option.map_eq_some_iff.mp newest
      obtain ⟨below, stacked⟩ := List.getLast?_eq_some_iff.mp isLast
      rw [live_drop stacked, run_append]
      rw [stacked] at ih
      exact ih.drop fun entry inside => fresh_of_live stacked inside

end Stacked

/-- What becomes of a cell with an initial value. -/
structure Restores (initial : α) : Prop where
  /-- A guard that was not dropped brings back what the cell held just before its swap. -/
  left : ∀ before value after, after.any (drops (swapCount before)) = false →
    (((new initial).run (before ++ .swap value :: after)).drop (swapCount before)).current =
      ((new initial).run before).current
  /-- A guard that was dropped changes nothing. -/
  spent : ∀ before value after, after.any (drops (swapCount before)) = true →
    ((new initial).run (before ++ .swap value :: after)).drop (swapCount before) =
      (new initial).run (before ++ .swap value :: after)
  /-- While scopes nest, the cell holds the value of the innermost swap whose guard is left. -/
  nested : ∀ steps, Nests steps → ∀ sofar, sofar <+: steps →
    ((new initial).run sofar).current = innermost initial (live sofar)

theorem run_restores (initial : α) : Restores initial where
  left := by
    intro before value after kept
    have held := guard_of_swap initial value before after
    rw [kept, if_neg Bool.false_ne_true] at held
    rw [drop_left held]
  spent := by
    intro before value after dropped
    have held := guard_of_swap initial value before after
    rw [dropped, if_pos rfl] at held
    exact drop_spent held
  nested := fun _ nests _ before => (stacked_of_nests (nests.shortened before) initial).current_eq

/-- The outer guard is dropped first in one run, so that its swap comes back with the inner one. -/
theorem run_restores_crossing :
    ([.drop 0] : List (CellStep Nat)).any (drops (swapCount [.swap (1 : Nat)])) = false ∧
      (((new 0).run [.swap 1, .swap 2, .drop 0]).drop 1).current = 1 ∧
      Nests [.swap 1, .swap 2, .drop 1] ∧ ((new 0).run [.swap 1, .swap 2, .drop 1]).current = 1 := by
  have inside : Nests [.swap 1, .swap 2] := (Nests.start.swap 1).swap 2
  have nests : Nests [.swap 1, .swap 2, .drop 1] := inside.drop rfl
  exact ⟨rfl, (run_restores 0).left [.swap 1] 2 [.drop 0] rfl, nests,
    (run_restores 0).nested _ nests _ (List.prefix_refl _)⟩

end SwapCell

end EntityQuery
