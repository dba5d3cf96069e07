/-! # Values replaced for a while

A cell holds the value in effect. Every swap leaves a guard behind that knows the value before it;
dropping the guard brings that value back, once.
-/

namespace EntityQuery

/-- A cell with the guards of its swaps, numbered in the order of the swaps. -/
structure SwapCell (α : Type) where
  current : α
  /-- What each guard restores, nothing once it was dropped. -/
  guards : List (Option α) := []
  deriving Repr, DecidableEq

namespace SwapCell

variable {α : Type}

/-- Put a value into effect; the new guard has the number of guards so far. -/
def swap (cell : SwapCell α) (value : α) : SwapCell α :=
  ⟨value, cell.guards ++ [some cell.current]⟩

/-- Drop a guard. A guard that was dropped before, or never existed, changes nothing. -/
def drop (cell : SwapCell α) (guard : Nat) : SwapCell α :=
  match cell.guards[guard]? with
  | some (some previous) => ⟨previous, cell.guards.set guard none⟩
  | _ => cell

end SwapCell

/-- A cell for whoever listens at the moment, and what the listeners have heard so far. -/
structure Channel (ω ε : Type) where
  listener : SwapCell (Option ω)
  heard : List (ω × ε) := []

namespace Channel

variable {ω ε : Type}

/-- A channel with its first listener, if any. -/
def new (listener : Option ω) : Channel ω ε := ⟨⟨listener, []⟩, []⟩

/-- The number of the guard that the next swap of listeners leaves behind. -/
def nextGuard (c : Channel ω ε) : Nat := c.listener.guards.length

/-- Tell the listener of the moment about an event. -/
def announce (c : Channel ω ε) (event : ε) : Channel ω ε :=
  match c.listener.current with
  | none => c
  | some listener => { c with heard := c.heard ++ [(listener, event)] }

/-- Let somebody else, or nobody, listen; this leaves a guard behind. -/
def swap (c : Channel ω ε) (listener : Option ω) : Channel ω ε :=
  { c with listener := c.listener.swap listener }

/-- Drop a guard of a swap of listeners. -/
def drop (c : Channel ω ε) (guard : Nat) : Channel ω ε :=
  { c with listener := c.listener.drop guard }

end Channel

end EntityQuery
