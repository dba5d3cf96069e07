import EntityQuery.Value.Basic

/-! # Identifiers of new rows

Where the id of a new row comes from when the application gives none: from nowhere, from a sequence
that continues after the largest integer seen, or from outside, where universally unique identifiers
are drawn.
-/

namespace EntityQuery

/-- How the ids of an entity are obtained. -/
inductive IdGeneration where
  /-- The application gives every id. -/
  | assigned
  | sequence
  | uuid
  deriving Repr, DecidableEq

def IdGeneration.name : IdGeneration → String
  | .assigned => "Assigned"
  | .sequence => "Sequence"
  | .uuid => "Uuid"

/-- The state of id generation for one entity. -/
structure IdGenerator where
  generation : IdGeneration
  /-- The largest integer id seen or handed out by a sequence. -/
  current : Option Nat := none
  deriving Repr, DecidableEq

namespace IdGenerator

/-- The largest integer a sequence hands out. -/
def last : Nat := 0xffffffffffffffff

/-- Take note of an id that is in use. Only sequences mind, and only non-negative integers. -/
def observe (g : IdGenerator) (id : Value) : IdGenerator :=
  match g.generation, id.toNat? with
  | .sequence, some n =>
      match g.current with
      | none => { g with current := some n }
      | some c => if c < n then { g with current := some n } else g
  | _, _ => g

/-- The next integer of a sequence, none at the end. -/
def nextInSequence (g : IdGenerator) : Option Nat :=
  match g.current with
  | none => some 1
  | some c => if c < last then some (c + 1) else none

/-- The next id, if there is one; a generator of unique identifiers hands out the given one. -/
def next (g : IdGenerator) (uuid : String) : Option Value × IdGenerator :=
  match g.generation with
  | .assigned => (none, g)
  | .uuid => (some (.string uuid), g)
  | .sequence =>
      match g.nextInSequence with
      | some n => (some (.int n), { g with current := some n })
      | none => (none, g)

end IdGenerator

end EntityQuery
