import EntityQuery.Compilation.Error
import EntityQuery.Compilation.SwapCell
import EntityQuery.Relational.Block

/-! # Resolving the select list of a block

A resolver decides for every expression that a query block needs which slot of the select list it
has. Every expression gets one slot, however often it is asked for; the slots with an expression are
numbered from 1, all slots together from 0. One slot of a block may be left empty, but not the
first. Each new slot goes to the end of the select list and is announced to whoever listens.
-/

namespace EntityQuery

structure Resolver (ω : Type) where
  block : QueryBlock
  slots : Option (List (SlotKey × Slot)) := none
  /-- The number of slots with an expression. -/
  columns : Nat := 0
  announcements : Channel ω Slot

namespace Resolver

variable {ω : Type}

/-- The resolver for a block that nothing is selected in yet, which announces new slots on the given
    channel. -/
def announcing (id : Nat) (table : TableRef) (announcements : Channel ω Slot) : Resolver ω :=
  { block := { id := id, table := table }, announcements := announcements }

/-- The resolver for a block that nothing is selected in yet, with a channel of its own. -/
def new (id : Nat) (table : TableRef) (listener : Option ω) : Resolver ω :=
  announcing id table (.new listener)

def slotOf? (r : Resolver ω) (key : SlotKey) : Option Slot :=
  ((r.slots.getD []).find? (·.1 = key.identity)).map (·.2)

def resolved? (r : Resolver ω) (e : Expression) : Option Slot := r.slotOf? (.expression e)

/-- The number of slots, with or without an expression. -/
def count (r : Resolver ω) : Nat := (r.slots.getD []).length

def create (r : Resolver ω) (key : SlotKey) (kind : Kind) : Slot × Resolver ω :=
  let slot := key.slot (r.columns + 1) r.count kind
  (slot,
    { block := { r.block with select := r.block.select ++ [slot] }
      slots := some (r.slots.getD [] ++ [(key.identity, slot)])
      columns := if slot.isEmpty then r.columns else r.columns + 1
      announcements := r.announcements.announce slot })

/-- The slot of an expression, a new one of the given kind if it has none. -/
def resolve (r : Resolver ω) (e : Expression) (kind : Kind) : Slot × Resolver ω :=
  match r.resolved? e with
  | some slot => (slot, r)
  | none => r.create (.expression e) kind

/-- The empty slot of the block, which can be had once and not before any other slot. -/
def placeholder (r : Resolver ω) : Except CompileError (Slot × Resolver ω) :=
  if r.slots.isNone then .error (.placeholderBeforeSelection r.block.id)
  else if (r.slotOf? .placeholder).isSome then .error (.placeholderAlreadyResolved r.block.id)
  else .ok (r.create .placeholder .null)

end Resolver

/-- A place in a statement: the clause being built and those of the enclosing blocks. -/
structure Position where
  clause : Clause
  /-- The clauses of the enclosing blocks, innermost first. -/
  enclosing : List Clause := []
  deriving Repr, DecidableEq

namespace Position

def depth (p : Position) : Nat := p.enclosing.length

/-- The position as it is shown to a developer. -/
def describe (p : Position) : String :=
  "ProcessingState \x7b current_clause: " ++ p.clause.name ++ ", depth: " ++ toString p.depth
    ++ " \x7d"

end Position

end EntityQuery
