import EntityQuery.Relational.Expression

/-! # Slots of a select list

Every entry of a select list has a place in the buffer that a result row is read into. The entries
that stand for an expression are also numbered as the columns of the result.
-/

namespace EntityQuery

/-- An entry of a select list. -/
inductive Slot where
  /-- Result column number `ordinal`, from 1, which is read into place `index` of the buffer. -/
  | column (ordinal index : Nat) (expression : Expression) (kind : Kind)
  /-- A place of the buffer with no result column behind it. -/
  | empty (index : Nat)
  deriving DecidableEq

namespace Slot

/-- The number of the result column, from 1. -/
def ordinal? : Slot → Option Nat
  | .column ordinal _ _ _ => some ordinal
  | .empty _ => none

/-- The place in the buffer, from 0. -/
def index : Slot → Nat
  | .column _ index _ _ => index
  | .empty index => index

def expression? : Slot → Option Expression
  | .column _ _ expression _ => some expression
  | .empty _ => none

def kind : Slot → Kind
  | .column _ _ _ kind => kind
  | .empty _ => .null

def isEmpty : Slot → Bool
  | .column .. => false
  | .empty _ => true

end Slot

/-- What a slot is requested for: an expression, or to be left empty. -/
inductive SlotKey where
  | expression (e : Expression)
  | placeholder
  deriving DecidableEq

namespace SlotKey

/-- The key by which requests for the same slot are recognised. -/
def identity : SlotKey → SlotKey
  | .expression e => .expression e.identity
  | .placeholder => .placeholder

/-- The slot for a key. A placeholder is never a result column, so neither the ordinal nor the kind
    matters to it. -/
def slot (key : SlotKey) (ordinal index : Nat) (kind : Kind) : Slot :=
  match key with
  | .expression e => .column ordinal index e (e.kindOr kind)
  | .placeholder => .empty index

end SlotKey

end EntityQuery
