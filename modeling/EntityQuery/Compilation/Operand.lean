import EntityQuery.Compilation.State
import EntityQuery.Query.Statement

/-! # Compiling value expressions

Paths become columns, and function names lose their case. An operand that is just a path to an
attribute with a converter brings that converter along, so that a literal it is compared with can be
taken to its stored form.
-/

namespace EntityQuery

/-- The column behind a path, and the converter of the attribute. The path must lead to a single
    column; an entity stands for its id attribute. -/
def compilePath (d : Domain) (scope : Scope) (clause : Clause) (path : Path) (s : CompileState) :
    Except CompileError ((Expression × Option Converter) × CompileState) := do
  let binding ← scope.resolve path.aliasName
  let attributes :=
    if path.isEntity then [binding.entity.idAttribute] else path.attributes
  match binding.entity.at? attributes with
  | some (.basic a) =>
      let converter ← d.converterFor a attributes
      let (e, s) := s.refer d.registry binding.table a
      .ok ((e, converter), s)
  | some _ => .error (.notABasicAttribute path.toText clause)
  | none => .error (.unknownAttribute binding.entity.name attributes)

mutual

/-- The column expression for an operand, and the converter if the operand is a path that has
    one. -/
def compileOperand (d : Domain) (scope : Scope) (clause : Clause) :
    Operand → CompileState → Except CompileError ((Expression × Option Converter) × CompileState)
  | .ref path, s => compilePath d scope clause path s
  | .literal l, s => .ok ((.literal l, none), s)
  | .call name args, s => do
      let (args, s) ← compileOperands d scope clause args s
      .ok ((Expression.function name args, none), s)

def compileOperands (d : Domain) (scope : Scope) (clause : Clause) :
    List Operand → CompileState → Except CompileError (List Expression × CompileState)
  | [], s => .ok ([], s)
  | t :: rest, s => do
      let ((e, _), s) ← compileOperand d scope clause t s
      let (es, s) ← compileOperands d scope clause rest s
      .ok (e :: es, s)

end

def compileExpression (d : Domain) (scope : Scope) (clause : Clause) (t : Operand)
    (s : CompileState) : Except CompileError (Expression × CompileState) := do
  let ((e, _), s) ← compileOperand d scope clause t s
  .ok (e, s)

/-- An expression that is compared with an attribute: literals take the form in which the
    attribute's converter stores them. -/
def storedForm (e : Expression) (converter : Option Converter) : Except CompileError Expression :=
  match e, converter with
  | .literal l, some c =>
      match c.toDatabase l.toValue with
      | .error failure => .error (.conversion failure)
      | .ok stored =>
          match Literal.ofValue? stored with
          | some l => .ok (.literal l)
          | none => .error (.noLiteralForm c.name stored)
  | e, _ => .ok e

end EntityQuery
