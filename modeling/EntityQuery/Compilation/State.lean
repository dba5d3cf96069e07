import EntityQuery.Compilation.Error
import EntityQuery.Compilation.Scope
import EntityQuery.Compilation.SwapCell
import EntityQuery.Compilation.Usage
import EntityQuery.Config.Basic
import EntityQuery.Conversion.Registry
import EntityQuery.Relational.Slot

/-! # The state of a compilation

What stays the same while a statement compiles, the numbers and notes that grow with every block and
every reference, and the channel on which new slots are announced.
-/

namespace EntityQuery

/-- What statements are compiled against. -/
structure Domain where
  model : Model
  registry : ConverterRegistry
  config : Config

namespace Domain

def entity (d : Domain) (name : String) : Except CompileError Entity :=
  match d.model.entity? name with
  | some e => .ok e
  | none => .error (.unknownEntity name)

def converterFor (d : Domain) (a : BasicAttribute) (path : AttributePath) :
    Except CompileError (Option Converter) :=
  match d.registry.converterFor a with
  | .ok c => .ok c
  | .error name => .error (.unknownConverter path name)

end Domain

def Scope.resolve (scope : Scope) (aliasName : String) : Except CompileError Binding :=
  match scope.resolve? aliasName with
  | some binding => .ok binding
  | none => .error (.unknownAlias aliasName)

/-- The numbers given out so far in a statement, and the columns it has referred to. -/
structure CompileState where
  tables : Nat := 0
  blocks : Nat := 0
  usage : ColumnUsage := []
  /-- Where the slots of all blocks are announced, to whoever listens while they are created. -/
  announcements : Channel Unit Slot := .new none

/-- The letters that open the alias of an entity's table: the first ones of the entity's name, in
    lower case. Only letters are taken, so that the number behind them can be told apart. -/
def aliasStem (length : Nat) (entity : String) : String :=
  let letters := (entity.toList.filter Char.isAlpha).take (max length 1)
  if letters.isEmpty then "t" else String.ofList (letters.map Char.toLower)

/-- The alias of the table with the given number in a statement. -/
def numberedAlias (stem : String) (number : Nat) : String := stem ++ toString number ++ "_0"

namespace CompileState

/-- The state in which a statement begins to compile whose slots are listened to. -/
def listening : CompileState := { announcements := .new (some ()) }

def nextTable (s : CompileState) (config : Config) (e : Entity) : TableRef × CompileState :=
  let number := s.tables + 1
  (⟨e.table, numberedAlias (aliasStem config.aliasStemLength e.name) number⟩,
    { s with tables := number })

def nextBlock (s : CompileState) : Nat × CompileState :=
  (s.blocks, { s with blocks := s.blocks + 1 })

/-- Refer to the column of an attribute in a table. -/
def refer (s : CompileState) (registry : ConverterRegistry) (table : TableRef)
    (a : BasicAttribute) : Expression × CompileState :=
  let e := Expression.column table.aliasName a.column (registry.storedKind a)
  (e, { s with usage := s.usage.record e })

/-- Let nobody hear of the slots to come. This leaves a guard behind. -/
def muted (s : CompileState) : CompileState :=
  { s with announcements := s.announcements.swap none }

/-- Drop the guard, so that those listen again who did before. -/
def unmuted (s : CompileState) (guard : Nat) : CompileState :=
  { s with announcements := s.announcements.drop guard }

end CompileState

end EntityQuery
