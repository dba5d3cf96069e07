import EntityQuery.Conversion.Converter
import EntityQuery.Mapping.Attribute
import EntityQuery.Relational.Clause
import EntityQuery.Relational.Expression

/-! # Compile errors

Why a statement over entities does not compile.
-/

namespace EntityQuery

inductive CompileError where
  | unknownEntity (name : String)
  | unknownAlias (aliasName : String)
  | unknownAttribute (entity : String) (path : AttributePath)
  /-- An attribute names a converter that is not registered. -/
  | unknownConverter (path : AttributePath) (converter : String)
  /-- A path leads to something else than a single column where one is needed. -/
  | notABasicAttribute (path : String) (clause : Clause)
  /-- An empty slot was requested as the first one of its block. -/
  | placeholderBeforeSelection (block : Nat)
  /-- A second empty slot was requested in one block. -/
  | placeholderAlreadyResolved (block : Nat)
  | queryTooDeep (max : Nat)
  /-- A literal has no stored form. -/
  | conversion (e : ConversionError)
  /-- A pattern cannot be compared with stored forms. -/
  | likeOnConverted (e : Expression)
  /-- The stored form of a literal is a list or an object. -/
  | noLiteralForm (converter : String) (stored : Value)

namespace CompileError

def message : CompileError → String
  | .unknownEntity name => "unknown entity '" ++ name ++ "'"
  | .unknownAlias aliasName => "unknown alias '" ++ aliasName ++ "'"
  | .unknownAttribute entity path =>
      "entity '" ++ entity ++ "' has no attribute '" ++ path.dotted ++ "'"
  | .unknownConverter path converter =>
      "attribute '" ++ path.dotted ++ "' names unregistered converter '" ++ converter ++ "'"
  | .notABasicAttribute path clause =>
      "'" ++ path ++ "' does not map to a single column (in " ++ clause.keyword ++ ")"
  | .placeholderBeforeSelection block =>
      "query block " ++ toString block
        ++ ": placeholder selection requested before any selection was resolved"
  | .placeholderAlreadyResolved block =>
      "query block " ++ toString block ++ ": placeholder selection already resolved"
  | .queryTooDeep max => "sub-queries nested deeper than " ++ toString max ++ " levels"
  | .conversion e => e.message
  | .likeOnConverted e => "LIKE is not supported on converted attribute " ++ e.render
  | .noLiteralForm converter stored =>
      "converter '" ++ converter ++ "' produced " ++ stored.render ++ ", which has no literal form"

end CompileError

end EntityQuery
