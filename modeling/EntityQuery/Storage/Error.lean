import EntityQuery.Compilation.Error
import EntityQuery.Json.Error

/-! # Execution errors

Why a statement fails, or a value is not stored.
-/

namespace EntityQuery

/-- What is wrong with data that is to be stored. -/
inductive DataFault where
  | notAnObject (entity : String) (value : Value)
  | wrongKind (entity : String) (path : AttributePath) (expected : Kind) (value : Value)
  | notAnArray (table : String)
  | rowNotAnObject (table : String) (value : Value)
  | malformed (fault : JsonFault)

/-- The text of a fault in data. -/
def DataFault.message : DataFault → String
  | .notAnObject entity value =>
      "'" ++ entity ++ "' must be persisted from an object, got " ++ value.render
  | .wrongKind entity path expected value =>
      "'" ++ entity ++ "." ++ path.dotted ++ "' expects " ++ expected.name ++ ", got "
        ++ value.render
  | .notAnArray table => "expected an array of rows for '" ++ table ++ "'"
  | .rowNotAnObject table value => "row of '" ++ table ++ "' is not an object: " ++ value.render
  | .malformed fault => fault.message

/-- Why a file cannot be read. -/
inductive FileFault where
  | missing
  | notText
  deriving Repr, DecidableEq

/-- The text of a fault of a file. -/
def FileFault.message : FileFault → String
  | .missing => "No such file or directory (os error 2)"
  | .notText => "stream did not contain valid UTF-8"

/-- The reasons for which an operation on a store fails. -/
inductive ExecutionError where
  | compile (e : CompileError)
  | conversion (e : ConversionError)
  | unknownTable (name : String)
  | invalidData (fault : DataFault)
  | missingId (entity : String)
  | duplicateId (entity : String) (id : Value)
  | nonUniqueResult (count : Nat)
  | file (fault : FileFault)
  /-- An earlier operation broke off in the middle of a change. -/
  | storeUnavailable

namespace ExecutionError

/-- The text of an execution error. -/
def message : ExecutionError → String
  | .compile e => "compile error: " ++ e.message
  | .conversion e => e.message
  | .unknownTable name => "unknown table '" ++ name ++ "'"
  | .invalidData fault => "invalid data: " ++ fault.message
  | .missingId entity => "no id given or generated for '" ++ entity ++ "'"
  | .duplicateId entity id => "'" ++ entity ++ "' already has a row with id " ++ id.render
  | .nonUniqueResult count =>
      "query returned " ++ toString count ++ " rows where at most one was expected"
  | .file fault => "io error: " ++ fault.message
  | .storeUnavailable => "store lock poisoned"

end ExecutionError

end EntityQuery
