import EntityQuery.Config.Basic
import EntityQuery.Json.Skipping
import EntityQuery.Number.Layout
import EntityQuery.Text.Quoted

/-! # Reading options

Options are written as a JSON object, in which every option may be missing and unknown fields are
passed over, or as a JSON list of the options in order. The text is read in one pass, so that of two
faults the first is reported.
-/

namespace EntityQuery

/-- What stands in a text in place of an option. -/
inductive FoundValue where
  | null
  | bool (b : Bool)
  | int (i : Int)
  | float (x : Binary64)
  | string (s : String)
  | array
  | object
  deriving DecidableEq

/-- What an option, or all of them, have to be. -/
inductive ExpectedValue where
  | count
  | flag
  | options
  deriving DecidableEq

/-- Why a text does not denote options. -/
inductive ConfigError where
  | malformed (fault : JsonFault)
  /-- Something of another type stands in place of an option. -/
  | wrongType (found : FoundValue) (expected : ExpectedValue)
  | negativeCount (i : Int)
  | duplicateField (name : String)

def FoundValue.describe : FoundValue → String
  | .null => "null"
  | .bool b => "boolean `" ++ (if b then "true" else "false") ++ "`"
  | .int i => "integer `" ++ toString i ++ "`"
  | .float x => "floating point `" ++ NumberLayout.json.write x ++ "`"
  | .string s => "string " ++ Text.quote s
  | .array => "sequence"
  | .object => "map"

def ExpectedValue.describe : ExpectedValue → String
  | .count => "usize"
  | .flag => "a boolean"
  | .options => "struct Config"

def ConfigError.message : ConfigError → String
  | .malformed fault => fault.message
  | .wrongType found expected =>
      "invalid type: " ++ found.describe ++ ", expected " ++ expected.describe
  | .negativeCount i =>
      "invalid value: " ++ (FoundValue.int i).describe ++ ", expected "
        ++ ExpectedValue.count.describe
  | .duplicateField name => "duplicate field `" ++ name ++ "`"

namespace Config

/-- Report a fault of the text as an error in the options. -/
def checked {α : Type} : Except JsonFault α → Except ConfigError α
  | .ok a => .ok a
  | .error fault => .error (.malformed fault)

/-- What a value turns out to be that was found in place of another. -/
def foundValue : Value → FoundValue
  | .null => .null
  | .bool b => .bool b
  | .int i => .int i
  | .float x => .float x
  | .string s => .string s
  | .array _ => .array
  | .object _ => .object

/-- Refuse the value that starts here; lists and objects are refused unread. -/
def refuse {α : Type} (cs : List Char) (expected : ExpectedValue) : Except ConfigError α :=
  match cs with
  | '[' :: _ => .error (.wrongType .array expected)
  | '\x7b' :: _ => .error (.wrongType .object expected)
  | _ =>
      match Json.readValue 1 0 cs with
      | .ok (v, _) => .error (.wrongType (foundValue v) expected)
      | .error fault => .error (.malformed fault)

def readCount (cs : List Char) : Except ConfigError (Nat × List Char) :=
  match Json.skipBlanks cs with
  | [] => .error (.malformed .endInValue)
  | c :: rest =>
      if c = '-' || c.isDigit then do
        let (v, rest) ← checked (Json.readNumber (c :: rest))
        match v with
        | .int i => if i < 0 then .error (.negativeCount i) else .ok (i.toNat, rest)
        | v => .error (.wrongType (foundValue v) .count)
      else refuse (c :: rest) .count

def readFlag (cs : List Char) : Except ConfigError (Bool × List Char) :=
  match Json.skipBlanks cs with
  | [] => .error (.malformed .endInValue)
  | c :: rest =>
      if c = 't' || c = 'f' then do
        let (v, rest) ← checked (Json.readValue 1 0 (c :: rest))
        .ok (v == .bool true, rest)
      else refuse (c :: rest) .flag

/-- The options that a text gives, as far as it was read. -/
structure Given where
  maxQueryDepth : Option Nat := none
  pruneColumns : Option Bool := none
  aliasStemLength : Option Nat := none

/-- The options, with their defaults for those that were not read. -/
def Given.complete (given : Given) : Config :=
  let defaults : Config := {}
  { maxQueryDepth := given.maxQueryDepth.getD defaults.maxQueryDepth
    pruneColumns := given.pruneColumns.getD defaults.pruneColumns
    aliasStemLength := given.aliasStemLength.getD defaults.aliasStemLength }

/-- Read the value of a field, unless the field was read before. -/
def readField {α : Type} (name : String) (known : Option α)
    (read : List Char → Except ConfigError (α × List Char)) (cs : List Char) :
    Except ConfigError (Option α × List Char) :=
  if known.isSome then .error (.duplicateField name)
  else do
    let cs ← checked (Json.readColon cs)
    let (v, cs) ← read cs
    .ok (some v, cs)

/-- The options of an object up to its end, added to those before. -/
def readObject (fuel : Nat) (first : Bool) (given : Given) (cs : List Char) :
    Except ConfigError (Given × List Char) :=
  match fuel with
  | 0 => .error (.malformed .endInObject)
  | fuel + 1 => do
      match ← checked (Json.nextKey? first cs) with
      | none => .ok (given, (Json.skipBlanks cs).drop 1)
      | some (name, cs) =>
          if name = "max_query_depth" then
            let (v, cs) ← readField name given.maxQueryDepth readCount cs
            readObject fuel false { given with maxQueryDepth := v } cs
          else if name = "prune_columns" then
            let (v, cs) ← readField name given.pruneColumns readFlag cs
            readObject fuel false { given with pruneColumns := v } cs
          else if name = "alias_stem_length" then
            let (v, cs) ← readField name given.aliasStemLength readCount cs
            readObject fuel false { given with aliasStemLength := v } cs
          else
            let cs ← checked (Json.readColon cs)
            let cs ← checked (Json.skip cs)
            readObject fuel false given cs

/-- The next item of a list, if there is one. -/
def readItem {α : Type} (first : Bool) (read : List Char → Except ConfigError (α × List Char))
    (cs : List Char) : Except ConfigError (Option α × List Char) := do
  match ← checked (Json.nextItem? first cs) with
  | none => .ok (none, cs)
  | some cs =>
      let (v, cs) ← read cs
      .ok (some v, cs)

/-- The end of a list whose items were all read. -/
def closeArray (cs : List Char) : Except JsonFault (List Char) :=
  match Json.skipBlanks cs with
  | [] => .error .endInArray
  | c :: rest =>
      if c = ']' then .ok rest
      else if c = ',' ∧ (Json.skipBlanks rest).head? = some ']' then .error .trailingComma
      else .error .trailingCharacters

def readArray (cs : List Char) : Except ConfigError (Given × List Char) := do
  let (depth, cs) ← readItem true readCount cs
  let (prune, cs) ← readItem depth.isNone readFlag cs
  let (stem, cs) ← readItem prune.isNone readCount cs
  let cs ← checked (closeArray cs)
  .ok (⟨depth, prune, stem⟩, cs)

/-- The options that a JSON text denotes. -/
def ofText (text : String) : Except ConfigError Config := do
  let (options, rest) ←
    match Json.skipBlanks text.toList with
    | [] => .error (.malformed .endInValue)
    | '[' :: rest => readArray rest
    | '\x7b' :: rest => readObject (rest.length + 1) true {} rest
    | cs => refuse cs .options
  checked (Json.expectEnd rest)
  .ok options.complete

end Config

end EntityQuery
