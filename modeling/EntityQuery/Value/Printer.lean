import EntityQuery.Number.Layout
import EntityQuery.Value.Basic

/-! # The text of a value

Compact JSON text: no blanks, fields in order, numbers in the JSON layout, and in strings only
quotes, backslashes and control characters escaped.
-/

namespace EntityQuery

namespace Value

/-- One character of a string as it stands in JSON text. -/
def escapeChar (c : Char) : List Char :=
  if c = '"' then ['\\', '"']
  else if c = '\\' then ['\\', '\\']
  else if c = '\n' then ['\\', 'n']
  else if c = '\r' then ['\\', 'r']
  else if c = '\t' then ['\\', 't']
  else if c.toNat = 8 then ['\\', 'b']
  else if c.toNat = 12 then ['\\', 'f']
  else if c.toNat < 32 then
    ['\\', 'u', '0', '0', Nat.digitChar (c.toNat / 16), Nat.digitChar (c.toNat % 16)]
  else [c]

def renderString (s : String) : String :=
  String.ofList (['"'] ++ s.toList.flatMap escapeChar ++ ['"'])

mutual

def render : Value → String
  | .null => "null"
  | .bool b => if b then "true" else "false"
  | .int i => toString i
  | .float x => NumberLayout.json.write x
  | .string s => renderString s
  | .array items => "[" ++ ",".intercalate (renderItems items) ++ "]"
  | .object fields => "\x7b" ++ ",".intercalate (renderFields fields) ++ "\x7d"

def renderItems : List Value → List String
  | [] => []
  | v :: rest => v.render :: renderItems rest

def renderFields : List (String × Value) → List String
  | [] => []
  | (name, v) :: rest => (renderString name ++ ":" ++ v.render) :: renderFields rest

end

end Value

end EntityQuery
