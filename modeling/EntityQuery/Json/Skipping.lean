import EntityQuery.Json.Reading

/-! # Passing over JSON text

A value that nobody asks for is checked for its form alone: it may nest to any depth, its numbers
may have any size, and a comma before the end of a list is taken for the start of a missing item.
-/

namespace EntityQuery

namespace Json

mutual

/-- Pass over the value that starts here. -/
def skipValue (fuel : Nat) (cs : List Char) : Except JsonFault (List Char) :=
  match fuel with
  | 0 => .error .endInValue
  | fuel + 1 =>
      match skipBlanks cs with
      | [] => .error .endInValue
      | c :: rest =>
          if c = 'n' then readWord ['u', 'l', 'l'] rest
          else if c = 't' then readWord ['r', 'u', 'e'] rest
          else if c = 'f' then readWord ['a', 'l', 's', 'e'] rest
          else if c = '-' || c.isDigit then skipNumber (c :: rest)
          else if c = '"' then skipString rest
          else if c = '[' then
            match skipBlanks rest with
            | [] => .error .endInArray
            | d :: more => if d = ']' then .ok more else skipItems fuel (d :: more)
          else if c = '\x7b' then
            match skipBlanks rest with
            | [] => .error .endInObject
            | d :: more => if d = '\x7d' then .ok more else skipFields fuel (d :: more)
          else .error .valueExpected

/-- Pass over at least one item and the end of its list. -/
def skipItems (fuel : Nat) (cs : List Char) : Except JsonFault (List Char) :=
  match fuel with
  | 0 => .error .endInArray
  | fuel + 1 => do
      let cs ← skipValue fuel cs
      match skipBlanks cs with
      | [] => .error .endInArray
      | c :: rest =>
          if c = ']' then .ok rest
          else if c = ',' then skipItems fuel rest
          else .error .arrayEndExpected

/-- Pass over at least one field and the end of its object. -/
def skipFields (fuel : Nat) (cs : List Char) : Except JsonFault (List Char) :=
  match fuel with
  | 0 => .error .endInObject
  | fuel + 1 => do
      match skipBlanks cs with
      | [] => .error .endInObject
      | c :: rest =>
          if c = '"' then
            let cs ← skipString rest
            let cs ← readColon cs
            let cs ← skipValue fuel cs
            match skipBlanks cs with
            | [] => .error .endInObject
            | d :: more =>
                if d = '\x7d' then .ok more
                else if d = ',' then skipFields fuel more
                else .error .objectEndExpected
          else .error .keyNotString

end

/-- Pass over the value that starts here, whatever its length. -/
def skip (cs : List Char) : Except JsonFault (List Char) := skipValue (2 * cs.length + 2) cs

end Json

end EntityQuery
