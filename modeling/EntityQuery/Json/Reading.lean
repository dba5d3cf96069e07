import EntityQuery.Json.Number
import EntityQuery.Json.Word

/-! # Reading values from JSON text

A value is read from left to right in one pass. Lists and objects nest at most 127 deep; of several
fields with one name the last one counts. The `fuel` of the functions here bounds the number of
characters and never runs out before them.
-/

namespace EntityQuery

namespace Json

/-- How deeply lists and objects may nest. -/
def depthLimit : Nat := 127

/-- The start of the next item of a list, if there is one. -/
def nextItem? (first : Bool) (cs : List Char) : Except JsonFault (Option (List Char)) :=
  match skipBlanks cs with
  | [] => .error .endInArray
  | c :: rest =>
      if c = ']' then .ok none
      else if first then .ok (some (c :: rest))
      else if c = ',' then
        match skipBlanks rest with
        | [] => .error .endInValue
        | d :: more => if d = ']' then .error .trailingComma else .ok (some (d :: more))
      else .error .arrayEndExpected

/-- The key of the next field of an object, if there is one, and what follows it. -/
def nextKey? (first : Bool) (cs : List Char) : Except JsonFault (Option (String × List Char)) :=
  let key (cs : List Char) : Except JsonFault (Option (String × List Char)) :=
    match cs with
    | '"' :: rest => (readString rest).map some
    | _ => .error .keyNotString
  match skipBlanks cs with
  | [] => .error .endInObject
  | c :: rest =>
      if c = '\x7d' then .ok none
      else if first then key (c :: rest)
      else if c = ',' then
        match skipBlanks rest with
        | [] => .error .endInValue
        | d :: more => if d = '\x7d' then .error .trailingComma else key (d :: more)
      else .error .objectEndExpected

def readColon (cs : List Char) : Except JsonFault (List Char) :=
  match skipBlanks cs with
  | [] => .error .endInObject
  | c :: rest => if c = ':' then .ok rest else .error .colonExpected

mutual

/-- The value that starts here, with at most `depth` levels of lists and objects. -/
def readValue (fuel depth : Nat) (cs : List Char) : Except JsonFault (Value × List Char) :=
  match fuel with
  | 0 => .error .endInValue
  | fuel + 1 =>
      match skipBlanks cs with
      | [] => .error .endInValue
      | c :: rest =>
          if c = 'n' then (readWord ['u', 'l', 'l'] rest).map fun rest => (.null, rest)
          else if c = 't' then
            (readWord ['r', 'u', 'e'] rest).map fun rest => (.bool true, rest)
          else if c = 'f' then
            (readWord ['a', 'l', 's', 'e'] rest).map fun rest => (.bool false, rest)
          else if c = '-' || c.isDigit then readNumber (c :: rest)
          else if c = '"' then (readString rest).map fun (s, rest) => (.string s, rest)
          else if c = '[' then
            match depth with
            | 0 => .error .tooDeep
            | depth + 1 =>
                (readItems fuel depth true rest).map fun (items, rest) => (.array items, rest)
          else if c = '\x7b' then
            match depth with
            | 0 => .error .tooDeep
            | depth + 1 =>
                (readFields fuel depth true [] rest).map fun (fs, rest) => (.object fs, rest)
          else .error .valueExpected

def readItems (fuel depth : Nat) (first : Bool) (cs : List Char) :
    Except JsonFault (List Value × List Char) :=
  match fuel with
  | 0 => .error .endInArray
  | fuel + 1 => do
      match ← nextItem? first cs with
      | none => .ok ([], (skipBlanks cs).drop 1)
      | some cs =>
          let (v, cs) ← readValue fuel depth cs
          let (vs, cs) ← readItems fuel depth false cs
          .ok (v :: vs, cs)

/-- The fields of an object up to its end, added to those before. -/
def readFields (fuel depth : Nat) (first : Bool) (before : Fields) (cs : List Char) :
    Except JsonFault (Fields × List Char) :=
  match fuel with
  | 0 => .error .endInObject
  | fuel + 1 => do
      match ← nextKey? first cs with
      | none => .ok (before, (skipBlanks cs).drop 1)
      | some (name, cs) =>
          let cs ← readColon cs
          let (v, cs) ← readValue fuel depth cs
          readFields fuel depth false (Keyed.insert before name v) cs

end

/-- There is nothing but blanks left. -/
def expectEnd (cs : List Char) : Except JsonFault Unit :=
  if (skipBlanks cs).isEmpty then .ok () else .error .trailingCharacters

/-- The value that a JSON text denotes. -/
def read (text : String) : Except JsonFault Value := do
  let cs := text.toList
  let (v, rest) ← readValue (2 * cs.length + 2) depthLimit cs
  expectEnd rest
  .ok v

end Json

end EntityQuery
