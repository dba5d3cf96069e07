import EntityQuery.Json.Error

/-! # Words and strings of JSON

Blanks, the three words, and strings with their escapes. A character beyond the basic plane is
escaped as a pair of surrogates; where a string is only passed over, pairs are not looked at.
-/

namespace EntityQuery

namespace Json

/-- The blanks between the parts of a JSON text. -/
def isBlank (c : Char) : Bool := c = ' ' || c = '\n' || c = '\t' || c = '\r'

def skipBlanks (cs : List Char) : List Char := cs.dropWhile isBlank

/-- Pass over the rest of a word. -/
def readWord : List Char → List Char → Except JsonFault (List Char)
  | [], cs => .ok cs
  | _ :: _, [] => .error .endInValue
  | w :: word, c :: cs => if c = w then readWord word cs else .error .wordExpected

/-- The value of a hexadecimal digit in either case. -/
def hexValue? (c : Char) : Option Nat :=
  if '0' ≤ c ∧ c ≤ '9' then some (c.toNat - '0'.toNat)
  else if 'a' ≤ c ∧ c ≤ 'f' then some (c.toNat - 'a'.toNat + 10)
  else if 'A' ≤ c ∧ c ≤ 'F' then some (c.toNat - 'A'.toNat + 10)
  else none

/-- The number of bytes of a text in UTF-8. -/
def byteCount (cs : List Char) : Nat := cs.foldl (fun n c => n + c.utf8Size) 0

/-- The value of four hexadecimal digits. Whether the text ends too early or the digits are wrong is
    decided by the number of bytes left. -/
def readHex (cs : List Char) : Except JsonFault (Nat × List Char) :=
  let shortage := if byteCount cs < 4 then JsonFault.endInString else JsonFault.invalidEscape
  match cs with
  | a :: b :: c :: d :: rest =>
      match hexValue? a, hexValue? b, hexValue? c, hexValue? d with
      | some a, some b, some c, some d => .ok (((a * 16 + b) * 16 + c) * 16 + d, rest)
      | _, _, _, _ => .error shortage
  | _ => .error shortage

def isLeading (code : Nat) : Bool := 0xD800 ≤ code && code ≤ 0xDBFF

def isTrailing (code : Nat) : Bool := 0xDC00 ≤ code && code ≤ 0xDFFF

/-- The character of an escape by code, of which the first four digits stand at the front. -/
def readCodeEscape (cs : List Char) : Except JsonFault (Char × List Char) := do
  let (code, rest) ← readHex cs
  if isTrailing code then .error .unpairedSurrogate
  else if isLeading code then
    match rest with
    | [] => .error .endInString
    | '\\' :: [] => .error .endInString
    | '\\' :: 'u' :: rest =>
        let (second, rest) ← readHex rest
        if isTrailing second then
          .ok (Char.ofNat ((code - 0xD800) * 1024 + (second - 0xDC00) + 0x10000), rest)
        else .error .unpairedSurrogate
    | _ => .error .endOfEscape
  else .ok (Char.ofNat code, rest)

/-- The character of an escape, after the backslash. -/
def readEscape (pairs : Bool) : List Char → Except JsonFault (Char × List Char)
  | [] => .error .endInString
  | c :: rest =>
      if c = '"' ∨ c = '\\' ∨ c = '/' then .ok (c, rest)
      else if c = 'b' then .ok ('\x08', rest)
      else if c = 'f' then .ok ('\x0c', rest)
      else if c = 'n' then .ok ('\n', rest)
      else if c = 'r' then .ok ('\r', rest)
      else if c = 't' then .ok ('\t', rest)
      else if c = 'u' then
        if pairs then readCodeEscape rest
        else (readHex rest).map fun (_, rest) => (' ', rest)
      else .error .invalidEscape

/-- The characters of a string up to its closing quote; `fuel` bounds their number. -/
def readChars (pairs : Bool) : Nat → List Char → Except JsonFault (List Char × List Char)
  | 0, _ => .error .endInString
  | _ + 1, [] => .error .endInString
  | fuel + 1, c :: rest =>
      if c = '"' then .ok ([], rest)
      else if c = '\\' then do
        let (d, rest) ← readEscape pairs rest
        let (ds, rest) ← readChars pairs fuel rest
        .ok (d :: ds, rest)
      else if c.toNat < 32 then .error .controlCharacter
      else do
        let (ds, rest) ← readChars pairs fuel rest
        .ok (c :: ds, rest)

/-- The string that starts after an opening quote. -/
def readString (cs : List Char) : Except JsonFault (String × List Char) :=
  (readChars true (cs.length + 1) cs).map fun (ds, rest) => (String.ofList ds, rest)

/-- Pass over the string that starts after an opening quote. -/
def skipString (cs : List Char) : Except JsonFault (List Char) :=
  (readChars false (cs.length + 1) cs).map (·.2)

end Json

end EntityQuery
