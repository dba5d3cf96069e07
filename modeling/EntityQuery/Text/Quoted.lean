import EntityQuery.Text.Case
import EntityQuery.Text.PrintTable

/-! # Quoted text

A text between double quotes in which every character can be told apart: quotes, backslashes and
line controls are escaped by name, and characters that do not print, or that would join the one
before them, by their code point.
-/

namespace EntityQuery.Text

/-- The digits of a number in base sixteen, in lower case. -/
def hexDigits (n : Nat) : List Char := Nat.toDigits 16 n

/-- Whether a character is escaped by its code point. -/
def needsCodePoint (c : Char) : Bool :=
  inRanges extendingRanges c.toNat || inRanges nonPrintingRanges c.toNat

/-- One character as it stands between quotes. -/
def quoteChar (c : Char) : List Char :=
  if c = '"' then ['\\', '"']
  else if c = '\\' then ['\\', '\\']
  else if c = '\n' then ['\\', 'n']
  else if c = '\r' then ['\\', 'r']
  else if c = '\t' then ['\\', 't']
  else if c.toNat = 0 then ['\\', '0']
  else if needsCodePoint c then ['\\', 'u', '\x7b'] ++ hexDigits c.toNat ++ ['\x7d']
  else [c]

def quote (s : String) : String :=
  String.ofList (['"'] ++ s.toList.flatMap quoteChar ++ ['"'])

/-- The quoted texts between brackets, separated by commas. -/
def quoteList (items : List String) : String :=
  "[" ++ ", ".intercalate (items.map quote) ++ "]"

end EntityQuery.Text
