import EntityQuery.Text.CaseTable

/-! # Upper and lower case

Full case mapping of a text, character by character. The one mapping that depends on its
surroundings is that of the capital sigma, which becomes a final sigma at the end of a word.
-/

namespace EntityQuery.Text

def inRanges (ranges : List (Nat × Nat)) (code : Nat) : Bool :=
  ranges.any fun range => decide (range.1 ≤ code ∧ code ≤ range.2)

/-- What one character maps to: its expansion, else its counterpart, else itself. -/
def mapChar (expansions : List (Nat × List Nat)) (runs : List CaseRun) (c : Char) : List Char :=
  match expansions.lookup c.toNat with
  | some codes => codes.map Char.ofNat
  | none =>
      match runs.findSome? (·.target? c.toNat) with
      | some code => [Char.ofNat code]
      | none => [c]

def upperChar (c : Char) : List Char := mapChar upperExpansions upperRuns c

/-- The lower case of one character that is not a capital sigma inside a word. -/
def lowerChar (c : Char) : List Char := mapChar lowerExpansions lowerRuns c

def isCased (c : Char) : Bool := inRanges casedRanges c.toNat

def isCaseIgnorable (c : Char) : Bool := inRanges caseIgnorableRanges c.toNat

/-- Whether the first character that is not passed over is a letter with case. -/
def meetsCased (cs : List Char) : Bool :=
  match cs.dropWhile isCaseIgnorable with
  | [] => false
  | c :: _ => isCased c

/-- The capital sigma, whose lower case depends on what surrounds it. -/
def capitalSigma : Char := Char.ofNat 0x3A3

/-- The lower case of the capital sigma: final after a letter and before none. -/
def lowerSigma (before after : List Char) : Char :=
  if meetsCased before && !meetsCased after then Char.ofNat 0x3C2 else Char.ofNat 0x3C3

/-- The lower case of a text whose earlier characters, last one first, are `before`. -/
def lowerAfter : List Char → List Char → List Char
  | _, [] => []
  | before, c :: after =>
      (if c = capitalSigma then [lowerSigma before after] else lowerChar c)
        ++ lowerAfter (c :: before) after

def upper (s : String) : String := String.ofList (s.toList.flatMap upperChar)

def lower (s : String) : String := String.ofList (lowerAfter [] s.toList)

end EntityQuery.Text
