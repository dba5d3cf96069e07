import EntityQuery.Proofs.Text.Wildcards

/-! # Patterns as regular expressions

A pattern can be written as a regular expression that is anchored at both ends: a dot and a star for
a percent sign, a dot for an underscore, and every other character for itself, behind a backslash
where it would mean something else. Whoever searches a text for this expression by the rules of
regular expressions, in which a dot leaves out the line feed, finds it exactly in the texts that the
pattern matches.
-/

namespace EntityQuery.Text

/-- The parts of regular expressions that patterns are written in. -/
inductive RegexPart where
  | start
  | finish
  | any
  | anyRun
  | char (c : Char)
  deriving Repr, DecidableEq

namespace Regex

/-- The characters that mean something else than themselves. -/
def isMeta (c : Char) : Bool :=
  ['\\', '.', '+', '*', '?', '(', ')', '|', '[', ']', '\x7b', '\x7d', '^', '$', '#', '&', '-',
    '~'].contains c

/-- The text that stands for a character. -/
def escape (c : Char) : List Char := if isMeta c then ['\\', c] else [c]

/-- The parts that a text denotes, if it is made of nothing else. -/
def read : List Char → Option (List RegexPart)
  | [] => some []
  | '^' :: rest => (read rest).map (.start :: ·)
  | '$' :: rest => (read rest).map (.finish :: ·)
  | '.' :: '*' :: rest => (read rest).map (.anyRun :: ·)
  | '.' :: rest => (read rest).map (.any :: ·)
  | '\\' :: c :: rest => if isMeta c then (read rest).map (.char c :: ·) else none
  | c :: rest => if isMeta c then none else (read rest).map (.char c :: ·)

/-- Whether a run of characters other than line feeds can be followed by what `next` accepts. -/
def runThen (next : Bool → List Char → Bool) : Bool → List Char → Bool
  | atStart, [] => next atStart []
  | atStart, c :: rest => next atStart (c :: rest) || (c != '\n' && runThen next false rest)

/-- Whether the parts match here; the flag tells whether the text starts here. -/
def matchHere : List RegexPart → Bool → List Char → Bool
  | [], _, _ => true
  | .start :: parts, atStart, text => atStart && matchHere parts atStart text
  | .finish :: parts, atStart, text => text.isEmpty && matchHere parts atStart text
  | .anyRun :: parts, atStart, text => runThen (matchHere parts) atStart text
  | .any :: _, _, [] => false
  | .any :: parts, _, c :: rest => c != '\n' && matchHere parts false rest
  | .char _ :: _, _, [] => false
  | .char d :: parts, _, c :: rest => c == d && matchHere parts false rest

/-- Whether the parts match anywhere in a text. -/
def findFrom (parts : List RegexPart) : Bool → List Char → Bool
  | atStart, [] => matchHere parts atStart []
  | atStart, c :: rest => matchHere parts atStart (c :: rest) || findFrom parts false rest

def find (parts : List RegexPart) (text : String) : Bool := findFrom parts true text.toList

/-- The text that stands for one character of a pattern. -/
def pieceFor (c : Char) : List Char :=
  if c = '%' then ['.', '*'] else if c = '_' then ['.'] else escape c

/-- The regular expression for a pattern. -/
def ofPattern (pattern : List Char) : List Char := '^' :: pattern.flatMap pieceFor ++ ['$']

/-- What one character of a pattern denotes. -/
def partFor (c : Char) : RegexPart :=
  if c = '%' then .anyRun else if c = '_' then .any else .char c

theorem read_escape (c : Char) (rest : List Char) :
    read (escape c ++ rest) = (read rest).map (.char c :: ·) := by
  unfold escape
  cases meta' : isMeta c with
  | true =>
      simp only [if_true, List.cons_append, List.nil_append]
      rw [read, if_pos meta']
  | false =>
      simp only [Bool.false_eq_true, if_false, List.cons_append, List.nil_append]
      have other : ∀ d, isMeta d = true → c ≠ d := by
        rintro d special rfl
        rw [meta'] at special
        cases special
      rw [read]
      · rw [if_neg (by simp [meta'])]
      · exact other '^' rfl
      · exact other '$' rfl
      · exact fun _ dot _ => other '.' rfl dot
      · exact other '.' rfl
      · exact fun _ _ backslash _ => other '\\' rfl backslash

theorem read_any {rest : List Char} (noStar : rest.head? ≠ some '*') :
    read ('.' :: rest) = (read rest).map (.any :: ·) := by
  rw [read]
  rintro tail rfl
  exact noStar rfl

/-- No piece can be taken for the star of the one before. -/
theorem head?_pieces (pattern : List Char) :
    (pattern.flatMap pieceFor ++ ['$']).head? ≠ some '*' := by
  cases pattern with
  | nil => decide
  | cons p pattern =>
      rw [List.flatMap_cons, pieceFor]
      split
      · exact fun starred => by cases starred
      · split
        · exact fun starred => by cases starred
        · unfold escape
          split
          · exact fun starred => by cases starred
          · rename_i plain
            intro starred
            obtain rfl : p = '*' := Option.some.inj starred
            exact plain rfl

theorem read_pieces (pattern : List Char) :
    read (pattern.flatMap pieceFor ++ ['$']) = some (pattern.map partFor ++ [.finish]) := by
  induction pattern with
  | nil => rfl
  | cons p pattern ih =>
      rw [List.flatMap_cons, List.append_assoc, List.map_cons, List.cons_append, pieceFor, partFor]
      rcases Pattern.char_cases p with rfl | rfl | ⟨noRun, noOne⟩
      · rw [if_pos rfl, if_pos rfl, List.cons_append, List.cons_append, List.nil_append, read, ih]
        rfl
      · have noRun : '_' ≠ '%' := by decide
        rw [if_neg noRun, if_neg noRun, if_pos rfl, if_pos rfl, List.cons_append, List.nil_append,
          read_any (head?_pieces pattern), ih]
        rfl
      · rw [if_neg noRun, if_neg noRun, if_neg noOne, if_neg noOne, read_escape, ih]
        rfl

/-- The regular expression for a pattern denotes what each character of it does, anchored at both
    ends. -/
theorem read_ofPattern (pattern : List Char) :
    read (ofPattern pattern) = some (.start :: (pattern.map partFor ++ [.finish])) := by
  rw [ofPattern, List.cons_append, read, read_pieces]
  rfl

section Matching

open Pattern

theorem matchHere_run (pattern : List Char) (atStart : Bool) (text : List Char)
    (rest : ∀ atStart tail, matchHere (pattern.map partFor ++ [.finish]) atStart tail =
      accepts pattern tail) :
    runThen (matchHere (pattern.map partFor ++ [.finish])) atStart text =
      accepts ('%' :: pattern) text := by
  induction text generalizing atStart with
  | nil => rw [runThen, rest, accepts_run_nil]
  | cons c text ih => rw [runThen, rest, ih, accepts_run_cons, isWild]

/-- Wherever it is tried, the anchored rest of an expression accepts what the pattern does. -/
theorem matchHere_pattern (pattern : List Char) (atStart : Bool) (text : List Char) :
    matchHere (pattern.map partFor ++ [.finish]) atStart text = accepts pattern text := by
  induction pattern generalizing atStart text with
  | nil => cases text <;> rfl
  | cons p pattern ih =>
      rw [List.map_cons, List.cons_append, partFor]
      rcases char_cases p with rfl | rfl | ⟨noRun, noOne⟩
      · rw [if_pos rfl, matchHere]
        exact matchHere_run pattern atStart text ih
      · rw [if_neg (by decide), if_pos rfl]
        cases text with
        | nil => rfl
        | cons c text => rw [matchHere, ih, accepts_one_cons, isWild]
      · rw [if_neg noRun, if_neg noOne]
        cases text with
        | nil => rw [matchHere, accepts_char_nil noRun noOne]
        | cons c text => rw [matchHere, ih, accepts_char_cons noRun noOne]

theorem findFrom_start (parts : List RegexPart) (text : List Char) :
    findFrom (.start :: parts) false text = false := by
  induction text with
  | nil => rfl
  | cons c text ih => rw [findFrom, matchHere, ih]; rfl

/-- What starts with an anchor is found nowhere but at the start. -/
theorem find_start (parts : List RegexPart) (text : List Char) :
    findFrom (.start :: parts) true text = matchHere parts true text := by
  cases text with
  | nil => rw [findFrom, matchHere, Bool.true_and]
  | cons c text => rw [findFrom, findFrom_start, Bool.or_false, matchHere, Bool.true_and]

end Matching

/-- A library compiles the expressions it can to searches by the rules. It may refuse any. -/
def Documented (compile : List Char → Option (String → Bool)) : Prop :=
  ∀ ⦃expression parts search⦄, read expression = some parts → compile expression = some search →
    ∀ text, search text = find parts text

/-- The library that refuses nothing it can read. -/
def reference (expression : List Char) : Option (String → Bool) := (read expression).map find

theorem documented_reference : Documented reference := by
  intro expression parts search denotes compiled text
  rw [reference, denotes] at compiled
  obtain rfl := Option.some.inj compiled
  rfl

/-- Searching for the regular expression of a pattern is matching the pattern. -/
theorem search_ofPattern {compile : List Char → Option (String → Bool)} {search : String → Bool}
    {pattern : String} (documented : Documented compile)
    (compiled : compile (ofPattern pattern.toList) = some search) (text : String) :
    search text = matchesPattern text pattern := by
  rw [documented (read_ofPattern _) compiled, find, find_start, matchHere_pattern]
  rfl

end Regex

end EntityQuery.Text
