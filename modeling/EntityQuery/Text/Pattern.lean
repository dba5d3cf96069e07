/-! # Text patterns

A pattern stands for whole texts: a percent sign for any run of characters other than line feeds, an
underscore for one such character, and every other character for itself. Matching works through the
pattern from its end, noting for every tail of the text whether the rest of the pattern matches it.
-/

namespace EntityQuery.Text

/-- Whether a wildcard may stand for the character. -/
def isWild (c : Char) : Bool := c != '\n'

namespace Pattern

/-- The answers for a pattern that starts with one character accepted by `accepts`, from the answers
    for the rest of it. An answer list has one entry for every tail of the text, longest first. -/
def afterOne (accepts : Char → Bool) : List Char → List Bool → List Bool
  | [], _ => [false]
  | c :: text, answers =>
      (accepts c && answers.tail.headD false) :: afterOne accepts text answers.tail

/-- The answers for a pattern that starts with a percent sign, from the answers for the rest. -/
def afterRun : List Char → List Bool → List Bool
  | [], answers => [answers.headD false]
  | c :: text, answers =>
      let shorter := afterRun text answers.tail
      (answers.headD false || (isWild c && shorter.headD false)) :: shorter

/-- For every tail of the text, longest first, whether the pattern matches it. -/
def answers (text : List Char) : List Char → List Bool
  | [] => text.map (fun _ => false) ++ [true]
  | p :: pattern =>
      if p = '%' then afterRun text (answers text pattern)
      else if p = '_' then afterOne isWild text (answers text pattern)
      else afterOne (· == p) text (answers text pattern)

end Pattern

/-- Whether the pattern matches the whole text. -/
def matchesPattern (text pattern : String) : Bool :=
  (Pattern.answers text.toList pattern.toList).headD false

end EntityQuery.Text
