import EntityQuery.Term.Basic

/-! # Kinds of terms

The kind of value a term gives, as far as it follows from the kinds of its references. A call of a
function that is not known, or not for these arguments, has whatever kind the surroundings expect.
-/

namespace EntityQuery

/-- The kind of a function's value, the function being named in lower case. -/
def functionKind? (name : String) (args : List Kind) : Option Kind :=
  if name = "coalesce" then
    if args.isEmpty then none else some (args.foldl Kind.promote .null)
  else
    match args with
    | [kind] =>
        if name = "upper" ∨ name = "lower" ∨ name = "trim" then some .string
        else if name = "length" then some .int
        else if name = "abs" ∧ kind.isNumeric then some kind
        else none
    | _ => none

namespace Term

variable {ρ : Type}

/-- The kind that shows in the term itself; a function call shows none. -/
def intrinsicKind? (refKind : ρ → Kind) : Term ρ → Option Kind
  | .ref r => some (refKind r)
  | .literal l => some l.kind
  | .call _ _ => none

mutual

/-- The kind of a term, `fallback` for a call whose kind is not known. -/
def kindOr (refKind : ρ → Kind) (fallback : Kind) : Term ρ → Kind
  | .ref r => refKind r
  | .literal l => l.kind
  | .call name args => (functionKind? name (kindsOf refKind args)).getD fallback

/-- The kinds of arguments, null for a call whose kind is not known. -/
def kindsOf (refKind : ρ → Kind) : List (Term ρ) → List Kind
  | [] => []
  | t :: rest => t.kindOr refKind .null :: kindsOf refKind rest

end

end Term

end EntityQuery
