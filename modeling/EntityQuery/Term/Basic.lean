import EntityQuery.Term.Literal

/-! # Terms

Value expressions: literals, function calls, and references to whatever the surrounding language
names values by. Statements of the application refer to attribute paths, compiled statements to
columns; the structure is the same.
-/

namespace EntityQuery

/-- A value expression over references of type `ρ`. -/
inductive Term (ρ : Type) where
  | ref (r : ρ)
  | literal (l : Literal)
  | call (name : String) (args : List (Term ρ))

namespace Term

variable {ρ : Type}

mutual

/-- The references of a term from left to right, repeated ones included. -/
def refs : Term ρ → List ρ
  | .ref r => [r]
  | .literal _ => []
  | .call _ args => refsOfList args

def refsOfList : List (Term ρ) → List ρ
  | [] => []
  | t :: rest => t.refs ++ refsOfList rest

end

mutual

/-- The term by which slots are recognised, in which zeros have no sign. -/
def identity : Term ρ → Term ρ
  | .ref r => .ref r
  | .literal l => .literal l.identity
  | .call name args => .call name (identityOfList args)

def identityOfList : List (Term ρ) → List (Term ρ)
  | [] => []
  | t :: rest => t.identity :: identityOfList rest

end

mutual

/-- Equality of terms can be decided where that of their references can. -/
def decEq [DecidableEq ρ] : (a b : Term ρ) → Decidable (a = b)
  | .ref a, .ref b => decidable_of_iff (a = b) (by simp)
  | .literal a, .literal b => decidable_of_iff (a = b) (by simp)
  | .call m a, .call n b =>
      match decEqList a b with
      | isTrue h => decidable_of_iff (m = n) (by simp [h])
      | isFalse h => isFalse (by simp [h])
  | .ref _, .literal _ | .ref _, .call _ _ | .literal _, .ref _ | .literal _, .call _ _
  | .call _ _, .ref _ | .call _ _, .literal _ => isFalse (by simp)

def decEqList [DecidableEq ρ] : (a b : List (Term ρ)) → Decidable (a = b)
  | [], [] => isTrue rfl
  | [], _ :: _ | _ :: _, [] => isFalse (by simp)
  | x :: a, y :: b =>
      match decEq x y, decEqList a b with
      | isTrue h, isTrue t => isTrue (by rw [h, t])
      | isFalse h, _ => isFalse (by simp [h])
      | _, isFalse t => isFalse (by simp [t])

end

instance [DecidableEq ρ] : DecidableEq (Term ρ) := decEq

mutual

/-- The text of a term, given that of a reference. -/
def render (showRef : ρ → String) : Term ρ → String
  | .ref r => showRef r
  | .literal l => l.render
  | .call name args => name ++ "(" ++ ", ".intercalate (renderList showRef args) ++ ")"

def renderList (showRef : ρ → String) : List (Term ρ) → List String
  | [] => []
  | t :: rest => t.render showRef :: renderList showRef rest

end

end Term

end EntityQuery
