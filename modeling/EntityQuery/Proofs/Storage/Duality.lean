import EntityQuery.Proofs.Value.Negation
import EntityQuery.Storage.Execution

/-! # Dual predicates

The dual of a predicate says the opposite without an outer negation: conjunctions and disjunctions
trade places, comparisons take the complementary operator, and the other conditions are negated
where they stand. It is true, false and unknown where the negation of the predicate is, and fails
where the predicate fails, so the two can stand for each other inside any condition.
-/

namespace EntityQuery

namespace Predicate

mutual

def dual : Predicate → Predicate
  | .and parts => .or (dualOfAll parts)
  | .or parts => .and (dualOfAll parts)
  | .not p => p
  | .compare left op right => .compare left op.complement right
  | .isNull e negated => .isNull e !negated
  | .like e pattern negated => .like e pattern !negated
  | .existsQuery query negated => .existsQuery query !negated
  | .inQuery e query negated => .inQuery e query !negated
  | .constant t => .constant t.not

def dualOfAll : List Predicate → List Predicate
  | [] => []
  | p :: rest => p.dual :: dualOfAll rest

end

/-- A predicate with one part left out, which may stand inside the queries of its conditions. -/
inductive Frame where
  | here
  | and (before : List Predicate) (inner : Frame) (after : List Predicate)
  | or (before : List Predicate) (inner : Frame) (after : List Predicate)
  | not (inner : Frame)
  /-- The part stands in the restriction of the query. -/
  | existsQuery (query : QueryBlock) (inner : Frame) (negated : Bool)
  | inQuery (e : Expression) (query : QueryBlock) (inner : Frame) (negated : Bool)

/-- The predicate with the part that was left out. -/
def Frame.fill : Frame → Predicate → Predicate
  | .here, p => p
  | .and before inner after, p => .and (before ++ inner.fill p :: after)
  | .or before inner after, p => .or (before ++ inner.fill p :: after)
  | .not inner, p => .not (inner.fill p)
  | .existsQuery query inner negated, p =>
      .existsQuery { query with restriction := some (inner.fill p) } negated
  | .inQuery e query inner negated, p =>
      .inQuery e { query with restriction := some (inner.fill p) } negated

end Predicate

variable {tables : Tables} {usage : Option ColumnUsage} {row : Row}

mutual

/-- The dual of a predicate has the negated truth, or the same error. -/
theorem evalPredicate_dual (p : Predicate) :
    evalPredicate tables usage row p.dual = (evalPredicate tables usage row p).map Truth.not := by
  cases p with
  | and parts =>
      rw [Predicate.dual, evalPredicate, evalPredicate, (evalEach_dual parts).1]
  | or parts =>
      rw [Predicate.dual, evalPredicate, evalPredicate, (evalEach_dual parts).2]
  | not p =>
      rw [Predicate.dual, evalPredicate]
      cases evalPredicate tables usage row p with
      | error failure => rfl
      | ok t => exact congrArg Except.ok t.not_not.symm
  | compare left op right =>
      rw [Predicate.dual, evalPredicate, evalPredicate, Value.compareTruth_complement]
      rfl
  | isNull e negated | like e pattern negated =>
      rw [Predicate.dual, evalPredicate, evalPredicate, Truth.negateIf_not]
      rfl
  | existsQuery query negated | inQuery e query negated =>
      rw [Predicate.dual, evalPredicate, evalPredicate]
      cases runBlock tables usage row query with
      | error failure => rfl
      | ok rows => exact congrArg Except.ok (Truth.negateIf_not negated _)
  | constant t => rw [Predicate.dual, evalPredicate, evalPredicate]; rfl
termination_by sizeOf p

theorem evalEach_dual (parts : List Predicate) :
    evalSome tables usage row (Predicate.dualOfAll parts) =
        (evalEvery tables usage row parts).map Truth.not ∧
      evalEvery tables usage row (Predicate.dualOfAll parts) =
        (evalSome tables usage row parts).map Truth.not := by
  cases parts with
  | nil =>
      simp only [Predicate.dualOfAll, evalSome, evalEvery]
      exact ⟨rfl, rfl⟩
  | cons p rest =>
      obtain ⟨every, any⟩ := evalEach_dual rest
      simp only [Predicate.dualOfAll, evalSome, evalEvery, evalPredicate_dual p, every, any]
      cases evalPredicate tables usage row p with
      | error failure => exact ⟨rfl, rfl⟩
      | ok t =>
          constructor
          · cases evalEvery tables usage row rest with
            | error failure => rfl
            | ok u => exact congrArg Except.ok (Truth.not_and t u).symm
          · cases evalSome tables usage row rest with
            | error failure => rfl
            | ok u => exact congrArg Except.ok (Truth.not_or t u).symm
termination_by sizeOf parts

end

theorem evalEach_congr {p q : Predicate}
    (same : evalPredicate tables usage row p = evalPredicate tables usage row q)
    (before after : List Predicate) :
    evalEvery tables usage row (before ++ p :: after) =
        evalEvery tables usage row (before ++ q :: after) ∧
      evalSome tables usage row (before ++ p :: after) =
        evalSome tables usage row (before ++ q :: after) := by
  induction before with
  | nil => simp only [List.nil_append, evalEvery, evalSome, same, and_self]
  | cons first rest ih =>
      simp only [List.cons_append, evalEvery, evalSome, ih.1, ih.2, and_self]

/-- Restrictions that judge all rows alike select the same rows. -/
theorem runBlock_congr {r r' : Option Predicate} (outer : Row) (block : QueryBlock)
    (same : ∀ row, evalRestriction tables usage row r = evalRestriction tables usage row r') :
    runBlock tables usage outer { block with restriction := r } =
      runBlock tables usage outer { block with restriction := r' } := by
  simp only [runBlock, same]

/-- Predicates that judge all rows alike can stand for each other inside any predicate. -/
theorem evalPredicate_fill {p q : Predicate}
    (same : ∀ row, evalPredicate tables usage row p = evalPredicate tables usage row q)
    (frame : Predicate.Frame) (row : Row) :
    evalPredicate tables usage row (frame.fill p) =
      evalPredicate tables usage row (frame.fill q) := by
  induction frame generalizing row with
  | here => exact same row
  | and before inner after ih =>
      simp only [Predicate.Frame.fill, evalPredicate]
      exact (evalEach_congr (ih row) before after).1
  | or before inner after ih =>
      simp only [Predicate.Frame.fill, evalPredicate]
      exact (evalEach_congr (ih row) before after).2
  | not inner ih => simp only [Predicate.Frame.fill, evalPredicate, ih row]
  | existsQuery query inner negated ih | inQuery e query inner negated ih =>
      have rows : runBlock tables usage row { query with restriction := some (inner.fill p) } =
          runBlock tables usage row { query with restriction := some (inner.fill q) } :=
        runBlock_congr row query fun row => by simp only [evalRestriction, ih row]
      simp only [Predicate.Frame.fill, evalPredicate, rows]

/-- The dual of a predicate is as true as its negation, and fails with the same error, on whatever
    row. So they can stand for each other in every restriction of a query or of a delete statement,
    as a whole or in a part of it at any depth. -/
theorem Predicate.dual_interchangeable (p : Predicate) :
    (∀ tables usage row, evalPredicate tables usage row p.dual =
        (evalPredicate tables usage row p).map Truth.not) ∧
      ∀ (frame : Frame) (store : Store) (usage : Option ColumnUsage),
        (∀ block : QueryBlock,
          store.select usage { block with restriction := some (frame.fill p.dual) } =
            store.select usage { block with restriction := some (frame.fill (.not p)) }) ∧
        ∀ target, store.delete usage ⟨target, some (frame.fill p.dual)⟩ =
          store.delete usage ⟨target, some (frame.fill (.not p))⟩ := by
  have negation : ∀ tables usage row, evalPredicate tables usage row p.dual =
      evalPredicate tables usage row (.not p) := by
    intro tables usage row
    rw [evalPredicate_dual, evalPredicate]
    cases evalPredicate tables usage row p <;> rfl
  refine ⟨fun tables usage row => evalPredicate_dual p, fun frame store usage => ?_⟩
  have restriction : ∀ tables row,
      evalRestriction tables usage row (some (frame.fill p.dual)) =
        evalRestriction tables usage row (some (frame.fill (.not p))) := by
    intro tables row
    simp only [evalRestriction]
    exact evalPredicate_fill (negation tables usage) frame row
  constructor
  · intro block
    unfold Store.select
    simp only [fun tables => runBlock_congr [] block (restriction tables)]
  · intro target
    unfold Store.delete
    simp only [restriction]

end EntityQuery
