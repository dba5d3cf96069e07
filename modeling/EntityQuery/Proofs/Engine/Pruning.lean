import EntityQuery.Proofs.Compilation.Options
import EntityQuery.Proofs.Engine.Listing

/-! # Pruning is invisible

A statement has the same effect and the same answer whether its scans take over all columns or only
those in use: every column that any of its parts reads was recorded when the part compiled.
-/

namespace EntityQuery

variable {d : Domain} {usage usage' : Option ColumnUsage}

theorem Query.select_settled {q : Query} {compiled : CompiledSelect}
    (accepted : q.compile d = .ok compiled) (covers : Covers usage compiled.usage)
    (covers' : Covers usage' compiled.usage) (store : Store) :
    store.select usage compiled.block = store.select usage' compiled.block := by
  have sameRow : compiled.block.resultRow usage [] = compiled.block.resultRow usage' [] :=
    funext (Query.resultRow_settled accepted covers covers')
  unfold Store.select
  apply bind_congr_ok
  intro tables _
  rw [Query.runBlock_compiled accepted covers, Query.runBlock_compiled accepted covers', sameRow]

theorem matchingPositions_map {test : Row → Except ExecutionError Truth} {f : Row → Row}
    (start : Nat) (rows : List Row) :
    matchingPositions test start (rows.map f) =
      matchingPositions (fun row => test (f row)) start rows := by
  induction rows generalizing start with
  | nil => rfl
  | cons row rest ih =>
      rw [List.map_cons, matchingPositions, matchingPositions]
      simp only [ih]

/-- The rows that a delete statement removes are those its restriction is true of. -/
theorem DeleteQuery.matchingPositions_compiled {q : DeleteQuery} {compiled : CompiledDelete}
    {e : Entity} (accepted : q.compile d = .ok compiled) (covers : Covers usage compiled.usage)
    (known : d.model.entity? q.target.entity = some e) (tables : Tables) :
    (do let rows ← scan tables usage compiled.statement.target []
        matchingPositions
          (fun row => evalRestriction tables usage row compiled.statement.restriction) 0 rows) =
      (do let rows ← tables.rowsOf e
          matchingPositions
            (fun row => truthOfOptional d tables [⟨q.target.aliasName, e, row⟩] q.restriction)
            0 rows) := by
  obtain ⟨e', predicate, s, known', restricted, rfl⟩ := DeleteQuery.compile_ok accepted
  have same : e' = e := Option.some.inj (known'.symm.trans known)
  subst same
  have truth : ∀ source, evalRestriction tables usage
      (scanRow usage (CompileState.newTable {} d.config e') [] source) predicate =
        truthOfOptional d tables [⟨q.target.aliasName, e', source⟩] q.restriction :=
    fun source => compileOptional_truth restricted covers (represents_outermost source)
  rw [scan_rowsOf, map_bind]
  simp only [matchingPositions_map, truth]

theorem DeleteQuery.delete_settled {q : DeleteQuery} {compiled : CompiledDelete}
    (accepted : q.compile d = .ok compiled) (covers : Covers usage compiled.usage)
    (covers' : Covers usage' compiled.usage) (store : Store) :
    store.delete usage compiled.statement = store.delete usage' compiled.statement := by
  obtain ⟨e, -, -, known, -⟩ := DeleteQuery.compile_ok accepted
  unfold Store.delete
  apply bind_congr_ok
  intro tables _
  have positions := (DeleteQuery.matchingPositions_compiled accepted covers known tables).trans
    (DeleteQuery.matchingPositions_compiled accepted covers' known tables).symm
  have regroup := congrArg
    (fun positions => positions >>= store.removePositions compiled.statement.target.table) positions
  simpa only [bind_assoc] using regroup

namespace Engine

def withPruning (engine : Engine) (prune : Bool) : Engine :=
  { engine with domain := engine.domain.withPruning prune }

/-- Statements have the same answers and effects with and without pruning. -/
theorem pruning_invisible (engine : Engine) :
    (∀ q : Query, (engine.withPruning true).list q = (engine.withPruning false).list q) ∧
      ∀ q : DeleteQuery,
        ((engine.withPruning true).delete q).1 = ((engine.withPruning false).delete q).1 ∧
          ((engine.withPruning true).delete q).2.store =
            ((engine.withPruning false).delete q).2.store := by
  constructor
  · intro q
    unfold list withPruning
    simp only [Query.compile_withPruning]
    cases accepted : q.compile engine.domain with
    | error failure => rfl
    | ok compiled =>
        simp only [compiling, ok_bind]
        rw [Query.select_settled accepted (pruning_covers _ _) (pruning_covers _ _)]
  · intro q
    unfold delete withPruning
    simp only [DeleteQuery.compile_withPruning]
    cases accepted : q.compile engine.domain with
    | error failure => exact ⟨rfl, rfl⟩
    | ok compiled =>
        have settled := DeleteQuery.delete_settled accepted
          ((engine.withPruning true).pruning_covers compiled.usage)
          ((engine.withPruning false).pruning_covers compiled.usage) engine.store
        unfold withPruning at settled
        simp only [compiling, settled]
        cases engine.store.delete _ compiled.statement with
        | error failure => exact ⟨rfl, rfl⟩
        | ok removed => exact ⟨rfl, rfl⟩

end Engine

end EntityQuery
