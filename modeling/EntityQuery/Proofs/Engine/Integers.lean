import EntityQuery.Proofs.Engine.Deletion
import EntityQuery.Proofs.Engine.Duplicates
import EntityQuery.Proofs.Engine.Filtering
import EntityQuery.Proofs.Value.Rounding

/-! # Filters on integers

What compares an attribute with an integer is about rows by the number that comparisons see. On rows
whose integers they tell apart from the one asked for, listing and deleting take the rows whose
integers are in the relation; and whatever a table holds, they take no others for an operator that
is false of equals, and all of them for one that is true of equals.
-/

namespace EntityQuery

/-- The statement that removes what compares with a value in an attribute. -/
def DeleteQuery.comparing (entity aliasName : String) (attributes : AttributePath)
    (op : Comparison) (l : Literal) : DeleteQuery where
  target := ⟨entity, aliasName⟩
  restriction := some (.compare (.ref ⟨aliasName, attributes⟩) op (.literal l))

variable {d : Domain} {e : Entity} {a : BasicAttribute} {name aliasName : String}
  {attributes : AttributePath} {op : Comparison} {l : Literal} {n : Int}

/-- What can be listed can be removed. -/
theorem DeleteQuery.comparing_compiles
    (compiles : Succeeds ((Query.comparing name aliasName attributes op l).compile d)) :
    Succeeds ((DeleteQuery.comparing name aliasName attributes op l).compile d) := by
  have wellFormed := (Query.compile_succeeds _).mp compiles
  rw [Query.comparing, wellFormedQuery] at wellFormed
  obtain ⟨-, e, known, -, restricted, -⟩ := wellFormed
  exact (DeleteQuery.compile_succeeds _).mpr ⟨e, known, restricted⟩

namespace Engine

variable {engine : Engine} {rows : List Row}

/-- The rows of an entity, and an attribute of it that is stored as it is. -/
structure Keeps (engine : Engine) (name : String) (attributes : AttributePath) (e : Entity)
    (a : BasicAttribute) (rows : List Row) : Prop where
  known : engine.domain.model.entity? name = some e
  located : e.at? attributes = some (.basic a)
  unconverted : engine.domain.registry.inEffect? a = none
  unbroken : engine.store.broken = false
  stored : engine.store.tables.rows? e.table = some rows

/-- The rows that pass the test are those which the query lists, and which the delete statement
    counts and removes. -/
structure Takes (engine : Engine) (q : Query) (q' : DeleteQuery) (e : Entity) (rows : List Row)
    (test : Row → Bool) : Prop where
  listed : engine.list q = converting (resultsFor engine.domain.registry q.selected
    ((rows.filter test).map fun row => [⟨q.root.aliasName, e, row⟩]))
  deleted : ∃ engine', engine.delete q' = (.ok (rows.filter test).length, engine') ∧
    engine.store.tables.Replaces e.table (rows.filter fun row => !test row) engine'.store.tables

/-- Whether the value in a column is seen in the relation with an integer. -/
def compares (column : String) (op : Comparison) (n : Int) (row : Row) : Bool :=
  decide (Value.compareTruth (row.stored column) op (.int n) = .holds)

namespace Keeps

variable (keeps : engine.Keeps name attributes e a rows)
include keeps

theorem leads (aliasName : String) : e.columnAt? ⟨aliasName, attributes⟩ = some a :=
  Entity.columnAt?_of_at? keeps.located

theorem form (l : Literal) : engine.domain.registry.form? a l = some l.toValue := by
  simp only [ConverterRegistry.form?, keeps.unconverted]

theorem list_comparing
    (compiles : Succeeds
      ((Query.comparing name aliasName attributes op (.int n)).compile engine.domain)) :
    engine.list (Query.comparing name aliasName attributes op (.int n)) =
      converting (resultsFor engine.domain.registry
        (Query.comparing name aliasName attributes op (.int n)).selected
        ((rows.filter (compares a.column op n)).map fun row => [⟨aliasName, e, row⟩])) := by
  have about := solutions_comparing op keeps.known (keeps.leads aliasName) (keeps.form (.int n))
    keeps.stored
  obtain ⟨compiled, accepted⟩ := compiles
  rw [list_evaluate_plain accepted (by simp [Query.comparing]), evaluate,
    Store.access_eq_ok.mpr ⟨keeps.unbroken, rfl⟩, ok_bind, Query.evaluate, about]
  rfl

theorem passes_comparing (aliasName : String) (op : Comparison) (n : Int) :
    passes ((DeleteQuery.comparing name aliasName attributes op (.int n)).truth engine.domain
      engine.store.tables e) = compares a.column op n :=
  funext fun row => EntityQuery.passes_comparing engine.store.tables op (keeps.leads aliasName)
    (keeps.form (.int n)) row

theorem delete_comparing
    (compiles : Succeeds
      ((DeleteQuery.comparing name aliasName attributes op (.int n)).compile engine.domain)) :
    ∃ engine', engine.delete (DeleteQuery.comparing name aliasName attributes op (.int n)) =
        (.ok (rows.filter (compares a.column op n)).length, engine') ∧
      engine.store.tables.Replaces e.table (rows.filter fun row => !compares a.column op n row)
        engine'.store.tables := by
  obtain ⟨compiled, accepted⟩ := compiles
  have tested : ∀ row ∈ rows, Succeeds ((DeleteQuery.comparing name aliasName attributes op
      (.int n)).truth engine.domain engine.store.tables e row) := fun row _ =>
    ⟨_, comparing_truth _ op (keeps.leads aliasName) (keeps.form (.int n)) row⟩
  have answered := delete_accepted accepted keeps.known
  rw [Store.access_eq_ok.mpr ⟨keeps.unbroken, rfl⟩, ok_bind,
    Tables.rowsOf_eq_ok.mpr keeps.stored, ok_bind, keepRows_of_total tested] at answered
  rcases engine.delete_cases (DeleteQuery.comparing name aliasName attributes op (.int n)) with
    ⟨failure, refused⟩ | ⟨e', rows', count, engine', done, known, deletes⟩
  · rw [refused] at answered
    cases answered
  · cases keeps.known.symm.trans known
    cases keeps.stored.symm.trans deletes.stored
    have replaced := deletes.replaced
    have counted := deletes.count
    rw [keeps.passes_comparing] at replaced counted
    rw [done, counted]
    exact ⟨engine', rfl, replaced⟩

/-- Listing and deleting what compares with an integer go by what comparisons see. -/
theorem takes
    (compiles : Succeeds
      ((Query.comparing name aliasName attributes op (.int n)).compile engine.domain)) :
    engine.Takes (Query.comparing name aliasName attributes op (.int n))
      (DeleteQuery.comparing name aliasName attributes op (.int n)) e rows
      (compares a.column op n) where
  listed := keeps.list_comparing compiles
  deleted := keeps.delete_comparing (DeleteQuery.comparing_compiles compiles)

end Keeps

/-- Comparisons are exact for two integers if they see them as different numbers: if one of them is
    below `2^53` in size, or if they have 64 bits and are more than `2^11` apart. Otherwise they take
    them for equal. So what compares an attribute with an integer lists and removes the same rows:
    none without a value, and those with an integer by the verdict on it. -/
theorem compare_integers (n : Int) :
    (∀ m, (Value.ComparedExactly m n ↔ Value.Discerned m n) ∧
      (m.natAbs < 2 ^ 53 ∨ n.natAbs < 2 ^ 53 → Value.Discerned m n) ∧
      (m.natAbs ≤ 2 ^ 64 - 1 → n.natAbs ≤ 2 ^ 64 - 1 → 2 ^ 11 < (m - n).natAbs →
        Value.Discerned m n) ∧
      ∀ op, Value.Verdict op m n (Value.compareTruth (.int m) op (.int n) = .holds)) ∧
    ∀ {engine : Engine} {name aliasName : String} {attributes : AttributePath} {e : Entity}
      {a : BasicAttribute} {rows : List Row} {op : Comparison},
      engine.Keeps name attributes e a rows →
      Succeeds ((Query.comparing name aliasName attributes op (.int n)).compile engine.domain) →
      ∃ test, engine.Takes (Query.comparing name aliasName attributes op (.int n))
          (DeleteQuery.comparing name aliasName attributes op (.int n)) e rows test ∧
        ∀ row ∈ rows, (row.stored a.column = .null → test row = false) ∧
          ∀ m, row.stored a.column = .int m → Value.Verdict op m n (test row = true) := by
  constructor
  · intro m
    exact ⟨Value.comparedExactly_iff, Value.discerned_of_small, Value.discerned_of_distant,
      fun op => Value.verdict op m n⟩
  · intro engine name aliasName attributes e a rows op keeps compiles
    refine ⟨_, keeps.takes compiles, fun row _ => ⟨fun null => ?_, fun m isInt => ?_⟩⟩
    · rw [compares, null]
      rfl
    · rw [compares, isInt, decide_eq_true_iff]
      exact Value.verdict op m n

end Engine

namespace Sample

/-- The rows of tickets with the given ids. -/
def numbered (ids : List Int) : List Row := ids.map fun id => [("id", .int id)]

theorem stocked_keeps (ids : List Int) :
    (stocked ids).Keeps "Ticket" ["id"] ticket { column := "id", kind := .int } (numbered ids) :=
  ⟨rfl, rfl, rfl, rfl, rfl⟩

end Sample

theorem Engine.compare_integers_later :
    Value.ComparedExactly 9 10 ∧
      ∃ test, (Sample.stocked [9, 9007199254740993]).Takes
          (Query.comparing "Ticket" "t" ["id"] .gt (.int 10))
          (DeleteQuery.comparing "Ticket" "t" ["id"] .gt (.int 10)) Sample.ticket
          (Sample.numbered [9, 9007199254740993]) test ∧
        test [("id", .int 9)] = false ∧ test [("id", .int 9007199254740993)] = true := by
  obtain ⟨values, rows⟩ := Engine.compare_integers 10
  have discerned (m : Int) : Value.Discerned m 10 := (values m).2.1 (.inr (by decide))
  have compiles : Succeeds ((Query.comparing "Ticket" "t" ["id"] .gt (.int 10)).compile
      (Sample.stocked [9, 9007199254740993]).domain) := isOk_iff.mp (by decide +kernel)
  obtain ⟨test, takes, each⟩ := rows (Sample.stocked_keeps _) compiles
  refine ⟨(values 9).1.mpr (discerned 9), test, takes, ?_, ?_⟩
  · have verdict := (each [("id", .int 9)] (.head _)).2 9 rfl
    exact Bool.eq_false_iff.mpr (mt (verdict.exact (discerned 9)).mp (by decide))
  · have verdict := (each [("id", .int 9007199254740993)] (.tail _ (.head _))).2 _ rfl
    exact (verdict.exact (discerned _)).mpr (by decide)

/-- The number after `2^53` is taken for `2^53`, and what is to remove the one removes the other. -/
theorem Engine.compare_integers_neighbours :
    Value.compareTruth (.int 9007199254740992) .eq (.int 9007199254740993) = .holds ∧
      Value.same (.int 9007199254740992) (.int 9007199254740993) = true ∧
      Value.sortCompare true (.int 9007199254740992) (.int 9007199254740993) = .eq ∧
      ((Sample.stocked [9007199254740992]).delete
        (DeleteQuery.comparing "Ticket" "t" ["id"] .eq (.int 9007199254740993))).1.toOption =
          some 1 := by
  refine ⟨?_, ?_, ?_, ?_⟩
  · decide +kernel
  · decide +kernel
  · decide +kernel
  · decide +kernel

end EntityQuery
