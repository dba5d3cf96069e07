import EntityQuery.Proofs.Compilation.Acceptance
import EntityQuery.Proofs.Engine.Steps
import EntityQuery.Proofs.Meaning.Answers

/-! # Deleting is selecting

A delete statement compiles exactly if a query with its restriction does. It counts the rows that
the query lists and leaves those that the query rejects, all of them judged by the tables as they
were before.
-/

namespace EntityQuery

/-- The query that gives a literal for every row that the statement removes. -/
def DeleteQuery.counted (q : DeleteQuery) (l : Literal) : Query :=
  { root := q.target, selections := [{ operand := .literal l }], restriction := q.restriction }

variable {d : Domain} {q : DeleteQuery} {l : Literal}

theorem SelectsAll.literal (d : Domain) (visible : Visible) (l : Literal) :
    SelectsAll d visible [{ operand := .literal l }] where
  each := by simp [Visible.Selects, Visible.Admits, Term.refs]
  first := by simp [Visible.columns]

theorem DeleteQuery.counted_wellFormed :
    wellFormedQuery d [] [] (q.counted l) ↔ ∃ e, d.model.entity? q.target.entity = some e ∧
      wellFormedOptional d [(q.target.aliasName, e)] [] q.restriction := by
  unfold counted
  rw [wellFormedQuery]
  constructor
  · rintro ⟨-, e, known, -, restricted, -⟩
    exact ⟨e, known, restricted⟩
  · rintro ⟨e, known, restricted⟩
    exact ⟨Nat.zero_le _, e, known, .literal d _ l, restricted, by simp⟩

theorem DeleteQuery.counted_compile_succeeds :
    Succeeds (q.compile d) ↔ Succeeds ((q.counted l).compile d) := by
  rw [DeleteQuery.compile_succeeds, Query.compile_succeeds, counted_wellFormed]

theorem DeleteQuery.solutions_counted {tables : Tables} {e : Entity}
    (known : d.model.entity? q.target.entity = some e) :
    solutions d tables [] (q.counted l) = (do
      let rows ← tables.rowsOf e
      let kept ← keepRows (q.truth d tables e) rows
      .ok (e, kept)) :=
  solutions_unsorted known

theorem resultsFor_literal (registry : ConverterRegistry) (envs : List Environment) :
    resultsFor registry [{ operand := .literal l }] envs = .ok (envs.map fun _ => l.toValue) := by
  induction envs with
  | nil => rfl
  | cons env rest ih =>
      rw [resultsFor, ih]
      rfl

namespace Engine

variable {engine : Engine}

/-- Where all entities have their tables, a delete statement that compiles succeeds. -/
theorem delete_succeeds (unbroken : engine.store.broken = false)
    (provided : engine.store.tables.Provides engine.domain.model)
    (compiles : Succeeds (q.compile engine.domain)) : Succeeds (engine.delete q).1 := by
  obtain ⟨e, known, restricted⟩ := q.compile_succeeds.mp compiles
  obtain ⟨compiled, accepted⟩ := compiles
  obtain ⟨rows, stored⟩ := Option.isSome_iff_exists.mp (provided _ e known)
  have answered : ∀ row ∈ rows, Succeeds (q.truth engine.domain engine.store.tables e row) :=
    fun row _ => (truthOfOptional_succeeds q.restriction _).mpr
      (answerableOptional_of_wellFormed restricted provided)
  rw [delete_accepted accepted known, Store.access_eq_ok.mpr ⟨unbroken, rfl⟩, ok_bind,
    Tables.rowsOf_eq_ok.mpr stored, ok_bind, keepRows_of_total answered]
  exact succeeds_ok _

/-- How many rows the query lists. -/
theorem list_counted {compiled : CompiledSelect} {e : Entity}
    (accepted : (q.counted l).compile engine.domain = .ok compiled)
    (known : engine.domain.model.entity? q.target.entity = some e) :
    (engine.list (q.counted l)).map List.length = (do
      let tables ← engine.store.access
      let rows ← tables.rowsOf e
      let found ← keepRows (q.truth engine.domain tables e) rows
      .ok found.length) := by
  have viewed := list_viewed accepted (View.zeros_suits engine.domain (q.counted l))
  rw [map_congr_view viewed fun xs ys _ _ same => by simpa using congrArg List.length same]
  unfold evaluate Query.evaluate
  cases engine.store.access with
  | error failure => rfl
  | ok tables =>
      simp only [ok_bind, DeleteQuery.solutions_counted known]
      cases tables.rowsOf e with
      | error failure => rfl
      | ok rows =>
          simp only [ok_bind]
          cases keepRows (q.truth engine.domain tables e) rows with
          | error failure => rfl
          | ok found =>
              have selected : (q.counted l).selected = [{ operand := .literal l }] := rfl
              simp [selected, resultsFor_literal, converting, Except.map]

/-- A delete statement compiles exactly if the query does. It answers with the number of rows that
    the query lists, and leaves those of the target's rows that the query rejects. -/
theorem delete_counted (engine : Engine) (q : DeleteQuery) (l : Literal) :
    (Succeeds (q.compile engine.domain) ↔ Succeeds ((q.counted l).compile engine.domain)) ∧
      (Succeeds (q.compile engine.domain) →
        (engine.delete q).1 = (engine.list (q.counted l)).map List.length ∧
        ∀ count engine', engine.delete q = (.ok count, engine') →
          ∃ e rows, engine.domain.model.entity? q.target.entity = some e ∧
            engine.store.tables.rows? e.table = some rows ∧
            (∀ row ∈ rows, Succeeds (q.truth engine.domain engine.store.tables e row)) ∧
            solutions engine.domain engine.store.tables [] (q.counted l) =
              .ok (e, rows.filter (passes (q.truth engine.domain engine.store.tables e))) ∧
            engine.store.tables.Replaces e.table
              (rows.filter fun row => !passes (q.truth engine.domain engine.store.tables e) row)
              engine'.store.tables) := by
  refine ⟨DeleteQuery.counted_compile_succeeds, ?_⟩
  intro compiles
  constructor
  · obtain ⟨compiled, accepted⟩ := compiles
    obtain ⟨compiled', accepted'⟩ := DeleteQuery.counted_compile_succeeds (l := l).mp ⟨_, accepted⟩
    obtain ⟨e, -, -, known, -⟩ := DeleteQuery.compile_ok accepted
    rw [delete_accepted accepted known, list_counted accepted' known]
  · intro count engine' deleted
    rcases engine.delete_cases q with ⟨failure, refused⟩ |
      ⟨e, rows, count', after, done, known, deletes⟩
    · rw [refused] at deleted
      cases deleted
    · rw [done] at deleted
      cases deleted
      refine ⟨e, rows, known, deletes.stored, deletes.answered, ?_, deletes.replaced⟩
      rw [DeleteQuery.solutions_counted known, Tables.rowsOf_eq_ok.mpr deletes.stored, ok_bind,
        keepRows_of_total deletes.answered, ok_bind]

end Engine

namespace Sample

/-- The people who share their city with somebody else. -/
def crowded : DeleteQuery where
  target := ⟨"Person", "p"⟩
  restriction := some (.existsQuery
    { root := ⟨"Person", "other"⟩
      restriction := some (.and
        [.compare (.ref ⟨"other", ["address", "city"]⟩) .eq (.ref ⟨"p", ["address", "city"]⟩),
          .compare (.ref ⟨"other", []⟩) .ne (.ref ⟨"p", []⟩)]) } false)

end Sample

theorem Engine.delete_counted_crowded :
    Succeeds (Sample.crowded.compile Sample.people.domain) ∧
      (Sample.people.delete Sample.crowded).1.toOption = some 2 ∧
      (Sample.people.delete Sample.crowded).1 =
        (Sample.people.list (Sample.crowded.counted (.int 1))).map List.length ∧
      ∃ count engine' e rows, Sample.people.delete Sample.crowded = (.ok count, engine') ∧
        Sample.people.store.tables.rows? e.table = some rows ∧
        engine'.store.tables.rows? e.table =
          some (rows.filter fun row =>
            !passes (Sample.crowded.truth Sample.people.domain Sample.people.store.tables e)
              row) := by
  have compiles : Succeeds (Sample.crowded.compile Sample.people.domain) :=
    isOk_iff.mp (by decide +kernel)
  obtain ⟨agree, left⟩ :=
    (Engine.delete_counted Sample.people Sample.crowded (.int 1)).2 compiles
  obtain ⟨count, counted⟩ : ∃ count, (Sample.people.delete Sample.crowded).1 = .ok count :=
    isOk_iff.mp (by decide +kernel)
  have deleted : Sample.people.delete Sample.crowded =
      (.ok count, (Sample.people.delete Sample.crowded).2) := by
    rw [← counted]
  obtain ⟨e, rows, -, stored, -, -, replaced⟩ := left _ _ deleted
  exact ⟨compiles, by decide +kernel, agree, count, _, e, rows, deleted, stored, replaced.own⟩

end EntityQuery
