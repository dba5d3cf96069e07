import EntityQuery.Proofs.Engine.Pruning
import EntityQuery.Proofs.Storage.Rows
import EntityQuery.Proofs.Storage.Tables

/-! # Operations of an engine, step by step

What an operation that changes the store has done: persisting adds one row behind those of its
table, and deleting leaves the rows that its restriction is not true of. An operation that fails has
done nothing to the store.
-/

namespace EntityQuery

theorem IdGenerator.next_not_null {g g' : IdGenerator} {uuid : String} {id : Value}
    (generated : g.next uuid = (some id, g')) : id.isNull = false := by
  unfold next at generated
  split at generated
  · cases generated
  · cases generated
    rfl
  · split at generated
    · cases generated
      rfl
    · cases generated

namespace Engine

theorem assignId_unchanged (engine : Engine) (e : Entity) (fields : Fields) (existing : List Row)
    (uuid : String) :
    (engine.assignId e fields existing uuid).2.domain = engine.domain ∧
      (engine.assignId e fields existing uuid).2.store = engine.store := by
  unfold assignId
  split
  · exact ⟨rfl, rfl⟩
  · exact ⟨rfl, rfl⟩

/-- An id is never null, whether it was supplied or generated. -/
theorem assignId_not_null {engine engine' : Engine} {e : Entity} {fields : Fields}
    {existing : List Row} {uuid : String} {id : Value}
    (assigned : engine.assignId e fields existing uuid = (some id, engine')) :
    id.isNull = false := by
  unfold assignId at assigned
  split at assigned
  · next supplied =>
    cases assigned
    simpa using (Option.filter_eq_some_iff.mp supplied).2
  · cases generated : (engine.generatorFor e existing).next uuid with
    | mk given g =>
        simp only [generated] at assigned
        cases assigned
        exact IdGenerator.next_not_null generated

theorem newRow_ok {registry : ConverterRegistry} {e : Entity} {id v : Value} {existing : List Row}
    {row : Row} (created : newRow registry e id v existing = .ok row) :
    storedRow registry e id v e.leaves [] = .ok row ∧
      isTaken e existing (row.stored e.idColumn) = false := by
  unfold newRow at created
  obtain ⟨row', stored, created⟩ := bind_eq_ok.mp created
  split at created
  · cases created
  · next free =>
    cases created
    exact ⟨stored, Bool.eq_false_iff.mpr free⟩

/-- The value was stored under the id, as a row of the entity behind the others. -/
structure Stores (engine : Engine) (e : Entity) (v id : Value) (row : Row) (engine' : Engine) :
    Prop where
  unbroken : engine.store.broken = false
  not_null : id.isNull = false
  stored : storedRow engine.domain.registry e id v e.leaves [] = .ok row
  fresh : isTaken e ((engine.store.tables.rows? e.table).getD []) (row.stored e.idColumn) = false
  domain : engine'.domain = engine.domain
  store : engine'.store =
    { engine.store with tables := engine.store.tables.append e.table [row] }

/-- A value is refused and the store left as it is, or the value is stored. -/
theorem persist_cases (engine : Engine) (name : String) (v : Value) (uuid : String) :
    (∃ failure engine', engine.persist name v uuid = (.error failure, engine') ∧
        engine'.domain = engine.domain ∧ engine'.store = engine.store) ∨
      ∃ e id row engine', engine.persist name v uuid = (.ok id, engine') ∧
        engine.domain.model.entity? name = some e ∧ engine.Stores e v id row engine' := by
  unfold persist
  cases known : engine.domain.model.entity? name with
  | none => exact .inl ⟨_, _, rfl, rfl, rfl⟩
  | some e =>
      cases v with
      | null | bool b | int i | float x | string s | array items =>
          exact .inl ⟨_, _, rfl, rfl, rfl⟩
      | object fields =>
          cases access : engine.store.access with
          | error failure => exact .inl ⟨_, _, rfl, rfl, rfl⟩
          | ok tables =>
              obtain ⟨unbroken, rfl⟩ := Store.access_eq_ok.mp access
              obtain ⟨sameDomain, sameStore⟩ := engine.assignId_unchanged e fields
                ((engine.store.tables.rows? e.table).getD []) uuid
              cases assigned : engine.assignId e fields
                  ((engine.store.tables.rows? e.table).getD []) uuid with
              | mk given engine₁ =>
                  rw [assigned] at sameDomain sameStore
                  cases given with
                  | none =>
                      simp only [assigned]
                      exact .inl ⟨_, _, rfl, sameDomain, sameStore⟩
                  | some id =>
                      simp only [assigned] at sameDomain sameStore ⊢
                      cases created : newRow engine₁.domain.registry e id (.object fields)
                          ((engine.store.tables.rows? e.table).getD []) with
                      | error failure => exact .inl ⟨_, _, rfl, sameDomain, sameStore⟩
                      | ok row =>
                          obtain ⟨stored, fresh⟩ := newRow_ok created
                          rw [sameDomain] at stored
                          exact .inr ⟨e, id, row, _, rfl, rfl, unbroken,
                            assignId_not_null assigned, stored, fresh, sameDomain,
                            by rw [sameStore]⟩

theorem persist_stores {engine engine' : Engine} {name : String} {e : Entity} {v id : Value}
    {uuid : String} (known : engine.domain.model.entity? name = some e)
    (persisted : engine.persist name v uuid = (.ok id, engine')) :
    ∃ row, engine.Stores e v id row engine' := by
  rcases engine.persist_cases name v uuid with ⟨failure, engine₁, refused, -, -⟩ |
    ⟨e', id', row, engine₁, done, known', stores⟩
  · rw [refused] at persisted
    cases persisted
  · rw [done] at persisted
    cases persisted
    cases known.symm.trans known'
    exact ⟨row, stores⟩

end Engine

/-- The truth of the restriction for a row of the target. -/
def DeleteQuery.truth (d : Domain) (tables : Tables) (e : Entity) (q : DeleteQuery) (row : Row) :
    Except ExecutionError Truth :=
  truthOfOptional d tables [⟨q.target.aliasName, e, row⟩] q.restriction

section Deleting

variable {d : Domain} {usage : Option ColumnUsage} {q : DeleteQuery} {compiled : CompiledDelete}

/-- Removing rows of a table by their places and counting them. -/
theorem Store.removePositions_ok {store : Store} {table : String} {rows : List Row}
    (unbroken : store.broken = false) (stored : store.tables.rows? table = some rows)
    (positions : List Nat) :
    store.removePositions table positions =
      .ok (rows.length - (Tables.rowsExcept positions 0 rows).length,
        { store with
          tables := Keyed.put store.tables table (Tables.rowsExcept positions 0 rows) }) := by
  unfold removePositions Tables.removePositions
  rw [access_eq_ok.mpr ⟨unbroken, rfl⟩, ok_bind, stored]

/-- A compiled delete statement tests all rows of its target as they are before the first one goes,
    and leaves those that do not pass. -/
theorem DeleteQuery.delete_compiled {e : Entity} (accepted : q.compile d = .ok compiled)
    (covers : Covers usage compiled.usage) (known : d.model.entity? q.target.entity = some e)
    (store : Store) :
    store.delete usage compiled.statement = (do
      let tables ← store.access
      let rows ← tables.rowsOf e
      let found ← keepRows (q.truth d tables e) rows
      .ok (found.length,
        { store with
          tables := Keyed.put tables e.table
            (rows.filter fun row => !passes (q.truth d tables e) row) })) := by
  have target : compiled.statement.target.table = e.table := by
    obtain ⟨e', predicate, s, known', -, rfl⟩ := DeleteQuery.compile_ok accepted
    cases known.symm.trans known'
    rfl
  unfold Store.delete
  apply bind_congr_ok
  intro tables access
  obtain ⟨unbroken, rfl⟩ := Store.access_eq_ok.mp access
  have positions := DeleteQuery.matchingPositions_compiled accepted covers known store.tables
  rw [← bind_assoc, positions, target, bind_assoc]
  apply bind_congr_ok
  intro rows stored
  simp only [store.removePositions_ok unbroken (Tables.rowsOf_eq_ok.mp stored)]
  rw [bind_ok_eq_map, bind_ok_eq_map]
  apply map_congr_view (@matchingPositions_outcome (q.truth d store.tables e) 0 rows)
  intro places kept found isKept _
  rw [rowsExcept_matchingPositions found, (keepRows_ok isKept).2, length_filter_not_passes]

end Deleting

namespace Engine

/-- The rows that pass the test of the statement were removed and counted, and the others kept. -/
structure Deletes (engine : Engine) (q : DeleteQuery) (e : Entity) (rows : List Row) (count : Nat)
    (engine' : Engine) : Prop where
  unbroken : engine.store.broken = false
  stored : engine.store.tables.rows? e.table = some rows
  answered : ∀ row ∈ rows, Succeeds (q.truth engine.domain engine.store.tables e row)
  count : count = (rows.filter (passes (q.truth engine.domain engine.store.tables e))).length
  domain : engine'.domain = engine.domain
  store : engine'.store =
    { engine.store with
      tables := Keyed.put engine.store.tables e.table
        (rows.filter fun row => !passes (q.truth engine.domain engine.store.tables e) row) }

/-- What a delete statement that compiles answers. -/
theorem delete_accepted {engine : Engine} {q : DeleteQuery} {compiled : CompiledDelete}
    {e : Entity} (accepted : q.compile engine.domain = .ok compiled)
    (known : engine.domain.model.entity? q.target.entity = some e) :
    (engine.delete q).1 = (do
      let tables ← engine.store.access
      let rows ← tables.rowsOf e
      let found ← keepRows (q.truth engine.domain tables e) rows
      .ok found.length) := by
  unfold delete
  simp only [accepted, compiling,
    DeleteQuery.delete_compiled accepted (engine.pruning_covers _) known]
  cases engine.store.access with
  | error failure => rfl
  | ok tables =>
      simp only [ok_bind]
      cases tables.rowsOf e with
      | error failure => rfl
      | ok rows =>
          simp only [ok_bind]
          cases keepRows (q.truth engine.domain tables e) rows <;> rfl

/-- A delete statement fails and changes nothing, or it removes what its restriction is true of. -/
theorem delete_cases (engine : Engine) (q : DeleteQuery) :
    (∃ failure, engine.delete q = (.error failure, engine)) ∨
      ∃ e rows count engine', engine.delete q = (.ok count, engine') ∧
        engine.domain.model.entity? q.target.entity = some e ∧
        engine.Deletes q e rows count engine' := by
  unfold delete
  cases accepted : q.compile engine.domain with
  | error failure => exact .inl ⟨_, rfl⟩
  | ok compiled =>
      obtain ⟨e, -, -, known, -⟩ := DeleteQuery.compile_ok accepted
      simp only [compiling]
      cases done : engine.store.delete (engine.pruning compiled.usage) compiled.statement with
      | error failure => exact .inl ⟨_, rfl⟩
      | ok result =>
          rw [DeleteQuery.delete_compiled accepted (engine.pruning_covers _) known] at done
          obtain ⟨tables, access, done⟩ := bind_eq_ok.mp done
          obtain ⟨unbroken, rfl⟩ := Store.access_eq_ok.mp access
          obtain ⟨rows, stored, done⟩ := bind_eq_ok.mp done
          obtain ⟨found, kept, done⟩ := bind_eq_ok.mp done
          obtain ⟨answered, rfl⟩ := keepRows_ok kept
          cases done
          exact .inr ⟨e, rows, _, _, rfl, known, unbroken, Tables.rowsOf_eq_ok.mp stored, answered,
            rfl, rfl, rfl⟩

variable {engine engine' : Engine} {e : Entity}

theorem Stores.appended {v id : Value} {row : Row} (stores : engine.Stores e v id row engine') :
    engine.store.tables.Replaces e.table
      ((engine.store.tables.rows? e.table).getD [] ++ [row]) engine'.store.tables := by
  rw [stores.store]
  exact Tables.replaces_append _ _ _

theorem Deletes.replaced {q : DeleteQuery} {rows : List Row} {count : Nat}
    (deletes : engine.Deletes q e rows count engine') :
    engine.store.tables.Replaces e.table
      (rows.filter fun row => !passes (q.truth engine.domain engine.store.tables e) row)
      engine'.store.tables := by
  rw [deletes.store]
  exact Tables.replaces_put _ _ _

theorem Deletes.removed {q : DeleteQuery} {rows : List Row} {count : Nat}
    (deletes : engine.Deletes q e rows count engine') :
    (rows.filter fun row =>
        !passes (q.truth engine.domain engine.store.tables e) row).length + count =
      rows.length := by
  rw [deletes.count, ← length_filter_not_passes]
  exact Nat.add_sub_cancel' (List.length_filter_le _ _)

end Engine

/-- An identifier to hand in where none is needed. -/
def Sample.uuid : String := "3f2b8c1e-9d47-4a60-8e15-c7d0a4b96f23"

end EntityQuery
