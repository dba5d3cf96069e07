import EntityQuery.Proofs.Compilation.Placeholder
import EntityQuery.Proofs.Engine.Deletion
import EntityQuery.Proofs.Engine.Requests
import EntityQuery.Proofs.Meaning.Refusals

/-! # How running a statement can fail

An engine begins with a table for every entity, and no operation takes a table away. So a statement
that compiles finds all the tables it reads. Deleting cannot fail then, and a query only when a
converter refuses a stored value that it selects. That a term has a value in every row is a matter
of the build: without overflow checks, taking the absolute value of the least integer does not break
off (`Value.absolute`).
-/

namespace EntityQuery

/-- An operation of an engine, or of the store behind it. That a writer breaks off is a fault, and no
    operation. -/
inductive Operation where
  | call (call : Call)
  | createTable (table : String)
  | insert (table : String) (row : Row)
  | removePositions (table : String) (positions : List Nat)
  /-- Run a compiled delete statement. -/
  | deleteRows (usage : Option ColumnUsage) (statement : DeleteStatement)

namespace Store

variable {store after : Store}

theorem createTable_ok {table : String} (created : store.createTable table = .ok after) :
    store.broken = false ∧ store.Retains after ∧ (after.tables.rows? table).isSome := by
  unfold createTable at created
  obtain ⟨tables, access, created⟩ := bind_eq_ok.mp created
  obtain ⟨unbroken, rfl⟩ := access_eq_ok.mp access
  cases created
  refine ⟨unbroken, ⟨rfl, ?_⟩, ?_⟩
  · intro other there
    rw [Tables.rows?_create]
    split
    · rfl
    · exact there
  · rw [Tables.rows?_create, if_pos rfl]
    rfl

theorem insert_retains {table : String} {row : Row} (inserted : store.insert table row = .ok after) :
    store.Retains after := by
  unfold insert at inserted
  obtain ⟨tables, access, inserted⟩ := bind_eq_ok.mp inserted
  obtain ⟨-, rfl⟩ := access_eq_ok.mp access
  cases inserted
  exact .of_replaces rfl (Tables.replaces_append _ _ _)

theorem removePositions_retains {table : String} {positions : List Nat} {count : Nat}
    (removed : store.removePositions table positions = .ok (count, after)) :
    store.Retains after := by
  unfold removePositions Tables.removePositions at removed
  obtain ⟨tables, access, removed⟩ := bind_eq_ok.mp removed
  obtain ⟨-, rfl⟩ := access_eq_ok.mp access
  cases stored : store.tables.rows? table with
  | none =>
      simp only [stored] at removed
      cases removed
      exact .of_eq rfl
  | some rows =>
      simp only [stored] at removed
      cases removed
      exact .of_replaces rfl (Tables.replaces_put _ _ _)

theorem delete_retains {usage : Option ColumnUsage} {statement : DeleteStatement} {count : Nat}
    (deleted : store.delete usage statement = .ok (count, after)) : store.Retains after := by
  unfold delete at deleted
  obtain ⟨tables, -, deleted⟩ := bind_eq_ok.mp deleted
  obtain ⟨rows, -, deleted⟩ := bind_eq_ok.mp deleted
  obtain ⟨positions, -, deleted⟩ := bind_eq_ok.mp deleted
  exact removePositions_retains deleted

end Store

namespace Engine

/-- The engine after its store was changed, unless that failed. -/
def changed (engine : Engine) : Except ExecutionError Store → Engine
  | .error _ => engine
  | .ok store => { engine with store := store }

def operate (engine : Engine) : Operation → Engine
  | .call call => (engine.serve call).2
  | .createTable table => engine.changed (engine.store.createTable table)
  | .insert table row => engine.changed (engine.store.insert table row)
  | .removePositions table positions =>
      engine.changed ((engine.store.removePositions table positions).map (·.2))
  | .deleteRows usage statement =>
      engine.changed ((engine.store.delete usage statement).map (·.2))

variable {engine : Engine}

theorem changed_domain (result : Except ExecutionError Store) :
    (engine.changed result).domain = engine.domain := by
  cases result <;> rfl

theorem changed_retains {result : Except ExecutionError Store}
    (retains : ∀ after, result = .ok after → engine.store.Retains after) :
    engine.store.Retains (engine.changed result).store := by
  cases result with
  | error failure => exact .of_eq rfl
  | ok after => exact retains after rfl

theorem operate_domain (operation : Operation) :
    (engine.operate operation).domain = engine.domain := by
  cases operation with
  | call call => exact serve_domain engine call
  | createTable table => exact changed_domain _
  | insert table row => exact changed_domain _
  | removePositions table positions => exact changed_domain _
  | deleteRows usage statement => exact changed_domain _

theorem operate_retains (operation : Operation) :
    engine.store.Retains (engine.operate operation).store := by
  cases operation with
  | call call => exact serve_retains engine call
  | createTable table => exact changed_retains fun _ done => (Store.createTable_ok done).2.1
  | insert table row => exact changed_retains fun _ done => Store.insert_retains done
  | removePositions table positions =>
      apply changed_retains
      intro after done
      obtain ⟨⟨count, store⟩, removed, rfl⟩ := map_eq_ok.mp done
      exact Store.removePositions_retains removed
  | deleteRows usage statement =>
      apply changed_retains
      intro after done
      obtain ⟨⟨count, store⟩, deleted, rfl⟩ := map_eq_ok.mp done
      exact Store.delete_retains deleted

/-- Every entity has its table, in a store that can be used. -/
structure Provided (engine : Engine) : Prop where
  tables : engine.store.tables.Provides engine.domain.model
  unbroken : ∀ name e, engine.domain.model.entity? name = some e → engine.store.broken = false

theorem Provided.operate (provided : engine.Provided) (operation : Operation) :
    (engine.operate operation).Provided where
  tables := by
    intro name e known
    rw [operate_domain] at known
    exact (operate_retains operation).tables _ (provided.tables name e known)
  unbroken := by
    intro name e known
    rw [operate_domain] at known
    rw [(operate_retains operation).broken]
    exact provided.unbroken name e known

theorem foldlM_createTable_ok {entities : Keyed Entity} {store after : Store}
    (created : entities.foldlM (fun store e => store.createTable e.2.table) store = .ok after) :
    store.Retains after ∧ ∀ entry ∈ entities,
      store.broken = false ∧ (after.tables.rows? entry.2.table).isSome := by
  induction entities generalizing store with
  | nil =>
      cases created
      exact ⟨.of_eq rfl, by simp⟩
  | cons entry rest ih =>
      rw [List.foldlM_cons] at created
      obtain ⟨between, first, created⟩ := bind_eq_ok.mp created
      obtain ⟨unbroken, retains, there⟩ := Store.createTable_ok first
      obtain ⟨retained, others⟩ := ih created
      refine ⟨retains.trans retained, ?_⟩
      intro other member
      rcases List.mem_cons.mp member with rfl | later
      · exact ⟨unbroken, retained.tables _ there⟩
      · exact ⟨unbroken, (others other later).2⟩

/-- Whatever the store holds, an engine that was started on it has all tables. -/
theorem start_provided {store : Store} {d : Domain} {fresh : Engine}
    (started : Engine.start store d = .ok fresh) : fresh.Provided := by
  unfold start at started
  obtain ⟨after, created, started⟩ := bind_eq_ok.mp started
  cases started
  obtain ⟨retained, each⟩ := foldlM_createTable_ok created
  constructor
  · intro name e known
    exact (each _ (Keyed.mem_of_get? known)).2
  · intro name e known
    rw [retained.broken]
    exact (each _ (Keyed.mem_of_get? known)).1

namespace Provided

theorem delete_succeeds (provided : engine.Provided) {q : DeleteQuery}
    (compiles : Succeeds (q.compile engine.domain)) : Succeeds (engine.delete q).1 := by
  obtain ⟨e, known, -⟩ := q.compile_succeeds.mp compiles
  exact Engine.delete_succeeds (provided.unbroken _ e known) provided.tables compiles

theorem list_cases (provided : engine.Provided) {q : Query}
    (compiles : Succeeds (q.compile engine.domain)) :
    Succeeds (engine.list q) ∨
      ∃ e rows row failure, solutions engine.domain engine.store.tables [] q = .ok (e, rows) ∧
        row ∈ rows ∧
        Frame.Refuses ⟨q.root.aliasName, e, row⟩ engine.domain.registry q.selected failure ∧
        engine.list q = .error (.conversion failure) := by
  have answerable := answerableQuery_of_wellFormed (q.compile_succeeds.mp compiles) provided.tables
  obtain ⟨⟨e, rows⟩, about⟩ := (solutions_succeeds q []).mpr answerable
  have unbroken := provided.unbroken _ e (solutions_entity about)
  obtain ⟨compiled, accepted⟩ := compiles
  have viewed := list_viewed accepted (View.zeros_suits engine.domain q)
  have evaluated : engine.evaluate q = converting (resultsFor engine.domain.registry q.selected
      (rows.map fun row => [⟨q.root.aliasName, e, row⟩])) := by
    rw [evaluate, Store.access_eq_ok.mpr ⟨unbroken, rfl⟩, ok_bind, Query.evaluate, about]
    rfl
  rw [evaluated] at viewed
  cases results : resultsFor engine.domain.registry q.selected
      (rows.map fun row => [⟨q.root.aliasName, e, row⟩]) with
  | ok vs =>
      rw [results] at viewed
      obtain ⟨ws, listed, -⟩ := map_eq_ok.mp viewed
      exact .inl ⟨ws, listed⟩
  | error failure =>
      rw [results] at viewed
      obtain ⟨env, inside, refused⟩ := resultsFor_error results
      obtain ⟨row, matching, rfl⟩ := List.mem_map.mp inside
      exact .inr ⟨e, rows, row, failure, about, matching, Frame.assembled_error refused,
        map_eq_error.mp viewed⟩

end Provided

end Engine

namespace Sample

end Sample

end EntityQuery
